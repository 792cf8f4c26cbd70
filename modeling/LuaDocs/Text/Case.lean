import LuaDocs.Text.CaseTable

/-!
# Lower and upper case

The full case mappings of Unicode. They map a text to a text: some characters become several, and a
capital sigma becomes the final form of the small letter where it ends a word. Where case does not
count, characters are compared one by one, by the cases that each of them has.
-/

namespace LuaDocs.Text

/-- The lower case of a character as one character. -/
def lowerChar (c : Char) : Char :=
  CaseRow.map lowerRows c

/-- The upper case of a character as one character, where there is one. -/
def upperChar (c : Char) : Char :=
  CaseRow.map upperRows c

/-- The other cases of a character: the characters that count as equal to it where case does not
count. -/
def otherCases (c : Char) : List Char :=
  match caseGroups.find? (·.contains c.toNat) with
  | some group => (group.filter (· != c.toNat)).map Char.ofNat
  | none => (pairRows.findSome? (CaseRow.partner? c)).toList

/-- Whether the first character that is not ignored for casing is a cased one. -/
def casedNext (s : Text) : Bool :=
  match s.dropWhile (inRanges caseIgnorableRanges) with
  | c :: _ => inRanges casedRanges c
  | [] => false

/-- The lower case of a character; `before` is the text before it, backwards, and `after` the text
after it. -/
def lowerIn (before : Text) (c : Char) (after : Text) : Text :=
  if c.toNat == 0x3a3 then
    [Char.ofNat (if casedNext before && !casedNext after then 0x3c2 else 0x3c3)]
  else if c.toNat == 0x130 then [Char.ofNat 0x69, Char.ofNat 0x307]
  else [lowerChar c]

/-- The lower case of a text; `before` is the text before it, backwards. -/
def lowerFrom (before : Text) : Text → Text
  | [] => []
  | c :: s => lowerIn before c s ++ lowerFrom (c :: before) s

def lower (s : Text) : Text :=
  lowerFrom [] s

def upperOf (c : Char) : Text :=
  match longUpper.lookup c.toNat with
  | some ns => ns.map Char.ofNat
  | none => [upperChar c]

def upper (s : Text) : Text :=
  s.flatMap upperOf

def capitalize : Text → Text
  | [] => []
  | c :: s => upperOf c ++ s

end LuaDocs.Text
