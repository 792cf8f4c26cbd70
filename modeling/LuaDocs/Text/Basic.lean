/-!
# Texts

A text is the list of its Unicode scalar values, so every length counts characters and every
scanner is a function on lists. This module holds the vocabulary the rest of the library is written
in: which characters are white space, trimming, and cutting a text into parts and joining it again.
-/

namespace LuaDocs

/-- A text is the list of its characters. -/
abbrev Text := List Char

namespace Text

/-- A blank separates words on a line of code: a space or a tab. -/
def isBlank (c : Char) : Bool :=
  c == ' ' || c == '\t'

/-- White space is the Unicode property White_Space, whole. It has no zero-width characters and no
information separators. -/
def isSpace (c : Char) : Bool :=
  let n := c.toNat
  (9 ≤ n && n ≤ 13) || n == 0x20 || n == 0x85 || n == 0xa0 || n == 0x1680 ||
    (0x2000 ≤ n && n ≤ 0x200a) || n == 0x2028 || n == 0x2029 || n == 0x202f || n == 0x205f ||
    n == 0x3000

/-! ### Trimming -/

def trimStart (s : Text) : Text :=
  s.dropWhile isSpace

/-- The text without the longest final part whose characters all satisfy `p`. -/
def dropEndWhile (p : Char → Bool) (s : Text) : Text :=
  (s.reverse.dropWhile p).reverse

def trimEnd (s : Text) : Text :=
  dropEndWhile isSpace s

def trim (s : Text) : Text :=
  trimEnd (trimStart s)

def skipBlanks (s : Text) : Text :=
  s.dropWhile isBlank

/-- The text after a given opening, when it opens so. -/
def after? (opening s : Text) : Option Text :=
  opening.isPrefixOf? s

/-- The text before a given ending, when it ends so. -/
def before? (ending s : Text) : Option Text :=
  (ending.reverse.isPrefixOf? s.reverse).map List.reverse

def endsWith (ending s : Text) : Bool :=
  ending.isSuffixOf s

def someBlanks? : Text → Option Text
  | [] => none
  | c :: s => if isBlank c then some (skipBlanks s) else none

/-! ### Cutting and joining -/

/-- The parts of a text between the characters that satisfy `p`; there is one part more than there
are such characters. -/
def splitWhere (p : Char → Bool) : Text → List Text
  | [] => [[]]
  | c :: s =>
    if p c then [] :: splitWhere p s
    else match splitWhere p s with
      | [] => [[c]]
      | part :: parts => (c :: part) :: parts

/-- The parts of a text between the occurrences of one character. -/
def splitOn (separator : Char) (s : Text) : List Text :=
  splitWhere (· == separator) s

/-- The words of a text: its maximal runs without white space. -/
def words (s : Text) : List Text :=
  (splitWhere isSpace s).filter (!·.isEmpty)

def join (separator : Text) (parts : List Text) : Text :=
  List.intercalate separator parts

/-- A line without the one carriage return that may stand before its line feed. -/
def dropReturn (line : Text) : Text :=
  (before? ['\r'] line).getD line

/-- The lines among the parts between line feeds: each part but the last was ended by a line feed,
and the last is a line only if it has characters. -/
def closeLines : List Text → List Text
  | [] => []
  | [last] => if last.isEmpty then [] else [last]
  | line :: rest => dropReturn line :: closeLines rest

/-- The lines of a text. A line ends at a line feed, or at a carriage return and a line feed; the
end of the text ends the last line as well, so a final line feed opens no further line. -/
def lines (s : Text) : List Text :=
  closeLines (splitOn '\n' s)

def unlines (ls : List Text) : Text :=
  join ['\n'] ls

/-- The paragraphs of a text: its parts between pairs of line feeds, pairs counted from the
front. -/
def splitParagraphs : Text → List Text
  | '\n' :: '\n' :: s => [] :: splitParagraphs s
  | c :: s => match splitParagraphs s with
    | [] => [[c]]
    | part :: parts => (c :: part) :: parts
  | [] => [[]]

def replaceChar (old : Char) (new : Text) (s : Text) : Text :=
  s.flatMap fun c => if c == old then new else [c]

def spaces (n : Nat) : Text :=
  List.replicate n ' '

/-- Lines without the empty lines at their end. -/
def dropTrailingEmpty (ls : List Text) : List Text :=
  (ls.reverse.dropWhile (·.isEmpty)).reverse

/-! ### Order -/

/-- Texts are ordered by the first character in which they differ, and a text comes before all that go
on after it. -/
def notAfter : Text → Text → Bool
  | [], _ => true
  | _ :: _, [] => false
  | c :: s, d :: t => c.toNat < d.toNat || (c == d && notAfter s t)

/-! ### Names and numerals -/

/-- A letter of the Latin alphabet without marks. -/
def isLatinLetter (c : Char) : Bool :=
  ('a' ≤ c && c ≤ 'z') || ('A' ≤ c && c ≤ 'Z')

def isDigit (c : Char) : Bool :=
  '0' ≤ c && c ≤ '9'

def isNameStart (c : Char) : Bool :=
  isLatinLetter c || c == '_'

/-- A character that may stand inside a simple name. -/
def isNameChar (c : Char) : Bool :=
  isNameStart c || isDigit c

/-- A character that may stand inside a dotted name. -/
def isDottedChar (c : Char) : Bool :=
  isNameChar c || c == '.'

/-- The longest name at the front of a text, whose further characters satisfy `inside`, and what
follows it; `none` where no name starts. -/
def name? (inside : Char → Bool) : Text → Option (Text × Text)
  | [] => none
  | c :: s =>
    if isNameStart c then some (c :: s.takeWhile inside, s.dropWhile inside) else none

def ofNat (n : Nat) : Text :=
  Nat.toDigits 10 n

/-- The lower-case hexadecimal numeral of a number, with at least two digits. -/
def ofNatHex (n : Nat) : Text :=
  let digits := Nat.toDigits 16 n
  List.replicate (2 - digits.length) '0' ++ digits

end Text

end LuaDocs
