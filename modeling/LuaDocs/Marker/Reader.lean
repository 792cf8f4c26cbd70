import LuaDocs.Marker.Basic
import LuaDocs.Marker.Size
import LuaDocs.Text.Reader

/-!
# Reading patterns

A pattern is read in two passes: the text is cut into tokens, so that classes in brackets, counts in
braces and escapes are taken care of, and the tokens are put together with a stack of open groups. On
the way each part is measured: a pattern may be nested only so deeply and may not grow too large.
-/

namespace LuaDocs

/-- Why a text is no pattern. -/
inductive PatternFault where
  /-- The text breaks a rule of patterns. -/
  | malformed
  /-- The pattern would be too large. -/
  | tooLarge
  deriving DecidableEq

namespace PatternFault

def message : PatternFault → Text
  | malformed => "regex parse error".toList
  | tooLarge =>
    "Compiled regex exceeds size limit of ".toList ++ Text.ofNat Pattern.sizeLimit ++
      " bytes.".toList

end PatternFault

inductive PatternToken where
  /-- One character of a set. Brackets nest the set `depth` levels deep. -/
  | one (depth : Nat) (set : CharSet)
  | assert (condition : Assertion)
  /-- The start of a group, which may have a number; `folded` says whether other cases count in it, if it
  says so itself. -/
  | opens (numbered : Bool) (folded : Option Bool)
  /-- The end of a group. -/
  | closes
  /-- Between two alternatives. -/
  | bar
  /-- Whether other cases count, from here to the end of the group. -/
  | fold (folded : Bool)
  /-- How often the part before it is repeated. -/
  | times (min : Nat) (max : Option Nat)
  deriving DecidableEq

namespace PatternToken

open Text

/-! ### Escapes -/

def isMeta (c : Char) : Bool :=
  "\\.+*?()|[]\x7b\x7d^$#&-~".toList.contains c

/-- Whether a backslash in front of a character makes it stand for itself. Letters, digits and the
angle brackets are kept for escapes with a meaning. -/
def isEscapable (c : Char) : Bool :=
  isMeta c || (c.toNat < 0x80 && !isLatinLetter c && !isDigit c && c != '<' && c != '>')

def control? : Char → Option Char
  | 't' => some '\t'
  | 'n' => some '\n'
  | 'r' => some '\r'
  | 'f' => some '\x0c'
  | 'v' => some '\x0b'
  | 'a' => some '\x07'
  | _ => none

def class? : Char → Option CharClass
  | 'd' => some .digit
  | 's' => some .space
  | 'w' => some .word
  | 'D' => some (.outside .digit)
  | 'S' => some (.outside .space)
  | 'W' => some (.outside .word)
  | _ => none

def assertion? : Char → Option Assertion
  | 'b' => some .wordBoundary
  | 'B' => some .noWordBoundary
  | 'A' => some .start
  | 'z' => some .stop
  | '<' => some .wordStart
  | '>' => some .wordEnd
  | _ => none

/-- The character that stands for itself or for a control character after a backslash. -/
def escapedChar? (c : Char) : Option Char :=
  (control? c).or (if isEscapable c then some c else none)

def escape? (c : Char) : Option PatternToken :=
  (((assertion? c).map assert).or ((class? c).map fun k => one 0 ⟨false, [k]⟩)).or
    ((escapedChar? c).map fun c => one 0 (.single c))

/-! ### Classes in brackets -/

/-- A class in brackets, or a single character that may open a range. -/
def classItem? : (s : Text) → Option ((Char ⊕ CharClass) × Rest s)
  | '\\' :: c :: s =>
    match class? c with
    | some k => some (.inr k, .under '\\' (.afterFirst c s))
    | none => (escapedChar? c).map fun d => (.inl d, .under '\\' (.afterFirst c s))
  | '\\' :: [] => none
  | '[' :: _ => none
  | c :: s => some (.inl c, .afterFirst c s)
  | [] => none

/-- The upper bound of a range after a hyphen: `some none` where the text opens no range, and `none`
where what follows the hyphen cannot be a bound. -/
def upperBound? : (s : Text) → Option (Option (Char × Rest s))
  | '-' :: ']' :: _ => some none
  | '-' :: '-' :: _ => some none
  | '-' :: s =>
    match classItem? s with
    | some (.inl c, r) => some (some (c, r.under '-'))
    | _ => none
  | _ => some none

/-- The members of a class in brackets up to the bracket that closes it. -/
def classItems? (s : Text) : Option (List CharClass × Rest s) :=
  match mark? ']' s with
  | some r => some ([], r)
  | none =>
    match classItem? s with
    | none => none
    | some (.inr k, r) =>
      match upperBound? r.1 with
      | some none => (classItems? r.1).map fun (ks, r') => (k :: ks, r.trans r')
      | _ => none
    | some (.inl c, r) =>
      match upperBound? r.1 with
      | none => none
      | some none => (classItems? r.1).map fun (ks, r') => (.range c c :: ks, r.trans r')
      | some (some (d, r')) =>
        if c ≤ d then
          (classItems? r'.1).map fun (ks, r'') => (.range c d :: ks, r.trans (r'.trans r''))
        else none
termination_by s.length
decreasing_by
  · exact r.2
  · exact r.2
  · exact (r.trans r').2

/-- The hyphens that may open a class, and the text after them. -/
def leadingHyphens : (s : Text) → List CharClass × Tail s
  | '-' :: s =>
    let (ks, r) := leadingHyphens s
    (.range '-' '-' :: ks, r.under '-')
  | s => ([], .whole s)

/-- A class after its opening bracket. A closing bracket that comes first is a member. -/
def bracketed? (s : Text) : Option (PatternToken × Rest s) :=
  let (negated, body) : Bool × Tail s :=
    match mark? '^' s with
    | some r => (true, r.toTail)
    | none => (false, .whole s)
  let (hyphens, inner) := leadingHyphens body.1
  let finish (first : List CharClass) (t : Tail s) : Option (PatternToken × Rest s) :=
    (classItems? t.1).map fun (ks, r) =>
      let members := first ++ ks
      (one (if 1 < members.length then 2 else 1) ⟨negated, members⟩, r.ofLe t.2)
  match hyphens, mark? ']' inner.1 with
  | [], some r => finish [.range ']' ']'] (body.trans (inner.trans r.toTail))
  | hyphens, _ => finish hyphens (body.trans inner)

/-! ### Groups and counts -/

/-- What follows a parenthesis: a plain group, a group or a setting that lets other cases count, or a
group that has no number. Look-around is no part of these patterns. -/
def group? : (s : Text) → Option (PatternToken × Tail s)
  | '?' :: ':' :: s => some (opens false none, .drop 2 ('?' :: ':' :: s))
  | '?' :: 'i' :: ')' :: s => some (fold true, .drop 3 ('?' :: 'i' :: ')' :: s))
  | '?' :: '-' :: 'i' :: ')' :: s => some (fold false, .drop 4 ('?' :: '-' :: 'i' :: ')' :: s))
  | '?' :: 'i' :: ':' :: s => some (opens false (some true), .drop 3 ('?' :: 'i' :: ':' :: s))
  | '?' :: '-' :: 'i' :: ':' :: s =>
    some (opens false (some false), .drop 4 ('?' :: '-' :: 'i' :: ':' :: s))
  | '?' :: _ => none
  | s => some (opens true none, .whole s)

def skipLazy : (s : Text) → Tail s
  | '?' :: s => .under '?' (.whole s)
  | s => .whole s

/-- The largest number that a count may name. -/
def maxCount : Nat := 4294967295

def count? (s : Text) : Option (Nat × Text) :=
  let s := trimStart s
  match s.takeWhile isDigit with
  | [] => none
  | digits =>
    let n := digits.foldl (fun n d => 10 * n + (d.toNat - 48)) 0
    if n ≤ maxCount then some (n, trimStart (s.dropWhile isDigit)) else none

/-- A repetition in braces, after the opening brace: `n`, `n,` or `n,m`. -/
def counted? (s : Text) : Option (PatternToken × Rest s) :=
  let body := s.takeWhile (· != '\x7d')
  let bounds : Option (Nat × Option Nat) :=
    match count? body with
    | some (n, []) => some (n, some n)
    | some (n, [',']) => some (n, none)
    | some (n, ',' :: rest) =>
      match count? rest with
      | some (m, []) => if n ≤ m then some (n, some m) else none
      | _ => none
    | _ => none
  match s.dropWhile (· != '\x7d'), length_dropWhile_le (· != '\x7d') s with
  | _ :: r, h =>
    bounds.map fun (n, m) => (times n m, ⟨r, Nat.lt_of_lt_of_le (length_lt_cons _ _) h⟩)
  | [], _ => none

def dropLazy {s : Text} : PatternToken × Rest s → PatternToken × Rest s
  | (t, r) => (t, r.followedBy (skipLazy r.1))

/-! ### Tokens -/

/-- The first token of a text. -/
def next? : (s : Text) → Option (PatternToken × Rest s)
  | [] => none
  | '\\' :: c :: s => (escape? c).map fun t => (t, .under '\\' (.afterFirst c s))
  | '\\' :: [] => none
  | '[' :: s => (bracketed? s).map fun (t, r) => (t, r.under '[')
  | '(' :: s => (group? s).map fun (t, r) => (t, .ofTail '(' r)
  | '\x7b' :: s =>
    (counted? s).map fun (t, r) => dropLazy (t, r.under '\x7b')
  | c :: s =>
    let rest : Rest (c :: s) := .afterFirst c s
    some <| match c with
    | ')' => (closes, rest)
    | '|' => (bar, rest)
    | '.' => (one 0 .inLine, rest)
    | '^' => (assert .start, rest)
    | '$' => (assert .stop, rest)
    | '*' => dropLazy (times 0 none, rest)
    | '+' => dropLazy (times 1 none, rest)
    | '?' => dropLazy (times 0 (some 1), rest)
    | c => (one 0 (.single c), rest)

def all? (s : Text) : Option (List PatternToken) :=
  if s.isEmpty then some []
  else match next? s with
    | none => none
    | some (t, r) => (all? r.1).map (t :: ·)
termination_by s.length
decreasing_by
  exact r.2

end PatternToken

namespace Pattern

structure Part where
  pattern : Pattern
  /-- How many levels of groups, repetitions, brackets, sequences and alternatives it has. -/
  depth : Nat
  /-- Whether it can be repeated. -/
  repeatable : Bool

namespace Part

/-- A part without levels of its own. -/
def plain (pattern : Pattern) : Part :=
  ⟨pattern, 0, true⟩

/-- A setting, which takes a place among the parts but matches nothing of its own. -/
def setting : Part :=
  ⟨.empty, 0, false⟩

/-- The levels of several parts side by side. More than one of them make up a level. -/
def depthOf (parts : List Part) : Nat :=
  parts.foldl (fun n part => Nat.max n part.depth) 0 + if 1 < parts.length then 1 else 0

end Part

/-- A group that is being read. -/
structure OpenGroup where
  /-- Whether the group has a number. -/
  numbered : Bool
  /-- Whether other cases count. -/
  folded : Bool
  /-- The alternatives before the last bar, the last first. -/
  alternatives : List Part
  /-- The parts of the current alternative, the last first. -/
  parts : List Part

namespace OpenGroup

def empty (numbered folded : Bool) : OpenGroup :=
  ⟨numbered, folded, [], []⟩

def current (g : OpenGroup) : Part :=
  ⟨g.parts.foldl (fun p part => seq part.pattern p) .empty, Part.depthOf g.parts, true⟩

def whole (g : OpenGroup) : Part :=
  let last := g.current
  ⟨g.alternatives.foldl (fun p part => either part.pattern p) last.pattern,
    Part.depthOf (last :: g.alternatives), true⟩

def closed (g : OpenGroup) : Part :=
  let part := g.whole
  ⟨if g.numbered then group part.pattern else part.pattern, part.depth + 1, true⟩

def push (g : OpenGroup) (part : Part) : OpenGroup :=
  { g with parts := part :: g.parts }

end OpenGroup

/-- The open groups after one more token, the innermost first; `none` where the token cannot
stand. -/
def step? : List OpenGroup → PatternToken → Option (List OpenGroup)
  | [], _ => none
  | g :: outer, token =>
    match token with
    | .one depth set => some (g.push ⟨one g.folded set, depth, true⟩ :: outer)
    | .assert condition => some (g.push (.plain (assert condition)) :: outer)
    | .opens numbered folded => some (.empty numbered (folded.getD g.folded) :: g :: outer)
    | .closes =>
      match outer with
      | [] => none
      | h :: outer => some (h.push g.closed :: outer)
    | .bar => some ({ g with alternatives := g.current :: g.alternatives, parts := [] } :: outer)
    | .fold folded => some ({ g.push .setting with folded } :: outer)
    | .times min max =>
      match g.parts with
      | [] => none
      | part :: parts =>
        if part.repeatable then
          some ({ g with parts := ⟨repeated part.pattern min max, part.depth + 1, true⟩ :: parts } ::
            outer)
        else none

/-- How many levels a pattern may have. -/
def maxDepth : Nat := 250

/-- The pattern that a text is. -/
def ofText (s : Text) : Except PatternFault Pattern :=
  match (PatternToken.all? s).bind (·.foldlM step? [.empty false false]) with
  | some [g] =>
    let part := g.whole
    if maxDepth < part.depth then .error .malformed
    else if part.pattern.isTooLarge then .error .tooLarge
    else .ok part.pattern
  | _ => .error .malformed

end Pattern

namespace Standard

scoped instance markers : MarkerLanguage where
  compile marker :=
    match Pattern.ofText marker with
    | .ok pattern => .ok pattern.matchesIn
    | .error fault => .error fault.message

end Standard

end LuaDocs
