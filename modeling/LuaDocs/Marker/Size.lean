import LuaDocs.Marker.Pattern

/-!
# The size of patterns

A pattern stands for a machine that reads a line byte by byte, and a pattern whose machine would be too
large is refused. The size of a pattern is that of its machine in bytes: of the states, the ways that
lead from one to the next, and the copies that a count makes of what it repeats. What matches nothing
but the empty text is copied once at most.
-/

namespace LuaDocs

namespace CharClass

def charSize (c : Char) : Nat :=
  if c.toNat < 0x80 then 8 else 32 * c.utf8Size + 4

def size (folded : Bool) : CharClass → Nat
  | range _ last =>
    let cases := if folded then last :: Text.otherCases last else [last]
    cases.foldl (fun n c => n + charSize c) 0
  | digit => 5052
  | space => 616
  | word => 49772
  | outside digit => 12656
  | outside space => 1860
  | outside word => 46356
  | outside c => 936 + size folded c

end CharClass

namespace CharSet

/-- The character that is the only member of a set, if its other cases do not count or it has none. -/
def member? (folded : Bool) (s : CharSet) : Option Char :=
  match s with
  | ⟨false, [.range first last]⟩ =>
    if first == last && !(folded && !(Text.otherCases first).isEmpty) then some first else none
  | _ => none

def size (folded : Bool) (s : CharSet) : Nat :=
  match s.member? folded with
  | some c => 32 * c.utf8Size
  | none =>
    s.classes.foldl (fun n c => n + c.size folded) (if s.negated then 1000 else 64)

end CharSet

namespace Pattern

/-- Whether a pattern matches nothing but the empty text. -/
def isHollow : Pattern → Bool
  | empty => true
  | one .. => false
  | assert _ => true
  | seq first second => first.isHollow && second.isHollow
  | either left right => left.isHollow && right.isHollow
  | repeated body _ max => body.isHollow || max == some 0
  | group body => body.isHollow

/-- The size of a repetition of something with the size `n`. -/
def repeatedSize (n min : Nat) (max : Option Nat) : Nat :=
  match max with
  | none => Nat.max min 1 * n + 40
  | some max => min * n + (max - min) * (n + 40)

/-- The size of a pattern. -/
def size : Pattern → Nat
  | empty => 0
  | one folded set => set.size folded
  | assert _ => 32
  | seq first second => first.size + second.size
  | either left right => left.size + right.size + 72
  | repeated body min max =>
    if body.isHollow then
      repeatedSize body.size (Nat.min min 1) (some ((max.map (Nat.min 1)).getD 1))
    else repeatedSize body.size min max
  | group body => body.size + 64

/-- The size of what all machines have in common: the search for the front of a match, and its ends. -/
def baseSize : Nat := 208

def sizeLimit : Nat := 10485760

def isTooLarge (pattern : Pattern) : Bool :=
  sizeLimit < baseSize + pattern.size

end Pattern

end LuaDocs
