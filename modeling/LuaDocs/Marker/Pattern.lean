import LuaDocs.Text.Case
import LuaDocs.Text.Places

/-!
# Patterns of markers

A marker is a regular pattern that is looked for in a line. This module says what a pattern is and
where it matches. `ends` gives the places at which a match that starts at one of some places may end,
so a pattern denotes a relation between places and the order in which alternatives are tried does not
matter. Whole sets of places are taken through a pattern at once, and a repetition stops when it leads
nowhere new, so neither large counts nor nested repetitions make a match slow.
-/

namespace LuaDocs

/-- A class of characters. -/
inductive CharClass where
  /-- The characters between two bounds, both included. -/
  | range (first last : Char)
  | digit
  | space
  | word
  /-- The characters outside a class. -/
  | outside (c : CharClass)
  deriving DecidableEq

namespace CharClass

def contains (c : Char) : CharClass → Bool
  | range first last => first ≤ c && c ≤ last
  | digit => Text.isDecimalDigit c
  | space => Text.isSpace c
  | word => Text.isWordChar c
  | outside k => !contains c k

/-- Whether a character or another case of it belongs to a class. -/
def containsFolded (c : Char) : CharClass → Bool
  | range first last => (c :: Text.otherCases c).any fun d => first ≤ d && d ≤ last
  | k => contains c k

end CharClass

/-- A set of characters: those in some classes, or those in none of them. -/
structure CharSet where
  negated : Bool
  classes : List CharClass
  deriving DecidableEq

namespace CharSet

def single (c : Char) : CharSet :=
  ⟨false, [.range c c]⟩

def inLine : CharSet :=
  ⟨true, [.range '\n' '\n']⟩

def contains (folded : Bool) (s : CharSet) (c : Char) : Bool :=
  s.negated != s.classes.any (if folded then CharClass.containsFolded c else CharClass.contains c)

end CharSet

/-- A condition on a place in a line. -/
inductive Assertion where
  /-- The front of the line. -/
  | start
  /-- The end of the line. -/
  | stop
  /-- Between a word character and another. -/
  | wordBoundary
  | noWordBoundary
  | wordStart
  | wordEnd
  deriving DecidableEq

namespace Assertion

def wordBefore (cs : Array Char) : Nat → Bool
  | 0 => false
  | i + 1 => cs[i]?.any Text.isWordChar

def wordAfter (cs : Array Char) (i : Nat) : Bool :=
  cs[i]?.any Text.isWordChar

def holds (cs : Array Char) (i : Nat) : Assertion → Bool
  | start => i == 0
  | stop => i == cs.size
  | wordBoundary => wordBefore cs i != wordAfter cs i
  | noWordBoundary => wordBefore cs i == wordAfter cs i
  | wordStart => !wordBefore cs i && wordAfter cs i
  | wordEnd => wordBefore cs i && !wordAfter cs i

end Assertion

/-- A regular pattern. -/
inductive Pattern where
  /-- Matches the empty text. -/
  | empty
  /-- Matches one character of a set; `folded` lets other cases count. -/
  | one (folded : Bool) (set : CharSet)
  /-- Matches the empty text where a condition holds. -/
  | assert (condition : Assertion)
  /-- Matches one pattern and then another. -/
  | seq (first second : Pattern)
  /-- Matches either of two patterns. -/
  | either (left right : Pattern)
  /-- Matches a pattern at least `min` times and at most `max` times. -/
  | repeated (body : Pattern) (min : Nat) (max : Option Nat)
  /-- Matches a pattern that is a numbered group. -/
  | group (body : Pattern)
  deriving DecidableEq

namespace Pattern

/-- The places that exactly `n` steps lead to. Where one step leads to the same places again, so does
every further one. -/
def afterSteps (step : Places → Places) : Nat → Places → Places
  | 0, places => places
  | n + 1, places =>
    let next := step places
    if next == places then places else afterSteps step n next

/-- The places of `reached`, and those that at most `n` steps lead to from the places of `fresh`, which
are the places of `reached` that no step has been taken from. -/
def withinSteps (step : Places → Places) : Nat → (fresh reached : Places) → Places
  | 0, _, reached => reached
  | n + 1, fresh, reached =>
    match (step fresh).without reached with
    | [] => reached
    | new => withinSteps step n new (new.union reached)

/-- The places at which a match that starts at one of some places of a line may end. A repetition
without an upper bound needs no more steps than there are characters, since a step that takes none leads
nowhere new. -/
def ends (line : Array Char) : Pattern → Places → Places
  | empty, places => places
  | one folded set, places => places.past line (set.contains folded)
  | assert condition, places => places.filter fun i => condition.holds line i
  | seq first second, places => ends line second (ends line first places)
  | either left right, places => (ends line left places).union (ends line right places)
  | repeated body min max, places =>
    let step := ends line body
    let more := match max with
      | some max => max - min
      | none => line.size
    match min with
    | 0 => withinSteps step more places places
    | min + 1 =>
      let earlier := afterSteps step min places
      let first := step earlier
      withinSteps step more (first.without earlier) first
  | group body, places => ends line body places

def matchesIn (pattern : Pattern) (line : Text) : Bool :=
  let line := line.toArray
  !(ends line pattern (.upTo line.size)).isEmpty

end Pattern

end LuaDocs
