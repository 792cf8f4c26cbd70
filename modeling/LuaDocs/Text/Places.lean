import LuaDocs.Text.Basic

/-!
# Places in a text

A place in a text is the number of characters before it. A set of places is a list in descending order
without repetitions, so that sets are put together, compared and taken apart in one pass. What matches a
pattern is found by taking a set of places through the parts of the pattern.
-/

namespace LuaDocs

/-- A set of places in a text: numbers in descending order, each once. -/
abbrev Places := List Nat

namespace Places

def upTo : Nat → Places
  | 0 => [0]
  | n + 1 => (n + 1) :: upTo n

def union : Places → Places → Places
  | [], q => q
  | p, [] => p
  | i :: p, j :: q =>
    if j < i then i :: union p (j :: q)
    else if i < j then j :: union (i :: p) q
    else i :: union p q
termination_by p q => p.length + q.length

def without : Places → Places → Places
  | [], _ => []
  | p, [] => p
  | i :: p, j :: q =>
    if j < i then i :: without p (j :: q)
    else if i < j then without (i :: p) q
    else without p q
termination_by p q => p.length + q.length

/-- The places behind the characters of a text that satisfy `p` and stand at places of a set. -/
def past (s : Array Char) (p : Char → Bool) (places : Places) : Places :=
  (places.filter fun i => s[i]?.any p).map (· + 1)

end Places

end LuaDocs
