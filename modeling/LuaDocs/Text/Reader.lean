import LuaDocs.Text.Basic

/-!
# Reading from the front of a text

Readers take something from the front of a text and give back the rest. The rest is strictly shorter,
and its type says so, which is why grammars built from readers end on every text. A reader that may
take nothing gives back a tail instead.
-/

namespace LuaDocs.Text

/-- What is left of `s` once some of it has been read. -/
abbrev Rest (s : Text) :=
  { r : Text // r.length < s.length }

/-- What is left of `s` when perhaps nothing of it has been read. -/
abbrev Tail (s : Text) :=
  { r : Text // r.length ≤ s.length }

theorem length_dropWhile_le {α : Type} (p : α → Bool) (l : List α) :
    (l.dropWhile p).length ≤ l.length :=
  (List.dropWhile_sublist p).length_le

theorem length_lt_cons (c : Char) (s : Text) : s.length < (c :: s).length :=
  Nat.lt_succ_self _

theorem length_trimStart_le (s : Text) : (trimStart s).length ≤ s.length :=
  length_dropWhile_le _ s

namespace Tail

def whole (s : Text) : Tail s :=
  ⟨s, Nat.le_refl _⟩

def skip (p : Char → Bool) (s : Text) : Tail s :=
  ⟨s.dropWhile p, length_dropWhile_le p s⟩

def drop (n : Nat) (s : Text) : Tail s :=
  ⟨s.drop n, by rw [List.length_drop]; exact Nat.sub_le _ _⟩

def trans {t : Text} (s : Tail t) (r : Tail s.1) : Tail t :=
  ⟨r.1, Nat.le_trans r.2 s.2⟩

/-- A tail of a text is also one of the text with one more character in front. -/
def under (c : Char) {s : Text} (r : Tail s) : Tail (c :: s) :=
  ⟨r.1, Nat.le_succ_of_le r.2⟩

end Tail

namespace Rest

def afterFirst (c : Char) (s : Text) : Rest (c :: s) :=
  ⟨s, length_lt_cons c s⟩

def toTail {s : Text} (r : Rest s) : Tail s :=
  ⟨r.1, Nat.le_of_lt r.2⟩

/-- A tail of a text is a rest of the text with one more character in front. -/
def ofTail (c : Char) {s : Text} (r : Tail s) : Rest (c :: s) :=
  ⟨r.1, Nat.lt_succ_of_le r.2⟩

/-- A rest of a text is also one of the text with one more character in front. -/
def under (c : Char) {s : Text} (r : Rest s) : Rest (c :: s) :=
  ⟨r.1, Nat.lt_succ_of_lt r.2⟩

/-- What is left of a part of `t` is also left of `t`. -/
def ofLe {s t : Text} (h : s.length ≤ t.length) (r : Rest s) : Rest t :=
  ⟨r.1, Nat.lt_of_lt_of_le r.2 h⟩

def trans {t : Text} (s : Rest t) (r : Rest s.1) : Rest t :=
  ⟨r.1, Nat.lt_trans r.2 s.2⟩

/-- A tail of what was left of `t` is also left of `t`. -/
def followedBy {t : Text} (s : Rest t) (r : Tail s.1) : Rest t :=
  ⟨r.1, Nat.lt_of_le_of_lt r.2 s.2⟩

end Rest

def mark? (c : Char) : (s : Text) → Option (Rest s)
  | [] => none
  | d :: r => if d == c then some (.afterFirst d r) else none

/-- The text after the character `c`, when it comes first apart from white space. -/
def closing? (c : Char) (s : Text) : Option (Rest s) :=
  (mark? c (trimStart s)).map (.ofLe (length_trimStart_le s))

/-- The text after the character `c` and the white space on both sides of it. -/
def between? (c : Char) (s : Text) : Option (Rest s) :=
  (closing? c s).map fun r => r.followedBy (.skip isSpace r.1)

end LuaDocs.Text
