import LuaDocs.Marker.Reader
import Mathlib.Data.List.Basic

/-!
# Patterns for one line

The pattern of some characters one by one, tied to the front and to the end of a line, is matched by the
line with these characters alone.
-/

namespace LuaDocs

open Text

variable {w l : Text} {c : Char} {i : Nat}

namespace Pattern

/-- Matches some characters one by one and then the end of the line. -/
def rest (w : Text) : Pattern :=
  w.foldr (fun c p => seq (one false (.single c)) p) (seq (assert .stop) empty)

def whole (w : Text) : Pattern :=
  seq (assert .start) (rest w)

theorem contains_single (c d : Char) : (CharSet.single c).contains false d = (d == c) := by
  have hle : (c ≤ d ∧ d ≤ c) ↔ d = c := by
    constructor
    · exact fun ⟨hcd, hdc⟩ => Char.le_antisymm hdc hcd
    · rintro rfl
      exact ⟨Char.le_refl d, Char.le_refl d⟩
  rw [Bool.eq_iff_iff]
  simpa [CharSet.contains, CharSet.single, CharClass.contains] using hle

theorem ends_rest_nil (w : Text) (cs : Array Char) : ends cs (rest w) [] = [] := by
  induction w with
  | nil => rfl
  | cons c w ih => exact ih

theorem ends_rest (w l : Text) (hi : i ≤ l.length) :
    ends l.toArray (rest w) [i] = if l.drop i = w then [l.length] else [] := by
  induction w generalizing i with
  | nil =>
    have hends : ends l.toArray (rest []) [i] = if i = l.length then [i] else [] := by
      simp [rest, ends, Assertion.holds, List.filter_cons]
    rw [hends]
    by_cases h : i = l.length
    · simp [h]
    · rw [if_neg h, if_neg fun hdrop => h (by have := List.drop_eq_nil_iff.1 hdrop; omega)]
  | cons c w ih =>
    have hends : ends l.toArray (rest (c :: w)) [i] =
        ends l.toArray (rest w) (Places.past l.toArray ((CharSet.single c).contains false) [i]) :=
      rfl
    rw [hends, Places.past, List.filter_singleton, List.getElem?_toArray]
    cases hd : l[i]? with
    | none =>
      have hlen := List.getElem?_eq_none_iff.1 hd
      rw [List.drop_eq_nil_of_le hlen, if_neg nofun]
      exact ends_rest_nil w _
    | some d =>
      obtain ⟨hlt, hget⟩ := List.getElem?_eq_some_iff.1 hd
      rw [List.drop_eq_getElem_cons hlt, hget, Option.any_some, contains_single]
      by_cases hc : d = c
      · subst hc
        simpa using ih hlt
      · rw [beq_eq_false_iff_ne.2 hc, if_neg (by simp [hc])]
        exact ends_rest_nil w _

theorem filter_upTo_zero (n : Nat) : (Places.upTo n).filter (· == 0) = [0] := by
  induction n with
  | zero => rfl
  | succ n ih => exact ih

theorem matchesIn_whole : (whole w).matchesIn l = (l == w) := by
  have hends : ends l.toArray (whole w) (.upTo l.toArray.size) =
      ends l.toArray (rest w) ((Places.upTo l.toArray.size).filter (· == 0)) := rfl
  rw [matchesIn, hends, filter_upTo_zero, ends_rest w l (Nat.zero_le _), List.drop_zero]
  by_cases h : l = w
  · simp [h]
  · simp [h]

end Pattern

namespace Standard

theorem compile_of_whole {marker : Text} (h : Pattern.ofText marker = .ok (.whole w)) :
    MarkerLanguage.compile marker = .ok (· == w) := by
  have hmatches : (Pattern.whole w).matchesIn = (· == w) := funext fun _ => Pattern.matchesIn_whole
  simp only [MarkerLanguage.compile, h, hmatches]

end Standard

end LuaDocs
