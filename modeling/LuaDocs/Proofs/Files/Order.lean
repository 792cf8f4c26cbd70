import LuaDocs.Files.Path
import Mathlib.Data.Char
import Mathlib.Data.List.Lex
import Mathlib.Data.Prod.Lex
import Mathlib.Order.Lex

/-!
# The order of paths

Paths are compared by the keys of their components: a rank and, for names, the name. Keys are linearly
ordered, so the order of paths is total and transitive, and two paths that come before each other have
the same components.
-/

namespace LuaDocs

theorem Text.notAfter_iff (s t : Text) : Text.notAfter s t = true ↔ s ≤ t := by
  rw [← not_lt]
  induction s generalizing t with
  | nil => simp [Text.notAfter]
  | cons c s ih =>
    cases t with
    | nil => simp [Text.notAfter]
    | cons d t =>
      have hlt : c.toNat < d.toNat ↔ c < d := Iff.rfl
      rw [Text.notAfter, Bool.or_eq_true, Bool.and_eq_true, decide_eq_true_iff, beq_iff_eq, ih,
        List.cons_lt_cons_iff, hlt]
      rcases lt_trichotomy c d with h | h | h <;> grind

/-- What is sorted by a text comes in the order of these texts. -/
theorem Text.pairwise_mergeSort {α : Type} (key : α → Text) (l : List α) :
    (l.mergeSort fun a b => Text.notAfter (key a) (key b)).Pairwise fun a b => key a ≤ key b := by
  have hsorted : (l.mergeSort fun a b => Text.notAfter (key a) (key b)).Pairwise fun a b =>
      Text.notAfter (key a) (key b) = true := by
    refine List.pairwise_mergeSort (fun a b c hab hbc => ?_) (fun a b => ?_) l
    · rw [Text.notAfter_iff] at *
      exact hab.trans hbc
    · rw [Bool.or_eq_true, Text.notAfter_iff, Text.notAfter_iff]
      exact le_total _ _
  exact hsorted.imp fun hab => (Text.notAfter_iff _ _).1 hab

namespace Path

namespace Component

def key (c : Component) : ℕ ×ₗ List Char :=
  match c with
  | name text => toLex (c.rank, text)
  | _ => toLex (c.rank, [])

theorem key_injective : Function.Injective key := by
  intro a b h
  cases a <;> cases b <;> simp_all [key, rank]

theorem before_iff (a b : Component) : a.before b = true ↔ a.key < b.key := by
  cases a <;> cases b <;>
    simp [before, key, rank, Prod.Lex.toLex_lt_toLex, Bool.eq_false_iff, Text.notAfter_iff]

end Component

theorem componentsBefore_iff (as bs : List Component) :
    componentsBefore as bs = true ↔ as.map Component.key < bs.map Component.key := by
  induction as generalizing bs with
  | nil => cases bs <;> simp [componentsBefore]
  | cons a as ih =>
    cases bs with
    | nil => simp [componentsBefore]
    | cons b bs =>
      rw [componentsBefore, Bool.or_eq_true, Bool.and_eq_true, beq_iff_eq, ih,
        Component.before_iff, List.map_cons, List.map_cons, List.cons_lt_cons_iff,
        Component.key_injective.eq_iff]

def keys (p : Path) : List (ℕ ×ₗ List Char) :=
  (components p).map Component.key

theorem notAfter_iff (p q : Path) : notAfter p q = true ↔ keys p ≤ keys q := by
  rw [notAfter, Bool.not_eq_true', Bool.eq_false_iff, Ne, componentsBefore_iff, not_lt]
  rfl

theorem same_iff (p q : Path) : same p q = true ↔ keys p = keys q := by
  rw [same, beq_iff_eq, keys, keys, (List.map_injective_iff.2 Component.key_injective).eq_iff]

@[simp] theorem same_self (p : Path) : same p p = true :=
  (same_iff p p).2 rfl

theorem same_comm {p q : Path} : same p q = same q p := by
  rw [Bool.eq_iff_iff, same_iff, same_iff, eq_comm]

theorem same_trans {p q r : Path} (hpq : same p q = true) (hqr : same q r = true) :
    same p r = true :=
  (same_iff p r).2 (((same_iff p q).1 hpq).trans ((same_iff q r).1 hqr))

theorem same_congr {p q : Path} (h : same p q = true) (r : Path) : same p r = same q r := by
  rw [Bool.eq_iff_iff, same_iff, same_iff, (same_iff p q).1 h]

/-- Sorted paths come in the order of paths. -/
theorem pairwise_mergeSort (ps : List Path) :
    (ps.mergeSort notAfter).Pairwise fun p q => notAfter p q = true := by
  refine List.pairwise_mergeSort (fun p q r hpq hqr => ?_) (fun p q => ?_) ps
  · rw [notAfter_iff] at *
    exact hpq.trans hqr
  · rw [Bool.or_eq_true, notAfter_iff, notAfter_iff]
    exact le_total _ _

end Path

end LuaDocs
