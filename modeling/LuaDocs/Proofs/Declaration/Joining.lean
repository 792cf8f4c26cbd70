import LuaDocs.Declaration.Prose
import LuaDocs.Proofs.Text.Lines
import LuaDocs.Proofs.Text.Reading

/-!
# Prose behind a tag

The prose behind a tag reaches its description or its note line by line. Put together at once it is the text
on the tag and the lines behind it: trimmed and with single spaces in a description, where blank lines do not
count, and line by line in a note, where only blank lines in front do not count. Adding one line at a time
comes to the same, since the text so far is only asked whether it is empty.
-/

namespace LuaDocs

open Text

namespace Prose

def parts (prose : List Text) : List Text :=
  (prose.map trim).filter (!·.isEmpty)

/-- The description of a tag: the text on the tag and the prose behind it, with single spaces. -/
def joined (own : Option Text) (prose : List Text) : Option Text :=
  match own.toList ++ parts prose with
  | [] => none
  | texts => some (join [' '] texts)

/-- A note: the text on the tag and the prose behind it, line by line from the first line with text on. -/
def noteText (own : Option Text) (prose : List Text) : Text :=
  join ['\n'] ((own.getD [] :: prose.map trimEnd).dropWhile (·.isEmpty))

theorem parts_cons (p : Text) (prose : List Text) :
    parts (p :: prose) = if (trim p).isEmpty then parts prose else trim p :: parts prose := by
  by_cases h : (trim p).isEmpty <;> simp [parts, h]

theorem foldl_append_some {own : Text} (h : own ≠ []) (prose : List Text) :
    prose.foldl append (some own) = some (join [' '] (own :: parts prose)) := by
  induction prose generalizing own with
  | nil => rw [List.foldl_nil, parts, List.map_nil, List.filter_nil, join_singleton]
  | cons p prose ih =>
    obtain ⟨c, s, rfl⟩ := List.exists_cons_of_ne_nil h
    rw [List.foldl_cons, parts_cons]
    by_cases hp : (trim p).isEmpty
    · rw [if_pos hp]
      have hskip : append (some (c :: s)) p = some (c :: s) := by simp [append, hp]
      rw [hskip, ih h]
    · rw [if_neg hp]
      have hadd : append (some (c :: s)) p = some (c :: s ++ ' ' :: trim p) := by simp [append, hp]
      rw [hadd, ih (List.append_ne_nil_of_left_ne_nil h _), join_cons_cons]
      cases parts prose with
      | nil => simp [join_singleton]
      | cons q qs => simp [join_cons_cons]

theorem foldl_append_empty {own : Option Text} (h : own.getD [] = []) (prose : List Text) :
    prose.foldl append own = (joined none prose).or own := by
  induction prose generalizing own with
  | nil => rfl
  | cons p prose ih =>
    rw [List.foldl_cons, joined, parts_cons]
    by_cases hp : (trim p).isEmpty
    · have hskip : append own p = own := by simp [append, hp]
      rw [if_pos hp, hskip, ih h, joined]
    · have hset : append own p = some (trim p) := by
        rcases own with - | (- | ⟨c, s⟩)
        · simp [append, hp]
        · simp [append, hp]
        · cases h
      have hne : trim p ≠ [] := by simpa using hp
      rw [if_neg hp, hset, foldl_append_some hne]
      rfl

/-- Lines of prose put one after the other behind a text that is there or not. -/
theorem foldl_append {own : Option Text} (h : own ≠ some []) (prose : List Text) :
    prose.foldl append own = joined own prose := by
  cases own with
  | none => rw [foldl_append_empty rfl, Option.or_none]
  | some s => rw [foldl_append_some (fun hs => h (congrArg some hs))]; rfl

theorem foldl_append_getD {own : Option Text} (h : own ≠ some []) (prose : List Text) :
    prose.foldl append (some (own.getD [])) = some ((joined own prose).getD []) := by
  cases own with
  | none =>
    rw [Option.getD_none, foldl_append_empty rfl]
    cases joined none prose <;> rfl
  | some s => rw [Option.getD_some, foldl_append_some (fun hs => h (congrArg some hs))]; rfl

theorem trimEnd_eq_nil_iff (s : Text) : trimEnd s = [] ↔ trim s = [] := by
  have hend : trimEnd s = [] ↔ ∀ c ∈ s, isSpace c = true := List.rdropWhile_eq_nil_iff
  have hboth : trim s = [] ↔ ∀ c ∈ trimStart s, isSpace c = true := List.rdropWhile_eq_nil_iff
  rw [hend, hboth]
  constructor
  · intro h c hc
    exact h c ((List.dropWhile_sublist _).mem hc)
  · intro h
    obtain ⟨w, hw, hs⟩ := exists_blank_append_trimStart s
    rw [hs]
    exact List.forall_mem_append.2 ⟨hw, h⟩

theorem foldl_appendLine_some {own : Text} (h : own ≠ []) (prose : List Text) :
    prose.foldl appendLine (some own) = some (join ['\n'] (own :: prose.map trimEnd)) := by
  induction prose generalizing own with
  | nil => rw [List.foldl_nil, List.map_nil, join_singleton]
  | cons p prose ih =>
    obtain ⟨c, s, rfl⟩ := List.exists_cons_of_ne_nil h
    have hadd : appendLine (some (c :: s)) p = some (c :: s ++ '\n' :: trimEnd p) := rfl
    rw [List.foldl_cons, hadd, ih (List.append_ne_nil_of_left_ne_nil h _), List.map_cons, join_cons_cons]
    cases prose with
    | nil => simp [join_singleton]
    | cons q qs => simp [join_cons_cons]

theorem foldl_appendLine (own : Option Text) (prose : List Text) :
    prose.foldl appendLine (some (own.getD [])) = some (noteText own prose) := by
  by_cases hown : own.getD [] = []
  · rw [noteText, hown, List.dropWhile_cons_of_pos rfl]
    induction prose with
    | nil => rfl
    | cons p prose ih =>
      rw [List.foldl_cons, List.map_cons]
      by_cases hp : trimEnd p = []
      · have hskip : appendLine (some []) p = some [] := by
          simp [appendLine, (trimEnd_eq_nil_iff p).1 hp]
        rw [hskip, List.dropWhile_cons_of_pos (by simp [hp]), ih]
      · have hset : appendLine (some []) p = some (trimEnd p) := by
          simp [appendLine, mt (trimEnd_eq_nil_iff p).2 hp]
        rw [hset, List.dropWhile_cons_of_neg (by simp [hp]), foldl_appendLine_some hp]
  · rw [noteText, List.dropWhile_cons_of_neg (by simpa using hown), foldl_appendLine_some hown]

end Prose

end LuaDocs
