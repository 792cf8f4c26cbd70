import LuaDocs.Proofs.Text.Greedy
import Mathlib.Data.List.TakeWhile

/-!
# Filled lines

Every line of a filled text is a row of pieces of it, so what is known of rows is known of lines: their words
are pieces of the text, none of them is blank if the text has a word, and they keep to the width.
-/

namespace LuaDocs.Text

variable {s v w line piece : Text} {c : Char} {width indent size i j : ℕ}

/-! ### Widths -/

theorem length_le_of_mem_chunks (hsize : 0 < size) (h : v ∈ chunks size w) : v.length ≤ size := by
  fun_induction chunks size w with
  | case1 w hshort =>
    obtain rfl := List.mem_singleton.1 h
    omega
  | case2 w hlong ih =>
    rcases List.mem_cons.1 h with rfl | h
    · exact List.length_take_le _ _
    · exact ih h

theorem length_le_of_mem_pieces (hindent : indent < width) (h : piece ∈ pieces width indent s) :
    indent + piece.length ≤ width := by
  obtain ⟨w, -, hpiece⟩ := List.mem_flatMap.1 h
  have hlength := length_le_of_mem_chunks (by omega) hpiece
  omega

/-! ### Words on every line -/

theorem Unbroken.eq_nil (hw : Unbroken w) (h : words w = []) : w = [] := by
  by_contra hne
  rw [words_of_unbroken hne hw] at h
  cases h

theorem words_eq_nil_iff : words s = [] ↔ ∀ c ∈ s, isSpace c = true := by
  refine ⟨fun h => ?_, words_eq_nil⟩
  induction s using induction_on_words with
  | unbroken w hw =>
    rw [hw.eq_nil h]
    exact List.forall_mem_nil _
  | append w c s hw hc ih =>
    rw [words_append_cons hc, List.append_eq_nil_iff] at h
    rw [hw.eq_nil h.1, List.nil_append]
    exact List.forall_mem_cons.2 ⟨hc, ih h.2⟩

theorem words_ne_nil (h : c ∈ s) (hc : isSpace c = false) : words s ≠ [] := by
  intro hnil
  rw [words_eq_nil_iff.1 hnil c h] at hc
  cases hc

theorem ne_nil_of_words_ne_nil (h : words s ≠ []) : s ≠ [] := by
  rintro rfl
  exact h words_nil

theorem words_ne_nil_of_trim (h : trim s ≠ []) : words s ≠ [] := by
  intro hnil
  have hstart : trimStart s = [] := List.dropWhile_eq_nil_iff.2 (words_eq_nil_iff.1 hnil)
  rw [trim, hstart] at h
  exact h rfl

theorem pieces_ne_nil (width indent : ℕ) (h : words s ≠ []) : pieces width indent s ≠ [] := by
  obtain ⟨w, ws, hwords⟩ := List.exists_cons_of_ne_nil h
  rw [pieces, hwords, List.flatMap_cons]
  exact List.append_ne_nil_of_left_ne_nil (chunks_ne_nil _ w) _

/-! ### Lines and rows -/

/-- A line of a filled text is a row of its pieces, or it is empty and the text has none. -/
theorem exists_row (h : line ∈ wrap s width (spaces i) (spaces j)) :
    line = [] ∧ words s = [] ∨
      ∃ r : Row, line = r.text ∧ r.pieces ≠ [] ∧ words r.text = r.pieces ∧
        (∀ p ∈ r.pieces, p ∈ pieces width j s) ∧ r.Filled width ∧
        (r.opening = spaces i ∨ r.opening = spaces j) := by
  obtain ⟨rows, hfill, hwrap⟩ := wrap_eq_map width s i j
  rw [hwrap] at h
  split at h
  · next hrows =>
    refine .inl ⟨List.mem_singleton.1 h, ?_⟩
    by_contra hne
    rw [hrows] at hfill
    exact pieces_ne_nil width j hne hfill.pieces.symm
  · obtain ⟨r, hr, rfl⟩ := List.mem_map.1 h
    exact .inr ⟨r, rfl, hfill.nonempty r hr, hfill.words_text (fun _ => words_piece) hr,
      fun _ => hfill.mem_of_mem_pieces hr, hfill.filled r hr, hfill.opening_eq hr⟩

/-- The words of filled lines are pieces of the text. -/
theorem mem_pieces_of_mem_wrap (hline : line ∈ wrap s width (spaces i) (spaces j)) (hw : w ∈ words line) :
    w ∈ pieces width j s := by
  obtain ⟨rfl, -⟩ | ⟨r, rfl, -, hwords, hpieces, -⟩ := exists_row hline
  · cases hw
  · rw [hwords] at hw
    exact hpieces w hw

/-- Every line of a text with words has a word. -/
theorem words_ne_nil_of_mem_wrap (hs : words s ≠ [])
    (h : line ∈ wrap s width (spaces i) (spaces j)) : words line ≠ [] := by
  obtain ⟨-, hnil⟩ | ⟨r, rfl, hne, hwords, -⟩ := exists_row h
  · exact absurd hnil hs
  · rwa [hwords]

/-- Filled lines keep to the width if the further lines are indented at least as far as the first one and
have room for a character. -/
theorem length_le_of_mem_wrap (hij : i ≤ j) (hj : j < width)
    (h : line ∈ wrap s width (spaces i) (spaces j)) : line.length ≤ width := by
  obtain ⟨rfl, -⟩ | ⟨r, rfl, hne, -, hpieces, hfilled, hopening⟩ := exists_row h
  · exact Nat.zero_le width
  · have hindent : r.opening.length ≤ j := by
      obtain hopening | hopening := hopening <;> simp [hopening, hij]
    obtain ⟨front, q, hfront⟩ := (List.eq_nil_or_concat' r.pieces).resolve_left hne
    have hq : j + q.length ≤ width := length_le_of_mem_pieces hj (hpieces q (by simp [hfront]))
    by_cases hfirst : front = []
    · simp only [Row.text, hfront, hfirst, List.nil_append, join_singleton, List.length_append]
      omega
    · -- The last piece was put on the row because there was room for it.
      have hroom := hfilled front q [] hfront hfirst
      simp only [Row.HasRoom, Row.text, List.length_append] at hroom
      simp only [Row.text, hfront, join_append hfirst (List.cons_ne_nil q []), join_singleton,
        List.length_append, List.length_singleton]
      omega

theorem wrap_ne_nil (s : Text) (width i j : ℕ) : wrap s width (spaces i) (spaces j) ≠ [] := by
  obtain ⟨rows, -, hwrap⟩ := wrap_eq_map width s i j
  rw [hwrap]
  split <;> simp_all

end LuaDocs.Text
