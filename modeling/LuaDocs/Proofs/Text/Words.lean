import LuaDocs.Proofs.Text.Lines
import LuaDocs.Text.Fill

/-!
# Words of filled text

White space ends a word, so the words of two texts with white space between them are those of the first
and then those of the second. All facts about words follow from this. Filling puts pieces of words on
lines: a piece is a whole word unless the word is longer than a line, and it is a word of its line in any
case.
-/

namespace LuaDocs.Text

variable {s t v w : Text} {c : Char} {width indent size : ℕ}

/-- A text that white space does not interrupt. -/
def Unbroken (w : Text) : Prop :=
  ∀ c ∈ w, isSpace c = false

/-! ### Words -/

@[simp] theorem words_nil : words [] = [] :=
  rfl

theorem words_append_cons (hc : isSpace c = true) (s t : Text) :
    words (s ++ c :: t) = words s ++ words t := by
  rw [words, words, words, splitWhere_eq, splitWhere_eq, splitWhere_eq,
    List.splitOnP_append_cons s t hc, List.filter_append]

theorem words_cons (hc : isSpace c = true) (s : Text) : words (c :: s) = words s := by
  rw [← List.nil_append (c :: s), words_append_cons hc, words_nil, List.nil_append]

theorem words_append_of_spaces (hv : ∀ c ∈ v, isSpace c = true) (s : Text) :
    words (v ++ s) = words s := by
  induction v with
  | nil => rfl
  | cons c v ih =>
    rw [List.forall_mem_cons] at hv
    rw [List.cons_append, words_cons hv.1, ih hv.2]

theorem words_eq_nil (hv : ∀ c ∈ v, isSpace c = true) : words v = [] := by
  rw [← List.append_nil v, words_append_of_spaces hv, words_nil]

/-- White space at the end of a text ends its last word. -/
theorem words_append_spaces (hv : ∀ c ∈ v, isSpace c = true) (s : Text) :
    words (s ++ v) = words s := by
  cases v with
  | nil => rw [List.append_nil]
  | cons c v =>
    rw [List.forall_mem_cons] at hv
    rw [words_append_cons hv.1, words_eq_nil hv.2, List.append_nil]

theorem words_of_unbroken (hne : w ≠ []) (hw : Unbroken w) : words w = [w] := by
  rw [words, splitWhere_eq, List.splitOnP_eq_singleton fun c hc => by simp [hw c hc]]
  simp [hne]

/-- What holds of unbroken texts and of a text and a further unbroken one with white space between them
holds of all texts. -/
theorem induction_on_words {P : Text → Prop} (unbroken : ∀ w, Unbroken w → P w)
    (append : ∀ w c s, Unbroken w → isSpace c = true → P s → P (w ++ c :: s)) (s : Text) : P s := by
  induction hlength : s.length using Nat.strongRecOn generalizing s with
  | _ n ih =>
    have hword : Unbroken (s.takeWhile (!isSpace ·)) := fun c hc => by
      simpa using List.all_eq_true.1 List.all_takeWhile c hc
    cases hrest : s.dropWhile (!isSpace ·) with
    | nil =>
      rw [← List.takeWhile_append_dropWhile (p := (!isSpace ·)) (l := s), hrest, List.append_nil]
      exact unbroken _ hword
    | cons c r =>
      have hsplit : s.takeWhile (!isSpace ·) ++ c :: r = s := by
        rw [← hrest, List.takeWhile_append_dropWhile]
      have hc : isSpace c = true := by
        simpa [hrest] using List.head?_dropWhile_not (!isSpace ·) s
      have hr : r.length < n := by
        rw [← hlength, ← hsplit, List.length_append, List.length_cons]
        omega
      rw [← hsplit]
      exact append _ c r hword hc (ih _ hr r rfl)

theorem unbroken_of_mem_words (h : w ∈ words s) : w ≠ [] ∧ Unbroken w := by
  induction s using induction_on_words with
  | unbroken v hv =>
    by_cases hne : v = []
    · subst hne
      exact absurd h List.not_mem_nil
    · rw [words_of_unbroken hne hv] at h
      obtain rfl := List.mem_singleton.1 h
      exact ⟨hne, hv⟩
  | append v c t hv hc ih =>
    rw [words_append_cons hc] at h
    rcases List.mem_append.1 h with h | h
    · by_cases hne : v = []
      · subst hne
        exact absurd h List.not_mem_nil
      · rw [words_of_unbroken hne hv] at h
        obtain rfl := List.mem_singleton.1 h
        exact ⟨hne, hv⟩
    · exact ih h

theorem exists_append_trimEnd (s : Text) :
    ∃ v, (∀ c ∈ v, isSpace c = true) ∧ s = trimEnd s ++ v := by
  refine ⟨(s.reverse.takeWhile isSpace).reverse, fun c hc => ?_, ?_⟩
  · exact List.all_eq_true.1 List.all_takeWhile c (List.mem_reverse.1 hc)
  · rw [trimEnd, dropEndWhile, ← List.reverse_append, List.takeWhile_append_dropWhile,
      List.reverse_reverse]

@[simp] theorem words_trimEnd (s : Text) : words (trimEnd s) = words s := by
  obtain ⟨v, hv, hs⟩ := exists_append_trimEnd s
  conv_rhs => rw [hs, words_append_spaces hv]

@[simp] theorem length_spaces (n : ℕ) : (spaces n).length = n :=
  List.length_replicate

theorem isSpace_of_mem_spaces (n : ℕ) : ∀ c ∈ spaces n, isSpace c = true := by
  intro c hc
  rw [List.eq_of_mem_replicate hc]
  rfl

/-! ### Paragraphs -/

theorem splitParagraphs_ne_nil (s : Text) : splitParagraphs s ≠ [] := by
  fun_cases splitParagraphs s <;> exact List.cons_ne_nil _ _

theorem join_splitParagraphs (s : Text) : join "\n\n".toList (splitParagraphs s) = s := by
  fun_induction splitParagraphs s with
  | case1 s ih =>
    obtain ⟨part, parts, hparts⟩ := List.exists_cons_of_ne_nil (splitParagraphs_ne_nil s)
    rw [hparts] at ih ⊢
    rw [join_cons_cons, ih]
    rfl
  | case2 c s _ hnil ih => exact absurd hnil (splitParagraphs_ne_nil s)
  | case3 c s _ part parts hparts ih =>
    rw [hparts] at ih
    cases parts with
    | nil => rw [join_singleton] at ih ⊢; rw [ih]
    | cons next parts =>
      rw [join_cons_cons] at ih ⊢
      rw [List.cons_append, ih]
  | case4 => rfl

theorem splitParagraphs_cons {part : Text} {parts : List Text} (hc : c ≠ '\n')
    (h : splitParagraphs s = part :: parts) : splitParagraphs (c :: s) = (c :: part) :: parts := by
  rw [splitParagraphs, h]
  rintro r rfl
  exact absurd rfl hc

theorem splitParagraphs_of_not_mem (h : '\n' ∉ s) : splitParagraphs s = [s] := by
  induction s with
  | nil => rfl
  | cons c s ih =>
    rw [List.mem_cons, not_or] at h
    exact splitParagraphs_cons (Ne.symm h.1) (ih h.2)

theorem splitParagraphs_append (h : '\n' ∉ s) (t : Text) :
    splitParagraphs (s ++ '\n' :: '\n' :: t) = s :: splitParagraphs t := by
  induction s with
  | nil => rw [List.nil_append, splitParagraphs]
  | cons c s ih =>
    rw [List.mem_cons, not_or] at h
    exact splitParagraphs_cons (Ne.symm h.1) (ih h.2)

/-- Paragraphs without line feeds are found again. -/
theorem splitParagraphs_join {ps : List Text} (hne : ps ≠ []) (h : ∀ p ∈ ps, '\n' ∉ p) :
    splitParagraphs (join "\n\n".toList ps) = ps := by
  induction ps with
  | nil => exact absurd rfl hne
  | cons p ps ih =>
    obtain ⟨hp, hps⟩ := List.forall_mem_cons.1 h
    cases ps with
    | nil =>
      rw [join_singleton]
      exact splitParagraphs_of_not_mem hp
    | cons q qs =>
      rw [join_cons_cons]
      exact (splitParagraphs_append hp _).trans (congrArg _ (ih (List.cons_ne_nil q qs) hps))

theorem words_paragraphs (ps : List Text) : words (join "\n\n".toList ps) = ps.flatMap words := by
  induction ps with
  | nil => rfl
  | cons p ps ih =>
    cases ps with
    | nil => rw [join_singleton, List.flatMap_singleton]
    | cons q ps =>
      have hbreak : "\n\n".toList = ['\n', '\n'] := rfl
      rw [join_cons_cons, List.flatMap_cons, ← ih, hbreak, List.cons_append, words_append_cons rfl,
        List.singleton_append, words_cons rfl]

/-- The words of a text are those of its paragraphs. -/
theorem words_splitParagraphs (s : Text) : (splitParagraphs s).flatMap words = words s := by
  rw [← words_paragraphs, join_splitParagraphs]

/-! ### Pieces of words -/

theorem unbroken_of_mem_chunks (hw : Unbroken w) (hne : w ≠ []) (h : v ∈ chunks size w) :
    v ≠ [] ∧ Unbroken v := by
  fun_induction chunks size w with
  | case1 w _ =>
    obtain rfl := List.mem_singleton.1 h
    exact ⟨hne, hw⟩
  | case2 w hlong ih =>
    rw [not_or, Nat.not_le] at hlong
    rcases List.mem_cons.1 h with rfl | h
    · refine ⟨?_, fun c hc => hw c (List.mem_of_mem_take hc)⟩
      rw [Ne, List.take_eq_nil_iff, not_or]
      exact ⟨hlong.1, hne⟩
    · refine ih (fun c hc => hw c (List.mem_of_mem_drop hc)) ?_ h
      rw [Ne, List.drop_eq_nil_iff, Nat.not_le]
      exact hlong.2

theorem chunks_of_length_le (h : w.length ≤ size) : chunks size w = [w] := by
  rw [chunks, if_pos (.inr h)]

theorem words_piece (h : w ∈ pieces width indent s) : words w = [w] := by
  obtain ⟨v, hv, hw⟩ := List.mem_flatMap.1 h
  obtain ⟨hne, hunbroken⟩ := unbroken_of_mem_words hv
  obtain ⟨hne, hunbroken⟩ := unbroken_of_mem_chunks hunbroken hne hw
  exact words_of_unbroken hne hunbroken

theorem words_join {ps : List Text} (hps : ∀ p ∈ ps, words p = [p]) : words (join [' '] ps) = ps := by
  induction ps with
  | nil => rfl
  | cons p ps ih =>
    obtain ⟨hp, hps⟩ := List.forall_mem_cons.1 hps
    cases ps with
    | nil => rw [join_singleton, hp]
    | cons q ps =>
      rw [join_cons_cons, List.singleton_append, words_append_cons rfl, hp, ih hps]
      rfl

end LuaDocs.Text
