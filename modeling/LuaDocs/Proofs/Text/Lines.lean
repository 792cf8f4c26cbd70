import LuaDocs.Text.Basic
import Mathlib.Data.List.Basic

/-!
# Texts and their lines

A text without carriage returns is determined by its lines and by whether its last line is closed by a
line feed. `written` puts a text together from the two, and `Lined` says of lines which of them come
back: none of them holds the end of a line, and the last of a text that is not closed has characters.
What edits lines of a text is reasoned about in this form.
-/

namespace LuaDocs.Text

variable {s t l v w : Text} {ls ms : List Text} {c d : Char} {closed : Bool}

/-! ### Parts -/

theorem join_singleton (w : Text) : join v [w] = w := by
  simp [join]

theorem join_cons_cons (v w x : Text) (ws : List Text) :
    join v (w :: x :: ws) = w ++ (v ++ join v (x :: ws)) := by
  simp [join, List.intercalate]

theorem join_append (hls : ls ≠ []) (hms : ms ≠ []) :
    join v (ls ++ ms) = join v ls ++ (v ++ join v ms) := by
  obtain ⟨m, ms, rfl⟩ := List.exists_cons_of_ne_nil hms
  induction ls with
  | nil => exact absurd rfl hls
  | cons l ls ih =>
    cases ls with
    | nil => rw [List.singleton_append, join_cons_cons, join_singleton]
    | cons k ks =>
      have htail := ih (List.cons_ne_nil k ks)
      rw [List.cons_append, List.cons_append, join_cons_cons, ← List.cons_append, htail,
        join_cons_cons]
      simp only [List.append_assoc]

theorem splitWhere_eq (p : Char → Bool) (s : Text) : splitWhere p s = List.splitOnP p s := by
  induction s with
  | nil => rw [splitWhere, List.splitOnP_nil]
  | cons d s ih =>
    rw [splitWhere, List.splitOnP_cons_eq_if_modifyHead, ih]
    split
    · rfl
    · obtain ⟨part, parts, hparts⟩ := List.exists_cons_of_ne_nil (List.splitOnP_ne_nil p s)
      rw [hparts]
      rfl

/-- Parts hold what stands between the places where a list is cut. -/
theorem mem_of_mem_splitOnP {α : Type} {p : α → Bool} {as part : List α} {a : α}
    (h : part ∈ as.splitOnP p) (ha : a ∈ part) : a ∈ as ∧ p a = false := by
  induction as generalizing part with
  | nil =>
    obtain rfl := List.mem_singleton.1 h
    exact absurd ha List.not_mem_nil
  | cons b as ih =>
    obtain ⟨first, parts, hparts⟩ := List.exists_cons_of_ne_nil (List.splitOnP_ne_nil p as)
    rw [hparts] at ih
    rw [List.splitOnP_cons_eq_if_modifyHead, hparts] at h
    have hlater : ∀ part ∈ first :: parts, a ∈ part → a ∈ b :: as ∧ p a = false :=
      fun part hpart ha => (ih hpart ha).imp_left (List.mem_cons_of_mem b)
    split at h
    · rcases List.mem_cons.1 h with rfl | h
      · exact absurd ha List.not_mem_nil
      · exact hlater part h ha
    · next hb =>
      rcases List.mem_cons.1 h with rfl | h
      · rcases List.mem_cons.1 ha with rfl | ha
        · exact ⟨List.mem_cons_self, by simpa using hb⟩
        · exact hlater first List.mem_cons_self ha
      · exact hlater part (List.mem_cons_of_mem first h) ha

theorem splitOn_eq (c : Char) (s : Text) : splitOn c s = List.splitOn c s := by
  rw [splitOn, splitWhere_eq, List.splitOn_eq_splitOnP]

theorem splitOn_ne_nil (c : Char) (s : Text) : splitOn c s ≠ [] := by
  rw [splitOn_eq]
  exact List.splitOn_ne_nil c s

theorem join_splitOn (c : Char) (s : Text) : join [c] (splitOn c s) = s := by
  rw [splitOn_eq, join, List.intercalate_splitOn]

/-- Parts without the separator are found again. -/
theorem splitOn_join (hls : ∀ l ∈ ls, c ∉ l) (hne : ls ≠ []) : splitOn c (join [c] ls) = ls := by
  rw [splitOn_eq, join, List.splitOn_intercalate c hls hne]

theorem splitOn_of_not_mem (h : c ∉ l) : splitOn c l = [l] := by
  have hone := splitOn_join (List.forall_mem_singleton.2 h) (List.cons_ne_nil l [])
  rwa [join_singleton] at hone

theorem mem_join (hl : l ∈ ls) (hd : d ∈ l) : d ∈ join v ls := by
  induction ls with
  | nil => exact absurd hl List.not_mem_nil
  | cons k ks ih =>
    cases ks with
    | nil =>
      obtain rfl := List.mem_singleton.1 hl
      rwa [join_singleton]
    | cons m ms =>
      rw [join_cons_cons, List.mem_append, List.mem_append]
      rcases List.mem_cons.1 hl with rfl | hl
      · exact .inl hd
      · exact .inr (.inr (ih hl))

theorem mem_of_mem_join (h : d ∈ join v ls) : d ∈ v ∨ ∃ l ∈ ls, d ∈ l := by
  induction ls with
  | nil => exact absurd h List.not_mem_nil
  | cons k ks ih =>
    cases ks with
    | nil =>
      rw [join_singleton] at h
      exact .inr ⟨k, List.mem_cons_self, h⟩
    | cons m ms =>
      rw [join_cons_cons, List.mem_append, List.mem_append] at h
      rcases h with h | h | h
      · exact .inr ⟨k, List.mem_cons_self, h⟩
      · exact .inl h
      · refine (ih h).imp_right ?_
        rintro ⟨l, hl, hd⟩
        exact ⟨l, List.mem_cons_of_mem k hl, hd⟩

theorem not_mem_join (hv : d ∉ v) (hls : ∀ l ∈ ls, d ∉ l) : d ∉ join v ls := by
  intro h
  rcases mem_of_mem_join h with hmem | ⟨l, hl, hmem⟩
  · exact hv hmem
  · exact hls l hl hmem

theorem mem_of_mem_splitOn (h : l ∈ splitOn c s) (hd : d ∈ l) : d ∈ s := by
  rw [← join_splitOn c s]
  exact mem_join h hd

theorem not_mem_of_mem_splitOn (h : l ∈ splitOn c s) : c ∉ l := by
  induction s generalizing l with
  | nil =>
    obtain rfl := List.mem_singleton.1 h
    exact List.not_mem_nil
  | cons d s ih =>
    rw [splitOn_eq, List.splitOn_cons_eq_if_modifyHead, ← splitOn_eq] at h
    split at h
    · rcases List.mem_cons.1 h with rfl | h
      · exact List.not_mem_nil
      · exact ih h
    · next hd =>
      obtain ⟨part, parts, hparts⟩ := List.exists_cons_of_ne_nil (splitOn_ne_nil c s)
      rw [hparts] at ih h
      rcases List.mem_cons.1 h with rfl | h
      · have hcd : ¬ c = d := fun hcd => hd (beq_iff_eq.2 hcd.symm)
        rw [List.mem_cons, not_or]
        exact ⟨hcd, ih List.mem_cons_self⟩
      · exact ih (List.mem_cons_of_mem part h)

theorem splitOn_append_cons (c : Char) (s t : Text) :
    splitOn c (s ++ c :: t) = splitOn c s ++ splitOn c t := by
  have hjoin : join [c] (splitOn c s ++ splitOn c t) = s ++ c :: t := by
    rw [join_append (splitOn_ne_nil c s) (splitOn_ne_nil c t), join_splitOn, join_splitOn]
    rfl
  rw [← hjoin]
  refine splitOn_join (fun l hl => ?_) (List.append_ne_nil_of_left_ne_nil (splitOn_ne_nil c s) _)
  exact (List.mem_append.1 hl).elim not_mem_of_mem_splitOn not_mem_of_mem_splitOn

/-! ### Lines -/

def IsLine (l : Text) : Prop :=
  '\n' ∉ l ∧ '\r' ∉ l

instance (l : Text) : Decidable (IsLine l) :=
  inferInstanceAs (Decidable (_ ∧ _))

theorem IsLine.append (hs : IsLine s) (ht : IsLine t) : IsLine (s ++ t) :=
  ⟨fun h => (List.mem_append.1 h).elim hs.1 ht.1, fun h => (List.mem_append.1 h).elim hs.2 ht.2⟩

theorem IsLine.of_subset (ht : IsLine t) (h : ∀ c ∈ s, c ∈ t) : IsLine s :=
  ⟨fun hc => ht.1 (h _ hc), fun hc => ht.2 (h _ hc)⟩

def written (ls : List Text) (closed : Bool) : Text :=
  if closed then unlines ls ++ ['\n'] else unlines ls

/-- Lines that are those of the text written from them. -/
structure Lined (ls : List Text) (closed : Bool) : Prop where
  isLine : ∀ l ∈ ls, IsLine l
  last : if closed then ls ≠ [] else ls.getLast? ≠ some []

/-- Further lines can stand in the place of some that others follow. -/
theorem Lined.replace {ks new : List Text} (h : Lined (ls ++ ms ++ ks) closed) (hks : ks ≠ [])
    (hnew : ∀ l ∈ new, IsLine l) : Lined (ls ++ new ++ ks) closed := by
  constructor
  · have hline := h.isLine
    simp only [List.forall_mem_append] at hline ⊢
    exact ⟨⟨hline.1.1, hnew⟩, hline.2⟩
  · cases closed with
    | true => simp [hks]
    | false =>
      have hlast := h.last
      simpa [List.getLast?_append_of_ne_nil _ hks] using hlast

theorem dropReturn_of_not_mem (h : '\r' ∉ l) : dropReturn l = l := by
  rw [dropReturn, before?]
  cases hrev : l.reverse with
  | nil => rfl
  | cons d r =>
    have hd : '\r' ≠ d := by
      rintro rfl
      exact h (List.mem_reverse.1 (hrev ▸ List.mem_cons_self))
    simp [List.isPrefixOf?, hd]

/-- Each part but the last is a line, and the last is one if it has characters. -/
theorem closeLines_concat (hls : ∀ l ∈ ls, '\r' ∉ l) (l : Text) :
    closeLines (ls ++ [l]) = ls ++ if l.isEmpty then [] else [l] := by
  induction ls with
  | nil => rfl
  | cons k ks ih =>
    obtain ⟨hk, hks⟩ := List.forall_mem_cons.1 hls
    obtain ⟨m, ms, hm⟩ : ∃ m ms, ks ++ [l] = m :: ms := List.exists_cons_of_ne_nil (by simp)
    rw [List.cons_append, hm, closeLines, ← hm, ih hks, dropReturn_of_not_mem hk, List.cons_append]
    exact fun h => nomatch h

theorem unlines_concat_nil (hls : ls ≠ []) : unlines (ls ++ [[]]) = unlines ls ++ ['\n'] := by
  rw [unlines, join_append hls (List.cons_ne_nil _ _), join_singleton, List.append_nil]
  rfl

theorem endsWith_iff : endsWith [c] s = true ↔ s.getLast? = some c := by
  rw [endsWith, List.isSuffixOf_iff_suffix, List.getLast?_eq_some_iff]
  exact ⟨fun ⟨r, hr⟩ => ⟨r, hr.symm⟩, fun ⟨r, hr⟩ => ⟨r, hr.symm⟩⟩

theorem getLast?_join (hls : ls ≠ []) (hl : l ≠ []) : (join v (ls ++ [l])).getLast? = l.getLast? := by
  rw [join_append hls (List.cons_ne_nil _ _), join_singleton, ← List.append_assoc,
    List.getLast?_append_of_ne_nil _ hl]

theorem getLast?_unlines (hl : l ≠ []) : (unlines (ls ++ [l])).getLast? = l.getLast? := by
  cases ls with
  | nil => rw [unlines, List.nil_append, join_singleton]
  | cons k ks => exact getLast?_join (List.cons_ne_nil k ks) hl

theorem lines_written (h : Lined ls closed) : lines (written ls closed) = ls := by
  have hfeed : ∀ l ∈ ls, '\n' ∉ l := fun l hl => (h.isLine l hl).1
  have hreturn : ∀ l ∈ ls, '\r' ∉ l := fun l hl => (h.isLine l hl).2
  cases closed with
  | true =>
    have hne : ls ≠ [] := h.last
    have hparts : splitOn '\n' (unlines (ls ++ [[]])) = ls ++ [[]] := by
      refine splitOn_join (List.forall_mem_append.2 ⟨hfeed, ?_⟩) (by simp)
      exact List.forall_mem_singleton.2 List.not_mem_nil
    rw [written, if_pos rfl, ← unlines_concat_nil hne, lines, hparts, closeLines_concat hreturn]
    exact List.append_nil ls
  | false =>
    rw [written, if_neg Bool.false_ne_true]
    rcases List.eq_nil_or_concat ls with rfl | ⟨ks, k, rfl⟩
    · rfl
    · rw [List.concat_eq_append] at hfeed hreturn h ⊢
      have hk : k ≠ [] := by
        have hlast : (ks ++ [k]).getLast? ≠ some [] := h.last
        rw [List.getLast?_concat] at hlast
        exact fun hk => hlast (congrArg some hk)
      rw [lines, unlines, splitOn_join hfeed (by simp),
        closeLines_concat (List.forall_mem_append.1 hreturn).1]
      simp [hk]

theorem endsWith_written (h : Lined ls closed) : endsWith ['\n'] (written ls closed) = closed := by
  cases closed with
  | true =>
    rw [endsWith_iff, written, if_pos rfl, List.getLast?_concat]
  | false =>
    rw [← Bool.not_eq_true, endsWith_iff, written, if_neg Bool.false_ne_true]
    rcases List.eq_nil_or_concat ls with rfl | ⟨ks, k, rfl⟩
    · exact nofun
    · rw [List.concat_eq_append] at h ⊢
      have hk : k ≠ [] := by
        have hlast : (ks ++ [k]).getLast? ≠ some [] := h.last
        rw [List.getLast?_concat] at hlast
        exact fun hk => hlast (congrArg some hk)
      have hfeed : '\n' ∉ k := (h.isLine k (by simp)).1
      rw [getLast?_unlines hk]
      exact fun hlast => hfeed (List.mem_of_getLast? hlast)

/-- A text without carriage returns is put together from its lines. -/
theorem written_lines (h : '\r' ∉ s) :
    Lined (lines s) (endsWith ['\n'] s) ∧ written (lines s) (endsWith ['\n'] s) = s := by
  obtain ⟨ks, k, hparts⟩ : ∃ ks k, splitOn '\n' s = ks ++ [k] := by
    rcases List.eq_nil_or_concat (splitOn '\n' s) with hnil | ⟨ks, k, hk⟩
    · exact absurd hnil (splitOn_ne_nil _ _)
    · exact ⟨ks, k, by rw [hk, List.concat_eq_append]⟩
  have hs : unlines (ks ++ [k]) = s := by rw [← hparts]; exact join_splitOn _ _
  have hline : ∀ l ∈ ks ++ [k], IsLine l := fun l hl =>
    ⟨not_mem_of_mem_splitOn (hparts ▸ hl), fun hr => h (mem_of_mem_splitOn (hparts ▸ hl) hr)⟩
  have hlines : lines s = ks ++ if k.isEmpty then [] else [k] := by
    rw [lines, hparts]
    exact closeLines_concat (fun l hl => (hline l (by simp [hl])).2) k
  by_cases hk : k = []
  · subst hk
    have hlines : lines s = ks := by simpa using hlines
    cases ks with
    | nil =>
      rw [← hs]
      exact ⟨⟨nofun, nofun⟩, rfl⟩
    | cons m ms =>
      have hclosed : endsWith ['\n'] s = true := by
        rw [endsWith_iff, ← hs, unlines_concat_nil (List.cons_ne_nil m ms), List.getLast?_concat]
      rw [hlines, hclosed]
      refine ⟨⟨fun l hl => hline l (List.mem_append_left _ hl), List.cons_ne_nil m ms⟩, ?_⟩
      rw [written, if_pos rfl, ← unlines_concat_nil (List.cons_ne_nil m ms), hs]
  · have hlines : lines s = ks ++ [k] := by simpa [hk] using hlines
    have hopen : endsWith ['\n'] s = false := by
      rw [← Bool.not_eq_true, endsWith_iff, ← hs, getLast?_unlines hk]
      exact fun hlast => (hline k (by simp)).1 (List.mem_of_getLast? hlast)
    rw [hlines, hopen]
    refine ⟨⟨hline, ?_⟩, ?_⟩
    · rw [if_neg Bool.false_ne_true, List.getLast?_concat]
      exact fun hlast => hk (Option.some.inj hlast)
    · rw [written, if_neg Bool.false_ne_true, hs]

/-! ### Empty lines at the end -/

theorem exists_append_dropTrailingEmpty (ls : List Text) :
    ∃ empties, (∀ l ∈ empties, l = []) ∧ ls = dropTrailingEmpty ls ++ empties := by
  refine ⟨(ls.reverse.takeWhile (·.isEmpty)).reverse, fun l hl => ?_, ?_⟩
  · exact List.isEmpty_iff.1 (List.all_eq_true.1 List.all_takeWhile l (List.mem_reverse.1 hl))
  · rw [dropTrailingEmpty, ← List.reverse_append, List.takeWhile_append_dropWhile,
      List.reverse_reverse]

theorem dropTrailingEmpty_concat_nil (h : ls.getLast? ≠ some []) :
    dropTrailingEmpty (ls ++ [[]]) = ls := by
  rw [dropTrailingEmpty, List.reverse_append, List.reverse_singleton, List.singleton_append,
    List.dropWhile_cons_of_pos rfl]
  rcases List.eq_nil_or_concat ls with rfl | ⟨ks, k, rfl⟩
  · rfl
  · rw [List.concat_eq_append] at h ⊢
    rw [List.getLast?_concat] at h
    rw [List.reverse_append, List.reverse_singleton, List.singleton_append,
      List.dropWhile_cons_of_neg, List.reverse_cons, List.reverse_reverse]
    rw [List.isEmpty_iff]
    exact fun hk => h (congrArg some hk)

def Inked (ls : List Text) : Prop :=
  ls.getLast? ≠ some []

theorem inked_nil : Inked [] := by
  simp [Inked]

theorem inked_of_forall (h : ∀ l ∈ ls, l ≠ []) : Inked ls :=
  fun hlast => h [] (List.mem_of_getLast? hlast) rfl

theorem inked_concat (ls : List Text) (h : l ≠ []) : Inked (ls ++ [l]) := by
  rw [Inked, List.getLast?_concat]
  exact fun hlast => h (Option.some.inj hlast)

theorem Inked.append_left (ls : List Text) (h : Inked ms) (hne : ms ≠ []) : Inked (ls ++ ms) := by
  rwa [Inked, List.getLast?_append_of_ne_nil ls hne]

theorem Inked.append (hls : Inked ls) (hms : Inked ms) : Inked (ls ++ ms) := by
  by_cases hne : ms = []
  · rwa [hne, List.append_nil]
  · exact hms.append_left ls hne

theorem inked_flatMap {α : Type} {f : α → List Text} {xs : List α} (h : ∀ x ∈ xs, Inked (f x)) :
    Inked (xs.flatMap f) := by
  induction xs with
  | nil => exact inked_nil
  | cons x xs ih =>
    obtain ⟨hx, hxs⟩ := List.forall_mem_cons.1 h
    rw [List.flatMap_cons]
    exact hx.append (ih hxs)

/-- Lines that end in one empty line, after one that is not, so that more lines can follow. -/
def Separated (ls : List Text) : Prop :=
  ∃ body line, line ≠ [] ∧ ls = body ++ [line, []]

theorem Inked.separated (h : Inked ls) (hne : ls ≠ []) : Separated (ls ++ [[]]) := by
  rcases List.eq_nil_or_concat ls with rfl | ⟨body, line, rfl⟩
  · exact absurd rfl hne
  · rw [Inked, List.concat_eq_append, List.getLast?_concat] at h
    refine ⟨body, line, fun hline => h (congrArg some hline), ?_⟩
    simp

theorem Separated.append (ls : List Text) (h : Separated ms) : Separated (ls ++ ms) := by
  obtain ⟨body, line, hline, rfl⟩ := h
  exact ⟨ls ++ body, line, hline, (List.append_assoc _ _ _).symm⟩

/-- A part that may be missing does not change how the lines end. -/
theorem Separated.append_part (h : Separated ls) (hms : ms = [] ∨ Separated ms) :
    Separated (ls ++ ms) := by
  rcases hms with rfl | hms
  · rwa [List.append_nil]
  · exact hms.append ls

theorem separated_flatMap {α : Type} {f : α → List Text} {xs : List α} (hne : xs ≠ [])
    (h : ∀ x ∈ xs, Separated (f x)) : Separated (xs.flatMap f) := by
  rcases List.eq_nil_or_concat xs with rfl | ⟨ys, x, rfl⟩
  · exact absurd rfl hne
  · rw [List.concat_eq_append] at h ⊢
    rw [List.flatMap_append, List.flatMap_singleton]
    exact (h x (List.mem_append_right _ List.mem_cons_self)).append _

theorem Separated.dropTrailingEmpty_append (h : Separated ls) : dropTrailingEmpty ls ++ [[]] = ls := by
  obtain ⟨body, line, hline, rfl⟩ := h
  have hsplit : body ++ [line, []] = body ++ [line] ++ [[]] := by simp
  rw [hsplit, dropTrailingEmpty_concat_nil (inked_concat body hline)]

end LuaDocs.Text
