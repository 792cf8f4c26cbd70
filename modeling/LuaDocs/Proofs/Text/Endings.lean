import LuaDocs.Proofs.Text.Lines

/-!
# Texts and the endings of their lines

The lines of a text do not say how they end, so a text written anew from its lines has a line feed where
there may have been a carriage return in front of it. `dropReturns` makes this one change to a text, and it
is the only one: `dropReturns_eq` says that every text written from its own lines is itself but for this.
-/

namespace LuaDocs.Text

variable {s t w : Text} {ls ms : List Text} {c : Char} {closed : Bool} {n : ℕ}

def firstLines : ℕ → Text → Text
  | 0, _ => []
  | _ + 1, [] => []
  | n + 1, c :: s => c :: firstLines (if c = '\n' then n else n + 1) s

/-- A text from the beginning of the line after its first lines on. -/
def afterLines : ℕ → Text → Text
  | 0, s => s
  | _ + 1, [] => []
  | n + 1, c :: s => afterLines (if c = '\n' then n else n + 1) s

@[simp] theorem firstLines_zero (s : Text) : firstLines 0 s = [] := by
  cases s <;> rfl

@[simp] theorem afterLines_zero (s : Text) : afterLines 0 s = s := by
  cases s <;> rfl

/-- The text without the carriage return in front of a line feed. -/
def dropReturns : Text → Text
  | '\r' :: '\n' :: s => '\n' :: dropReturns s
  | c :: s => c :: dropReturns s
  | [] => []

/-! ### Line by line -/

/-- What holds of texts without a line feed and of a line in front of a text that it holds of, holds of all
texts. -/
theorem induction_on_lines {P : Text → Prop} (last : ∀ w, '\n' ∉ w → P w)
    (more : ∀ w s, '\n' ∉ w → P s → P (w ++ '\n' :: s)) (s : Text) : P s := by
  have hparts : ∀ w ∈ splitOn '\n' s, '\n' ∉ w := fun _ => not_mem_of_mem_splitOn
  rw [← join_splitOn '\n' s]
  generalize splitOn '\n' s = parts at hparts
  induction parts with
  | nil => exact last _ List.not_mem_nil
  | cons w ws ih =>
    obtain ⟨hw, hws⟩ := List.forall_mem_cons.1 hparts
    cases ws with
    | nil =>
      rw [join_singleton]
      exact last w hw
    | cons v ws =>
      rw [join_cons_cons]
      exact more w _ hw (ih hws)

theorem lines_of_not_mem (hw : '\n' ∉ w) : lines w = if w.isEmpty then [] else [w] := by
  rw [lines, splitOn_of_not_mem hw]
  rfl

theorem lines_append (hw : '\n' ∉ w) (s : Text) :
    lines (w ++ '\n' :: s) = dropReturn w :: lines s := by
  obtain ⟨part, parts, hparts⟩ := List.exists_cons_of_ne_nil (splitOn_ne_nil '\n' s)
  rw [lines, lines, splitOn_append_cons, splitOn_of_not_mem hw, hparts, List.singleton_append,
    closeLines]
  simp

theorem lines_eq_nil_iff : lines s = [] ↔ s = [] := by
  induction s using induction_on_lines with
  | last w hw => cases w <;> simp [lines_of_not_mem hw]
  | more w s hw _ => simp [lines_append hw]

theorem firstLines_append (hw : '\n' ∉ w) (n : ℕ) (s : Text) :
    firstLines (n + 1) (w ++ '\n' :: s) = w ++ '\n' :: firstLines n s := by
  induction w with
  | nil => simp [firstLines]
  | cons c w ih =>
    rw [List.mem_cons, not_or] at hw
    simp [firstLines, Ne.symm hw.1, ih hw.2]

theorem afterLines_append (hw : '\n' ∉ w) (n : ℕ) (s : Text) :
    afterLines (n + 1) (w ++ '\n' :: s) = afterLines n s := by
  induction w with
  | nil => simp [afterLines]
  | cons c w ih =>
    rw [List.mem_cons, not_or] at hw
    simp [afterLines, Ne.symm hw.1, ih hw.2]

theorem dropReturn_concat (w : Text) (c : Char) :
    dropReturn (w ++ [c]) = if c = '\r' then w else w ++ [c] := by
  by_cases hc : c = '\r'
  · simp [dropReturn, before?, List.isPrefixOf?, hc]
  · have hc' : ('\r' == c) = false := by simpa using Ne.symm hc
    simp [dropReturn, before?, List.isPrefixOf?, hc, hc']

theorem dropReturn_cons (c : Char) (hw : w ≠ []) : dropReturn (c :: w) = c :: dropReturn w := by
  obtain ⟨v, d, rfl⟩ := (List.eq_nil_or_concat' w).resolve_left hw
  rw [← List.cons_append, dropReturn_concat, dropReturn_concat]
  split <;> rfl

theorem dropReturns_of_not_mem (hw : '\n' ∉ w) : dropReturns w = w := by
  fun_induction dropReturns w with
  | case1 s _ => simp at hw
  | case2 c s _ ih =>
    rw [List.mem_cons, not_or] at hw
    rw [ih hw.2]
  | case3 => rfl

theorem dropReturns_append (hw : '\n' ∉ w) (s : Text) :
    dropReturns (w ++ '\n' :: s) = dropReturn w ++ '\n' :: dropReturns s := by
  induction w with
  | nil => rfl
  | cons c w ih =>
    rw [List.mem_cons, not_or] at hw
    cases w with
    | nil =>
      rw [← List.nil_append [c], dropReturn_concat]
      by_cases hc : c = '\r'
      · subst hc
        rfl
      · simp [dropReturns, hc]
    | cons d w =>
      -- The second character is no line feed, so the first one stays.
      have hd : d ≠ '\n' := fun hd => hw.2 (hd ▸ List.mem_cons_self)
      rw [dropReturn_cons c (List.cons_ne_nil d w), List.cons_append, List.cons_append, dropReturns,
        ← List.cons_append, ih hw.2]
      · rfl
      · rintro s' - heq
        exact hd (List.cons.inj heq).1

/-! ### Writing a text anew -/

theorem written_cons (hls : ls ≠ []) (w : Text) (closed : Bool) :
    written (w :: ls) closed = w ++ '\n' :: written ls closed := by
  obtain ⟨l, ls, rfl⟩ := List.exists_cons_of_ne_nil hls
  cases closed <;> simp [written, unlines, join_cons_cons]

theorem written_append (hms : ms ≠ []) (ls : List Text) (closed : Bool) :
    written (ls ++ ms) closed = ls.flatMap (· ++ ['\n']) ++ written ms closed := by
  induction ls with
  | nil => rfl
  | cons l ls ih =>
    rw [List.cons_append, written_cons (by simp [hms]), ih]
    simp

theorem endsWith_append_cons (hs : s ≠ []) (w : Text) :
    endsWith ['\n'] (w ++ '\n' :: s) = endsWith ['\n'] s := by
  obtain ⟨v, c, rfl⟩ := (List.eq_nil_or_concat' s).resolve_left hs
  rw [Bool.eq_iff_iff, endsWith_iff, endsWith_iff]
  simp [List.getLast?_cons]

/-- A text written anew from its lines is the text but for the carriage returns at the ends of its
lines. -/
theorem dropReturns_eq (s : Text) : dropReturns s = written (lines s) (endsWith ['\n'] s) := by
  induction s using induction_on_lines with
  | last w hw =>
    have hopen : endsWith ['\n'] w = false := by
      rw [← Bool.not_eq_true, endsWith_iff]
      exact fun hlast => hw (List.mem_of_getLast? hlast)
    rw [dropReturns_of_not_mem hw, lines_of_not_mem hw, hopen]
    cases w <;> simp [written, unlines, join]
  | more w s hw ih =>
    rw [dropReturns_append hw, lines_append hw]
    by_cases hs : s = []
    · subst hs
      have hclosed : endsWith ['\n'] (w ++ ['\n']) = true := by simp [endsWith_iff]
      rw [hclosed]
      simp [dropReturns, lines, splitOn, splitWhere, closeLines, written, unlines, join]
    · rw [endsWith_append_cons hs, written_cons (mt lines_eq_nil_iff.1 hs), ih]

/-- The first lines of a text and what follows them, with the endings of the lines. -/
theorem lines_afterLines (hms : ms ≠ []) (h : lines s = ls ++ ms) :
    dropReturns (firstLines ls.length s) = ls.flatMap (· ++ ['\n']) ∧
      lines (afterLines ls.length s) = ms ∧
      endsWith ['\n'] (afterLines ls.length s) = endsWith ['\n'] s := by
  induction ls generalizing s with
  | nil => simpa [dropReturns] using h
  | cons l ls ih =>
    have hmore : ls ++ ms ≠ [] := by simp [hms]
    induction s using induction_on_lines with
    | last w hw =>
      rw [lines_of_not_mem hw] at h
      split at h <;> simp_all
    | more w s hw _ =>
      rw [lines_append hw, List.cons_append, List.cons.injEq] at h
      obtain ⟨rfl, h⟩ := h
      obtain ⟨hfirst, hafter, hclosed⟩ := ih h
      have hs : s ≠ [] := fun hs => hmore (h ▸ lines_eq_nil_iff.2 hs)
      rw [List.length_cons, firstLines_append hw, afterLines_append hw, dropReturns_append hw, hfirst,
        hclosed, endsWith_append_cons hs]
      exact ⟨by simp, hafter, rfl⟩

/-! ### Texts without carriage returns at the ends of lines -/

theorem dropReturns_eq_self_iff : dropReturns s = s ↔ ¬"\r\n".toList <:+: s := by
  fun_induction dropReturns s with
  | case1 s _ => simp [List.infix_cons_iff, List.cons_prefix_cons]
  | case2 c s hc ih =>
    have hfront : ¬"\r\n".toList <+: c :: s := by
      rintro ⟨t, ht⟩
      obtain ⟨rfl, rfl⟩ := List.cons.inj ht
      exact hc t rfl rfl
    rw [List.cons.injEq, ih, List.infix_cons_iff, or_iff_right hfront]
    simp
  | case3 => simp

theorem length_dropReturns_le (s : Text) : (dropReturns s).length ≤ s.length := by
  fun_induction dropReturns s <;> simp only [List.length_cons, List.length_nil] <;> omega

theorem count_dropReturns (s : Text) : (dropReturns s).count '\n' = s.count '\n' := by
  fun_induction dropReturns s <;> simp_all [List.count_cons]

/-- A text stays at the front of another one without its carriage returns only if it has none. -/
theorem prefix_dropReturns_append_iff (s t : Text) :
    s <+: dropReturns s ++ t ↔ dropReturns s = s := by
  constructor
  · intro h
    have hfront : dropReturns s <+: s :=
      List.prefix_of_prefix_length_le (List.prefix_append _ t) h (length_dropReturns_le s)
    clear h
    fun_induction dropReturns s with
    | case1 s _ => simp [List.cons_prefix_cons] at hfront
    | case2 c s _ ih => rw [ih (List.cons_prefix_cons.1 hfront).2]
    | case3 => rfl
  · intro h
    rw [h]
    exact List.prefix_append s t

/-- A text stays at the end of another one without its carriage returns, on lines of its own, only if it
has none. -/
theorem suffix_append_dropReturns_iff (s t : Text) :
    s <:+ t ++ '\n' :: dropReturns s ↔ dropReturns s = s := by
  constructor
  · intro h
    have hback : dropReturns s <:+ t ++ '\n' :: dropReturns s :=
      (List.suffix_cons '\n' (dropReturns s)).trans (List.suffix_append t _)
    have hend := List.suffix_of_suffix_length_le hback h (length_dropReturns_le s)
    by_contra hne
    -- A longer text would have one more line feed, the one that stands in front.
    have hlonger : (dropReturns s).length < s.length := by
      refine Nat.lt_of_le_of_ne (length_dropReturns_le s) fun hlength => hne ?_
      exact hend.eq_of_length hlength
    have hfeed : '\n' :: dropReturns s <:+ s :=
      List.suffix_of_suffix_length_le (List.suffix_append t _) h hlonger
    have hcount := hfeed.sublist.count_le '\n'
    rw [List.count_cons_self, count_dropReturns] at hcount
    omega
  · intro h
    rw [h]
    exact (List.suffix_cons '\n' s).trans (List.suffix_append t _)

end LuaDocs.Text
