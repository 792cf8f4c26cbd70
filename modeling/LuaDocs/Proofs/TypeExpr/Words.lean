import LuaDocs.Proofs.Text.Reading
import LuaDocs.TypeExpr.Parser

/-!
# The words of type expressions

Names, numbers, quoted strings and the names of parameters, each as a predicate on texts, and the
reader of each: it takes a word of its kind and nothing else, and it takes the whole word wherever
what follows cannot continue it.
-/

namespace LuaDocs.TypeExpr

open Text

variable {s n r v w : Text} {t : TypeExpr} {c q : Char}

/-! ### Names -/

/-- A name: a letter or `_`, then letters, digits, `_` and points, of which a point is not the
last. -/
inductive Ident : Text → Prop
  | mk {c : Char} {v : Text} (hstart : isNameStart c) (hinside : ∀ d ∈ v, isDottedChar d)
      (hlast : (c :: v).getLast? ≠ some '.') : Ident (c :: v)

/-- A character that passes a test differs from one that does not. -/
theorem ne_of_test {p : Char → Bool} {d : Char} (hc : p c) (hd : p d = false) : c ≠ d := by
  intro h
  rw [h, hd] at hc
  cases hc

theorem isDottedChar_of_isNameStart (h : isNameStart c) : isDottedChar c := by
  simp [isDottedChar, isNameChar, h]

theorem isDottedChar_of_isDigit (h : isDigit c) : isDottedChar c := by
  simp [isDottedChar, isNameChar, h]

theorem not_isDigit_of_isNameStart (h : isNameStart c) : isDigit c = false := by
  by_contra hd
  simp only [isNameStart, isLatinLetter, isDigit, Bool.not_eq_false, Bool.or_eq_true,
    Bool.and_eq_true, decide_eq_true_eq, beq_iff_eq, Char.le_def, UInt32.le_iff_toNat_le] at h hd
  rcases h with (h | h) | rfl
  · exact absurd (h.1.trans hd.2) (by decide)
  · exact absurd (h.1.trans hd.2) (by decide)
  · exact absurd hd (by decide)

theorem not_isQuote_of_isDottedChar (h : isDottedChar c) : isQuote c = false := by
  by_contra hq
  simp only [isQuote, Bool.not_eq_false, Bool.or_eq_true, beq_iff_eq] at hq
  rcases hq with (rfl | rfl) | rfl <;> exact absurd h (by decide)

theorem not_isDottedChar_of_isSpace (h : isSpace c) : isDottedChar c = false := by
  by_contra hc
  simp only [isDottedChar, isNameChar, isNameStart, isLatinLetter, isDigit, Bool.not_eq_false,
    Bool.or_eq_true, Bool.and_eq_true, decide_eq_true_eq, beq_iff_eq, Char.le_def,
    UInt32.le_iff_toNat_le] at hc
  simp only [isSpace, Bool.or_eq_true, Bool.and_eq_true, decide_eq_true_eq, beq_iff_eq] at h
  have hnat : c.toNat = c.val.toNat := rfl
  have hletters : 'a'.val.toNat = 97 ∧ 'z'.val.toNat = 122 ∧ 'A'.val.toNat = 65 ∧
      'Z'.val.toNat = 90 ∧ '0'.val.toNat = 48 ∧ '9'.val.toNat = 57 := by decide
  rcases hc with (((hc | hc) | rfl) | hc) | rfl
  · omega
  · omega
  · exact absurd h (by decide)
  · omega
  · exact absurd h (by decide)

theorem not_isSpace_of_isDottedChar (h : isDottedChar c) : isSpace c = false := by
  by_contra hc
  rw [not_isDottedChar_of_isSpace (by simpa using hc)] at h
  cases h

theorem Ident.exists_cons (h : Ident n) : ∃ c v, n = c :: v ∧ isNameStart c := by
  cases h with
  | mk hstart hinside hlast => exact ⟨_, _, rfl, hstart⟩

/-- A name is recognised by tests on its characters. -/
theorem ident_of_all (hstart : isNameStart c) (hinside : v.all isDottedChar)
    (hlast : (c :: v).getLast? ≠ some '.') : Ident (c :: v) :=
  ⟨hstart, List.all_eq_true.1 hinside, hlast⟩

theorem Ident.ne_nil (h : Ident n) : n ≠ [] := by
  cases h with
  | mk hstart hinside hlast => exact List.cons_ne_nil _ _

/-- Only characters of names stand in a name. -/
theorem Ident.isDottedChar_of_mem (h : Ident n) (hc : c ∈ n) : isDottedChar c := by
  cases h with
  | mk hstart hinside hlast =>
    rcases List.mem_cons.1 hc with rfl | hc
    · exact isDottedChar_of_isNameStart hstart
    · exact hinside c hc

theorem Ident.solid (h : Ident n) : Solid n :=
  solid_of_forall h.ne_nil fun _ hc => not_isSpace_of_isDottedChar (h.isDottedChar_of_mem hc)

theorem ident?_cons_of_not_isNameStart (h : isNameStart c = false) : ident? (c :: s) = none := by
  simp [ident?, h]

theorem takeWhile_append_of_head? {α : Type} {p : α → Bool} {l m : List α} (hl : ∀ a ∈ l, p a)
    (hm : ∀ a ∈ m.head?, p a = false) : (l ++ m).takeWhile p = l := by
  rw [List.takeWhile_append_of_pos hl]
  cases m with
  | nil => simp
  | cons a m => rw [List.takeWhile_cons_of_neg (by simp [hm a rfl]), List.append_nil]

theorem dropWhile_append_of_head? {α : Type} {p : α → Bool} {l m : List α} (hl : ∀ a ∈ l, p a)
    (hm : ∀ a ∈ m.head?, p a = false) : (l ++ m).dropWhile p = m := by
  rw [List.dropWhile_append_of_pos hl]
  cases m with
  | nil => rfl
  | cons a m => exact List.dropWhile_cons_of_neg (by simp [hm a rfl])

/-- A text is cut in one way only into a run of one kind and what does not go on with the run. -/
theorem append_inj_of_head? {α : Type} {p : α → Bool} {l m l' m' : List α} (hl : ∀ a ∈ l, p a)
    (hl' : ∀ a ∈ l', p a) (hm : ∀ a ∈ m.head?, p a = false) (hm' : ∀ a ∈ m'.head?, p a = false)
    (h : l ++ m = l' ++ m') : l = l' ∧ m = m' := by
  have hrest : m = m' := by
    rw [← dropWhile_append_of_head? hl hm, h, dropWhile_append_of_head? hl' hm']
  subst hrest
  exact ⟨List.append_cancel_right h, rfl⟩

theorem reads_ident?_append (h : Ident n) (hr : ∀ c ∈ r.head?, isDottedChar c = false) :
    Reads (ident? (n ++ r)) n r := by
  cases h with
  | @mk c v hstart hinside hlast =>
    have hend : dropEndWhile (· == '.') v = v := by
      refine List.rdropWhile_eq_self_iff.2 fun hv hdot => hlast ?_
      rw [List.getLast?_cons_of_ne_nil hv, List.getLast?_eq_some_getLast hv, eq_of_beq hdot]
    rw [List.cons_append, ident?, if_pos hstart, takeWhile_append_of_head? hinside hr, hend]
    exact reads_some.2 ⟨rfl, List.drop_left⟩

theorem ident_of_reads (h : Reads (ident? s) n r) : Ident n ∧ s = n ++ r := by
  cases s with
  | nil => exact absurd h not_reads_none
  | cons c s =>
    by_cases hc : isNameStart c
    · rw [ident?, if_pos hc] at h
      obtain ⟨rfl, rfl⟩ := reads_some.1 h
      have hfix : dropEndWhile (· == '.') (s.takeWhile isDottedChar) <+: s.takeWhile isDottedChar :=
        List.rdropWhile_prefix _ _
      refine ⟨⟨hc, fun d hd => List.mem_takeWhile_imp (hfix.subset hd), ?_⟩, ?_⟩
      · by_cases hnil : dropEndWhile (· == '.') (s.takeWhile isDottedChar) = []
        · rw [hnil]
          intro h
          obtain ⟨⟩ := h
          exact absurd hc (by decide)
        · rw [List.getLast?_cons_of_ne_nil hnil, List.getLast?_eq_some_getLast hnil]
          intro hdot
          exact List.rdropWhile_last_not (· == '.') _ hnil (beq_iff_eq.2 (Option.some.inj hdot))
      · obtain ⟨m, hm⟩ := hfix.trans (List.takeWhile_prefix _)
        have hdrop : (dropEndWhile (· == '.') (s.takeWhile isDottedChar) ++ m).drop _ = m :=
          List.drop_left
        rw [hm] at hdrop
        simp only [Rest.ofTail, Tail.drop, List.cons_append, hdrop, hm]
    · rw [ident?, if_neg hc] at h
      exact absurd h not_reads_none

/-! ### Strings -/

/-- A text between two quotes of one kind that does not hold this quote. -/
inductive Quoted : Text → Prop
  | mk {q : Char} {v : Text} (hquote : isQuote q) (hinside : q ∉ v) : Quoted (q :: v ++ [q])

theorem Quoted.solid (h : Quoted w) : Solid w := by
  cases h with
  | @mk q v hquote hinside =>
    have hq : isSpace q = false := by
      simp only [isQuote, Bool.or_eq_true, beq_iff_eq] at hquote
      rcases hquote with (rfl | rfl) | rfl <;> rfl
    exact (solid_singleton hq).append v (solid_singleton hq)

theorem reads_string?_append (hv : q ∉ v) :
    Reads (string? (q :: (v ++ q :: r))) (literal (q :: v ++ [q])) r := by
  have hne : ∀ c ∈ v, (c != q) = true := fun c hc => by
    simpa using fun h : c = q => hv (h ▸ hc)
  have hend : ∀ c ∈ (q :: r).head?, (c != q) = false := fun c hc => by
    simpa using (Option.some.inj hc).symm
  rw [string?]
  split
  · next hnil _ =>
    rw [dropWhile_append_of_head? hne hend] at hnil
    cases hnil
  · next d r' _ hcons _ =>
    rw [dropWhile_append_of_head? hne hend] at hcons
    cases hcons
    rw [takeWhile_append_of_head? hne hend]
    exact reads_some.2 ⟨rfl, rfl⟩

theorem quoted_of_reads (h : Reads (string? (q :: s)) t r) :
    ∃ v, q ∉ v ∧ s = v ++ q :: r ∧ t = literal (q :: v ++ [q]) := by
  rw [string?] at h
  split at h
  · exact absurd h not_reads_none
  · next d r' _ hcons _ =>
    obtain ⟨rfl, rfl⟩ := reads_some.1 h
    refine ⟨s.takeWhile (· != q), fun hq => ?_, ?_, rfl⟩
    · simpa using List.mem_takeWhile_imp hq
    · have hd := List.head?_dropWhile_not (· != q) s
      rw [hcons] at hd
      have hdq : d = q := by simpa using hd
      rw [← hdq, ← hcons, hdq, List.takeWhile_append_dropWhile]

/-! ### Numbers -/

/-- Digits and points, a digit or a minus sign in front. -/
inductive Number : Text → Prop
  | unsigned {c : Char} {v : Text} (hstart : isDigit c) (hinside : ∀ d ∈ v, isNumeral d) :
      Number (c :: v)
  | negative {v : Text} (hne : v ≠ []) (hinside : ∀ d ∈ v, isNumeral d) : Number ('-' :: v)

theorem isNumeral_of_isDigit (h : isDigit c) : isNumeral c := by
  simp [isNumeral, h]

theorem isDottedChar_of_isNumeral (h : isNumeral c) : isDottedChar c := by
  rcases Bool.or_eq_true_iff.1 h with h | h
  · exact isDottedChar_of_isDigit h
  · simp [isDottedChar, h]

theorem Number.solid (h : Number w) : Solid w := by
  have hmem : ∀ v : Text, (∀ c ∈ v, isNumeral c) → ∀ c ∈ v, isSpace c = false :=
    fun v hv c hc => not_isSpace_of_isDottedChar (isDottedChar_of_isNumeral (hv c hc))
  cases h with
  | @unsigned c v hstart hinside =>
    have hc := not_isSpace_of_isDottedChar (isDottedChar_of_isDigit hstart)
    exact solid_of_forall (List.cons_ne_nil _ _)
      (List.forall_mem_cons.2 ⟨hc, hmem v hinside⟩)
  | @negative v hne hinside =>
    exact solid_of_forall (List.cons_ne_nil _ _)
      (List.forall_mem_cons.2 ⟨rfl, hmem v hinside⟩)

theorem reads_numeral? : Reads (numeral? s) w r ↔
    w ≠ [] ∧ s.takeWhile isNumeral = w ∧ s.dropWhile isNumeral = r := by
  rw [numeral?]
  split
  · next h =>
    refine iff_of_false not_reads_none ?_
    intro h
    obtain ⟨hw, hs, -⟩ := h
    exact hw (hs ▸ h)
  · next c digits h =>
    rw [reads_some]
    constructor
    · intro h
      obtain ⟨rfl, rfl⟩ := h
      exact ⟨List.cons_ne_nil _ _, h, rfl⟩
    · intro h
      obtain ⟨-, rfl, rfl⟩ := h
      exact ⟨h.symm, rfl⟩

theorem reads_numeral?_append (hne : v ≠ []) (hv : ∀ d ∈ v, isNumeral d)
    (hr : ∀ c ∈ r.head?, isNumeral c = false) : Reads (numeral? (v ++ r)) v r :=
  reads_numeral?.2 ⟨hne, takeWhile_append_of_head? hv hr, dropWhile_append_of_head? hv hr⟩

theorem reads_number?_append (h : Number w) (hr : ∀ c ∈ r.head?, isNumeral c = false) :
    Reads (number? (w ++ r)) (literal w) r := by
  cases h with
  | @unsigned c v hstart hinside =>
    have hmark : mark? '-' (c :: v ++ r) = none := by
      refine mark?_eq_none_iff.2 fun hc => ?_
      obtain rfl := Option.some.inj hc
      exact absurd hstart (by decide)
    have hall : ∀ d ∈ c :: v, isNumeral d := by
      intro d hd
      rcases List.mem_cons.1 hd with rfl | hd
      · exact isNumeral_of_isDigit hstart
      · exact hinside d hd
    rw [number?, hmark]
    exact (reads_map (g := literal) fun _ => by rfl).2
      ⟨_, reads_numeral?_append (List.cons_ne_nil _ _) hall hr, rfl⟩
  | @negative v hne hinside =>
    rw [number?, List.cons_append, mark?_cons_self]
    exact (reads_map (g := fun ds => literal ('-' :: ds)) fun _ => by rfl).2
      ⟨_, reads_numeral?_append hne hinside hr, rfl⟩

theorem number_of_reads (hc : isDigit c ∨ c = '-') (h : Reads (number? (c :: s)) t r) :
    ∃ w, Number w ∧ c :: s = w ++ r ∧ t = literal w := by
  by_cases hsign : c = '-'
  · subst hsign
    rw [number?, mark?_cons_self] at h
    obtain ⟨ds, hds, rfl⟩ := (reads_map (g := fun ds => literal ('-' :: ds))
      fun _ => by rfl).1 h
    obtain ⟨hne, rfl, rfl⟩ := reads_numeral?.1 hds
    refine ⟨_, .negative hne fun d hd => List.mem_takeWhile_imp hd, ?_, rfl⟩
    rw [List.cons_append]
    exact congrArg _ List.takeWhile_append_dropWhile.symm
  · have hdigit : isDigit c := hc.resolve_right hsign
    have hmark : mark? '-' (c :: s) = none :=
      mark?_eq_none_iff.2 fun h => hsign (Option.some.inj h)
    rw [number?, hmark] at h
    obtain ⟨ds, hds, rfl⟩ := (reads_map (g := literal) fun _ => by rfl).1 h
    obtain ⟨-, rfl, rfl⟩ := reads_numeral?.1 hds
    refine ⟨_, ?_, List.takeWhile_append_dropWhile.symm, rfl⟩
    rw [List.takeWhile_cons_of_pos (isNumeral_of_isDigit hdigit)]
    exact .unsigned hdigit fun d hd => List.mem_takeWhile_imp hd

/-! ### Names of parameters -/

/-- What may stand for the name of a parameter in a function type. -/
inductive ParamName : Text → Prop
  | rest : ParamName ['.', '.', '.']
  | required {n : Text} (h : Ident n) : ParamName n
  | optional {n : Text} (h : Ident n) : ParamName (n ++ ['?'])

theorem ParamName.exists_cons (h : ParamName n) :
    ∃ c v, n = c :: v ∧ (c = '.' ∨ isNameStart c) := by
  cases h with
  | rest => exact ⟨'.', _, rfl, .inl rfl⟩
  | required h =>
    obtain ⟨c, v, rfl, hc⟩ := h.exists_cons
    exact ⟨c, v, rfl, .inr hc⟩
  | optional h =>
    obtain ⟨c, v, rfl, hc⟩ := h.exists_cons
    exact ⟨c, v ++ ['?'], rfl, .inr hc⟩

theorem ParamName.solid (h : ParamName n) : Solid n := by
  cases h with
  | rest => exact (solid_singleton (c := '.') rfl).append ['.'] (solid_singleton rfl)
  | required h => exact h.solid
  | optional h => exact h.solid.concat [] rfl

/-- Where a name stands, a parameter's name is this name with the `?` that may follow. -/
theorem reads_paramName?_of_ident (h : Reads (ident? s) n v) : Reads (paramName? s) w r ↔
    (w = n ++ ['?'] ∧ v = '?' :: r) ∨ (w = n ∧ v = r ∧ '?' ∉ v.head?) := by
  obtain ⟨hlt, hread⟩ := h
  unfold paramName?
  split
  · simp [ident?, isNameStart, isLatinLetter] at hread
  · rw [hread]
    cases hmark : mark? '?' v with
    | none =>
      have hq := mark?_eq_none_iff.1 hmark
      simp only [hmark, reads_some]
      constructor
      · intro h
        obtain ⟨rfl, rfl⟩ := h
        exact .inr ⟨rfl, rfl, hq⟩
      · intro h
        rcases h with ⟨-, rfl⟩ | ⟨rfl, rfl, -⟩
        · exact absurd rfl hq
        · exact ⟨rfl, rfl⟩
    | some x =>
      have hv : v = '?' :: x.1 := leaves_mark?.1 (hmark ▸ leaves_some.2 rfl)
      simp only [hmark, reads_some]
      constructor
      · intro h
        obtain ⟨rfl, rfl⟩ := h
        exact .inl ⟨rfl, hv⟩
      · intro h
        rcases h with ⟨rfl, hv'⟩ | ⟨-, -, hq⟩
        · exact ⟨rfl, (List.cons.inj (hv.symm.trans hv')).2⟩
        · exact absurd (hv ▸ rfl) hq

theorem reads_paramName?_append (h : ParamName n)
    (hr : ∀ c ∈ r.head?, isDottedChar c = false ∧ c ≠ '?') : Reads (paramName? (n ++ r)) n r := by
  cases h with
  | rest => exact reads_some.2 ⟨rfl, rfl⟩
  | required h =>
    have hread := reads_ident?_append h fun c hc => (hr c hc).1
    exact (reads_paramName?_of_ident hread).2 (.inr ⟨rfl, rfl, fun hq => (hr _ hq).2 rfl⟩)
  | @optional n h =>
    have hq : ∀ c ∈ ('?' :: r).head?, isDottedChar c = false := by
      intro c hc
      obtain rfl := Option.some.inj hc
      decide
    have hread := (reads_paramName?_of_ident (reads_ident?_append h hq)).2 (.inl ⟨rfl, rfl⟩)
    rwa [List.append_assoc]

theorem paramName_of_reads (h : Reads (paramName? s) n r) : ParamName n ∧ s = n ++ r := by
  cases hident : ident? s with
  | none =>
    unfold paramName? at h
    split at h
    · obtain ⟨rfl, rfl⟩ := reads_some.1 h
      exact ⟨.rest, rfl⟩
    · rw [hident] at h
      exact absurd h not_reads_none
  | some p =>
    have hread : Reads (ident? s) p.1 p.2.1 := .of_eq_some hident
    obtain ⟨hname, hs⟩ := ident_of_reads hread
    rcases (reads_paramName?_of_ident hread).1 h with ⟨rfl, hv⟩ | ⟨rfl, hv, -⟩
    · exact ⟨.optional hname, by simpa [hv] using hs⟩
    · exact ⟨.required hname, hv ▸ hs⟩

end LuaDocs.TypeExpr
