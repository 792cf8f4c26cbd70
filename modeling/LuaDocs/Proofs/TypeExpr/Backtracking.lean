import LuaDocs.Proofs.TypeExpr.Grammar
import LuaDocs.Proofs.TypeExpr.Steps

/-!
# Going on and going back

The readers with one position end everywhere and agree with the readers that return what they leave.
Where a type opens what is ahead, they move past it and past at least one character; where none does,
a union, a suffixed type and a primary type leave the position where it was, however far it went in
between. The recursion is well founded for the reason that between two calls of `union` at least one
character is passed, so a bound on what is ahead carries the induction.
-/

namespace LuaDocs.TypeExpr.Cursor

open Text

variable {src s r v w : Text} {i : ℕ} {α : Type} {c : Char} {t u : TypeExpr}

theorem runs_suffixes (t : TypeExpr) (s : Text) :
    Runs src (suffixes src t) s (TypeExpr.suffixes t s).1 (TypeExpr.suffixes t s).2.1 := by
  fun_induction TypeExpr.suffixes t s with
  | case1 t s u r h ih =>
    rw [h] at ih
    rw [suffixes]
    refine (runs_eatText_append (w := "[]".toList)).bind ?_
    rw [if_pos rfl]
    exact ih
  | case2 t s u r h ih =>
    rw [h] at ih
    have harray : ¬ "[]".toList <+: '?' :: s := by simp
    rw [suffixes]
    refine (runs_eatText_false harray).bind ?_
    rw [if_neg Bool.false_ne_true]
    refine runs_eat_self.bind ?_
    rw [if_pos rfl]
    exact ih
  | case3 t s harray hoptional =>
    have hnot : ¬ "[]".toList <+: s := by
      rintro ⟨r, rfl⟩
      exact harray r rfl
    have hmark : '?' ∉ s.head? := by
      intro h
      obtain ⟨r, rfl⟩ := mem_head?_iff.1 h
      exact hoptional r rfl
    rw [suffixes]
    refine (runs_eatText_false hnot).bind ?_
    rw [if_neg Bool.false_ne_true]
    refine (runs_eat_of_not_mem hmark).bind ?_
    rw [if_neg Bool.false_ne_true]
    exact runs_pure

/-- A union is read or left alone in texts shorter than `i`. -/
def UnionBelow (src : Text) (i : ℕ) : Prop :=
  ∀ s, s.length < i → Restores src (Reads (union? s)) (union src) s

theorem enclosed_of_closes {item : Text → α → Text → Prop} {as : List α}
    (h : trimStart s = c :: v) : Enclosed item c s as r ↔ as = [] ∧ r = v := by
  have hclose : Leaves (closing? c s) v := leaves_closing?.2 h
  constructor
  · intro henclosed
    rcases henclosed with ⟨rfl, hr⟩ | ⟨hno, -⟩
    · exact ⟨rfl, hr.unique hclose⟩
    · rw [h] at hno
      exact absurd rfl hno
  · intro h
    obtain ⟨rfl, rfl⟩ := h
    exact .inl ⟨rfl, hclose⟩

theorem enclosed_of_not_mem {item : Text → α → Text → Prop} {as : List α}
    (h : c ∉ (trimStart s).head?) : Enclosed item c s as r ↔ Items item c (trimStart s) as r := by
  constructor
  · intro henclosed
    rcases henclosed with ⟨-, hr⟩ | ⟨-, has⟩
    · exact absurd (closing?_eq_none_iff.2 h ▸ hr) not_leaves_none
    · exact items_congr (trimStart_trimStart s).symm has
  · intro has
    exact .inr ⟨h, items_congr (trimStart_trimStart s) has⟩

section

variable (ih : UnionBelow src i)
include ih

/-- The type after a colon. -/
theorem does_typeAfter {n : α} (hv : v.length < i) :
    Does src (fun p r => p.1 = n ∧ Reads (union? v) p.2 r)
      (union src >>= fun o => match o with
        | none => return none
        | some t => return some (n, t)) v := by
  refine .congr (.bind (ih v hv).does (by rfl) fun t w _ => does_pure) fun p r => ?_
  constructor
  · intro h
    obtain ⟨rfl, ht⟩ := h
    exact ⟨p.2, r, ht, rfl, rfl⟩
  · intro h
    obtain ⟨t, w, ht, rfl, rfl⟩ := h
    exact ⟨rfl, ht⟩

theorem does_param (hs : s.length < i) : Does src (ReadsParam s) (param src) s := by
  rw [param]
  refine .congr (.bind (Q := fun n v p r => p.1 = n ∧
    ((∃ w, Leaves (between? ':' v) w ∧ Reads (union? w) p.2 r) ∨
      (':' ∉ (trimStart v).head? ∧ p.2 = any ∧ v = r))) does_paramName (by rfl) ?_) fun p r => ?_
  · intro n v hname
    have hlt := hname.length_lt
    refine does_eatSpaced (fun w hw => ?_) fun hno => ?_
    · have hlt' := hw.length_lt
      refine (does_typeAfter ih (by omega)).congr fun p r => and_congr_right fun _ => ?_
      constructor
      · intro h
        rcases h with ⟨x, hx, ht⟩ | ⟨hcolon, -⟩
        · rwa [← hx.unique hw]
        · exact absurd (between?_eq_none_iff.2 hcolon ▸ hw) not_leaves_none
      · intro ht
        exact .inl ⟨w, hw, ht⟩
    · refine does_pure.congr fun p r => ?_
      constructor
      · intro h
        obtain ⟨rfl, ⟨w, hw, -⟩ | ⟨-, hany, rfl⟩⟩ := h
        · exact absurd (between?_eq_none_iff.2 hno ▸ hw) not_leaves_none
        · exact ⟨Prod.ext rfl hany, rfl⟩
      · intro h
        obtain ⟨rfl, rfl⟩ := h
        exact ⟨rfl, .inr ⟨hno, rfl, rfl⟩⟩
  · constructor
    · intro h
      obtain ⟨v, hname, htype⟩ := h
      exact ⟨p.1, v, hname, rfl, htype⟩
    · intro h
      obtain ⟨n, v, hname, rfl, htype⟩ := h
      exact ⟨v, hname, htype⟩

theorem does_key (hs : s.length ≤ i) : Does src (ReadsKey s) (key src) s := by
  rw [key]
  refine does_eat (fun v hv => ?_) fun hno => ?_
  · subst hv
    refine .congr (.bind (Q := fun t w k r => w = ']' :: r ∧ k = bracketed t)
      (ih v (Nat.lt_of_succ_le hs)).does (by rfl) ?_) fun k r => ?_
    · intro t w _
      refine does_eat (fun x hx => does_pure.congr fun k r => ?_) fun hno => does_none fun k r h => ?_
      · subst hx
        simp [and_comm, eq_comm]
      · rw [h.1] at hno
        exact hno rfl
    · constructor
      · intro h
        rcases h with ⟨w, t, hw, ht, rfl⟩ | h
        · obtain rfl := List.tail_eq_of_cons_eq hw
          exact ⟨t, ']' :: r, ht, rfl, rfl⟩
        · rw [ident?_cons_of_not_isNameStart (by decide)] at h
          exact absurd h not_reads_none
      · intro h
        obtain ⟨t, w, ht, rfl, rfl⟩ := h
        exact .inl ⟨v, t, rfl, ht, rfl⟩
  · refine does_ident.congr fun k r => or_iff_right ?_
    intro h
    obtain ⟨v, t, rfl, -⟩ := h
    exact hno rfl

theorem does_field (hs : s.length < i) : Does src (ReadsField s) (field src) s := by
  rw [field]
  refine .congr (.bind (Q := fun k v f r => f.1 = k ∧
    ∃ w, Leaves (between? ':' v) w ∧ Reads (union? w) f.2 r) (does_key ih hs.le) (by rfl) ?_)
    fun f r => ?_
  · intro k v hkey
    have hlt := hkey.length_lt
    refine does_eatSpaced (fun w hw => ?_) fun hno => does_none fun f r h => ?_
    · have hlt' := hw.length_lt
      refine (does_typeAfter ih (by omega)).congr fun f r => and_congr_right fun _ => ?_
      constructor
      · intro h
        obtain ⟨x, hx, ht⟩ := h
        rwa [← hx.unique hw]
      · intro ht
        exact ⟨w, hw, ht⟩
    · obtain ⟨-, w, hw, -⟩ := h
      exact not_leaves_none (between?_eq_none_iff.2 hno ▸ hw)
  · constructor
    · intro h
      obtain ⟨v, w, hkey, hcolon, ht⟩ := h
      exact ⟨f.1, v, hkey, rfl, w, hcolon, ht⟩
    · intro h
      obtain ⟨k, v, hkey, rfl, w, hcolon, ht⟩ := h
      exact ⟨v, w, hkey, hcolon, ht⟩

theorem does_args (hs : s.length < i) : Does src (Items ReadsType '>' s) (args src []) s :=
  does_items (fun ts => by rw [args]) (fun s hs => (ih s hs).does) (fun h => Reads.length_lt h) hs

theorem does_params (hs : s.length < i) : Does src (Items ReadsParam ')' s) (params src []) s :=
  does_items (fun ps => by rw [params]) (fun s hs => does_param ih hs) ReadsParam.length_lt hs

theorem does_fields (hs : s.length < i) : Does src (Items ReadsField '}' s) (fields src []) s :=
  does_items (fun fs => by rw [fields]) (fun s hs => does_field ih hs) ReadsField.length_lt hs

/-- A result is read after its colon, and a colon that no type follows is left alone. -/
theorem runs_result (hs : s.length ≤ i) :
    Runs src (result src) s (TypeExpr.result s).1 (TypeExpr.result s).2.1 := by
  rw [result]
  refine runs_get_bind fun start hstart => ?_
  by_cases hcolon : ':' ∈ (trimStart s).head?
  · obtain ⟨v, hv⟩ := exists_leaves_between? hcolon
    have hlt := hv.length_lt
    refine (runs_eatSpaced hv).bind ?_
    rw [if_pos rfl]
    by_cases hunion : ∃ t r, Reads (union? v) t r
    · obtain ⟨t, r, ht⟩ := hunion
      rw [(result_more hv ht).1, (result_more hv ht).2]
      exact ((ih v (by omega)).reads ht).bind runs_pure
    · have hresult : TypeExpr.result s = ([], .whole s) := by
        refine (result_cases s).resolve_right ?_
        intro h
        obtain ⟨w, t, r, hw, ht⟩ := h
        exact hunion ⟨t, r, hw.unique hv ▸ ht⟩
      rw [hresult]
      refine ((ih v (by omega)).stays fun t r ht => hunion ⟨t, r, ht⟩).bind ?_
      exact (runs_set hstart).bind runs_pure
  · rw [result_stop hcolon]
    refine (runs_eatSpaced_of_not_mem hcolon).bind ?_
    rw [if_neg Bool.false_ne_true]
    exact runs_pure

theorem does_table (hs : s.length < i) :
    Does src (fun t r => ∃ fs, TypeExpr.table fs = t ∧ Enclosed ReadsField '}' s fs r)
      (table src) ('{' :: s) := by
  have hle := length_trimStart_le s
  rw [table]
  refine .after runs_eat_self (.after runs_skipSpace (does_eat (fun v hv => ?_) fun hno => ?_))
  · refine does_pure.congr fun t r => ?_
    simp only [enclosed_of_closes hv]
    constructor
    · intro h
      obtain ⟨fs, rfl, rfl, rfl⟩ := h
      exact ⟨rfl, rfl⟩
    · intro h
      obtain ⟨rfl, rfl⟩ := h
      exact ⟨[], rfl, rfl, rfl⟩
  · refine .congr (.bind (does_fields ih (by omega)) (by rfl) fun fs v _ => does_pure) fun t r => ?_
    simp only [enclosed_of_not_mem hno]
    constructor
    · intro h
      obtain ⟨fs, rfl, hfs⟩ := h
      exact ⟨fs, r, hfs, rfl, rfl⟩
    · intro h
      obtain ⟨fs, v, hfs, rfl, rfl⟩ := h
      exact ⟨fs, rfl, hfs⟩

theorem does_function (hs : s.length < i) :
    Does src (fun t r => ∃ ps w, Enclosed ReadsParam ')' s ps w ∧
        t = .function ps (TypeExpr.result w).1 ∧ r = (TypeExpr.result w).2.1)
      (function src) ('(' :: s) := by
  have hle := length_trimStart_le s
  rw [function]
  refine .after runs_eat_self (.after runs_skipSpace (does_eat (fun v hv => ?_) fun hno => ?_))
  · have hlt : v.length < i := by
      rw [hv, List.length_cons] at hle
      omega
    refine (Does.after (runs_result ih hlt.le) does_pure).congr fun t r => ?_
    simp only [enclosed_of_closes hv]
    constructor
    · intro h
      obtain ⟨ps, w, ⟨rfl, rfl⟩, ht⟩ := h
      exact ht
    · intro h
      exact ⟨[], v, ⟨rfl, rfl⟩, h⟩
  · refine .congr (.bind (Q := fun ps w t r => t = .function ps (TypeExpr.result w).1 ∧
      r = (TypeExpr.result w).2.1) (does_params ih (by omega)) (by rfl) fun ps w hps => ?_)
      fun t r => ?_
    · have hlt := (reads_params?.2 hps).length_lt
      exact .after (runs_result ih (by omega)) does_pure
    · simp only [enclosed_of_not_mem hno]

theorem does_named (hs : s.length ≤ i) : Does src (Reads (named? s)) (named src) s := by
  rw [named]
  refine .congr (.bind (Q := fun n v => NamedStep n v) does_ident (by rfl) fun n v hname => ?_)
    fun t r => reads_named?
  have hlt := hname.length_lt
  refine .after runs_ahead ?_
  by_cases hfun : n = "fun".toList ∧ '(' ∈ v.head?
  · obtain ⟨rfl, hparen⟩ := hfun
    obtain ⟨w, rfl⟩ := mem_head?_iff.1 hparen
    rw [if_pos (by simp)]
    have hw : w.length < i := by
      rw [List.length_cons] at hlt
      omega
    refine (does_function ih hw).congr fun t r => ?_
    constructor
    · intro h
      cases h with
      | function _ hps => exact ⟨_, _, hps, rfl, rfl⟩
      | name _ hname => exact absurd rfl (hname rfl)
    · intro h
      obtain ⟨ps, x, hps, rfl, rfl⟩ := h
      exact .function rfl hps
  · rw [if_neg (by simpa using hfun)]
    refine does_eat (fun w hw => ?_) fun hno => ?_
    · subst hw
      have hw : w.length < i := by
        rw [List.length_cons] at hlt
        omega
      refine .congr (.bind (does_args ih hw) (by rfl) fun ts x _ => does_pure) fun t r => ?_
      constructor
      · intro h
        cases h with
        | container hts => exact ⟨_, _, hts, rfl, rfl⟩
        | name hangle _ => exact absurd rfl hangle
      · intro h
        obtain ⟨ts, x, hts, rfl, rfl⟩ := h
        exact .container hts
    · refine does_pure.congr fun t r => ?_
      constructor
      · intro h
        cases h with
        | function hn _ => exact absurd ⟨hn, rfl⟩ hfun
        | container _ => exact absurd rfl hno
        | name _ _ => exact ⟨rfl, rfl⟩
      · intro h
        obtain ⟨rfl, rfl⟩ := h
        exact .name hno fun hparen hn => hfun ⟨hn, hparen⟩

theorem does_group (hs : s.length < i) :
    Does src (fun t r => ∃ v, Reads (union? (trimStart s)) t v ∧ Leaves (closing? ')' v) r)
      (group src) ('(' :: s) := by
  have hle := length_trimStart_le s
  rw [group]
  refine .congr (.after runs_eat_self (.after runs_skipSpace (.bind
    (Q := fun t v u r => Leaves (closing? ')' v) r ∧ u = t) (ih _ (by omega)).does (by rfl)
    fun t v _ => ?_))) fun t r => ?_
  · refine .after runs_skipSpace (does_eat (fun w hw => does_pure.congr fun u r => ?_)
      fun hno => does_none fun u r h => ?_)
    · have hclose : Leaves (closing? ')' v) w := leaves_closing?.2 hw
      constructor
      · intro h
        exact ⟨h.2, h.1.unique hclose⟩
      · intro h
        obtain ⟨rfl, rfl⟩ := h
        exact ⟨hclose, rfl⟩
    · exact not_leaves_none (closing?_eq_none_iff.2 hno ▸ h.1)
  · constructor
    · intro h
      obtain ⟨v, ht, hclose⟩ := h
      exact ⟨t, v, ht, hclose, rfl⟩
    · intro h
      obtain ⟨u, v, hu, hclose, rfl⟩ := h
      exact ⟨v, hu, hclose⟩

/-- The first character decides between the forms. -/
theorem does_form (hs : s.length < i) :
    Does src (Reads (primary? (c :: s))) (form src c) (c :: s) := by
  rw [form]
  by_cases hparen : c = '('
  · subst hparen
    rw [if_pos (beq_self_eq_true _)]
    exact (does_group ih hs).congr fun t r => reads_primary?_paren
  rw [if_neg (by simpa using hparen)]
  by_cases hquote : isQuote c
  · rw [if_pos hquote, primary?_cons hparen (ne_of_test hquote rfl), if_pos hquote]
    exact does_string
  rw [if_neg hquote]
  by_cases hbrace : c = '{'
  · subst hbrace
    rw [if_pos (beq_self_eq_true _)]
    exact (does_table ih hs).congr fun t r => reads_primary?_brace
  rw [if_neg (by simpa using hbrace), primary?_cons hparen hbrace, if_neg hquote]
  by_cases hdigit : (isDigit c || c == '-') = true
  · rw [if_pos hdigit, if_pos hdigit]
    exact does_number
  rw [if_neg hdigit, if_neg hdigit]
  by_cases hstart : isNameStart c
  · rw [if_pos hstart]
    exact does_named ih hs
  · rw [if_neg hstart]
    refine does_none fun t r h => ?_
    obtain ⟨n, v, hname, -⟩ := reads_named?.1 h
    rw [ident?_cons_of_not_isNameStart (by simpa using hstart)] at hname
    exact not_reads_none hname

theorem restores_primary (hs : s.length ≤ i) :
    Restores src (Reads (primary? s)) (primary src) s := by
  rw [primary]
  cases s with
  | nil =>
    constructor
    · intro t r h
      exact absurd h not_reads_primary?_nil
    · intro _
      exact runs_get_bind fun start hstart => runs_ahead.bind runs_pure
  | cons c s =>
    have hform : Does src (Reads (primary? (c :: s))) (form src c) (c :: s) := does_form ih hs
    constructor
    · intro t r h
      exact runs_get_bind fun start hstart => runs_ahead.bind ((hform.reads h).bind runs_pure)
    · intro hnone
      obtain ⟨v, hv⟩ := hform.ends hnone
      refine runs_get_bind fun start hstart => runs_ahead.bind (hv.bind ?_)
      exact (runs_set hstart).bind runs_pure

theorem restores_suffixed (hs : s.length ≤ i) :
    Restores src (Reads (suffixed? s)) (suffixed src) s := by
  rw [suffixed]
  constructor
  · intro t r h
    obtain ⟨u, v, hu, rfl, rfl⟩ := reads_suffixed?.1 h
    exact ((restores_primary ih hs).reads hu).bind ((runs_suffixes u v).bind runs_pure)
  · intro hnone
    refine ((restores_primary ih hs).stays fun u v hu => ?_).bind runs_pure
    exact hnone _ _ (reads_suffixed?.2 ⟨u, v, hu, rfl, rfl⟩)

/-- Alternatives are read as long as they come, and a bar that none follows is left alone. -/
theorem runs_alternatives (hs : s.length ≤ i) (ts : List TypeExpr) :
    Runs src (alternatives src ts) s (ts ++ (TypeExpr.alternatives s).1)
      (TypeExpr.alternatives s).2.1 := by
  obtain ⟨n, hn⟩ : ∃ n, n = s.length := ⟨_, rfl⟩
  induction n using Nat.strong_induction_on generalizing s ts with
  | h n ih' =>
    rw [alternatives]
    refine runs_get_bind fun start hstart => ?_
    by_cases hbar : '|' ∈ (trimStart s).head?
    · obtain ⟨v, hv⟩ := exists_leaves_between? hbar
      have hlt := hv.length_lt
      have hsuffixed : Restores src (Reads (suffixed? v)) (suffixed src) v :=
        restores_suffixed ih (by omega)
      refine (runs_eatSpaced hv).bind ?_
      rw [if_pos rfl]
      by_cases hread : ∃ t r, Reads (suffixed? v) t r
      · obtain ⟨t, r, ht⟩ := hread
        have hlt' := ht.length_lt
        have hmore := ih' r.length (by omega) (by omega) (ts ++ [t]) rfl
        rw [(alternatives_more hv ht).1, (alternatives_more hv ht).2]
        rw [List.append_assoc] at hmore
        exact (hsuffixed.reads ht).bind hmore
      · have halternatives : TypeExpr.alternatives s = ([], .whole s) := by
          refine (alternatives_cases s).resolve_right ?_
          intro h
          obtain ⟨w, t, r, hw, ht⟩ := h
          exact hread ⟨t, r, hw.unique hv ▸ ht⟩
        rw [halternatives, List.append_nil]
        refine (hsuffixed.stays fun t r ht => hread ⟨t, r, ht⟩).bind ?_
        exact (runs_set hstart).bind runs_pure
    · rw [alternatives_stop hbar, List.append_nil]
      refine (runs_eatSpaced_of_not_mem hbar).bind ?_
      rw [if_neg Bool.false_ne_true]
      exact runs_pure

theorem restores_union (hs : s.length ≤ i) : Restores src (Reads (union? s)) (union src) s := by
  rw [union]
  constructor
  · intro t r h
    obtain ⟨u, v, hu, rfl, rfl⟩ := reads_union?.1 h
    have hlt := hu.length_lt
    exact ((restores_suffixed ih hs).reads hu).bind
      ((runs_alternatives ih (by omega) [u]).bind runs_pure)
  · intro hnone
    refine ((restores_suffixed ih hs).stays fun u v hu => ?_).bind runs_pure
    exact hnone _ _ (reads_union?.2 ⟨u, v, hu, rfl, rfl⟩)

end

/-- Every call of `union` within a call of `union` comes after a character, so a bound on what is
ahead will do. -/
theorem unionBelow (src : Text) (i : ℕ) : UnionBelow src i := by
  induction i with
  | zero => exact fun s hs => absurd hs (Nat.not_lt_zero _)
  | succ i ih => exact fun s hs => restores_union ih (Nat.le_of_lt_succ hs)

theorem restores_everywhere (src s : Text) :
    Restores src (Reads (union? s)) (union src) s ∧
      Restores src (Reads (suffixed? s)) (suffixed src) s ∧
      Restores src (Reads (primary? s)) (primary src) s :=
  ⟨restores_union (unionBelow src _) le_rfl, restores_suffixed (unionBelow src _) le_rfl,
    restores_primary (unionBelow src _) le_rfl⟩

/-! ### Positions in a text -/

/-- From the position `p` the step reads what the reader takes from what is ahead and moves on, or
nothing is to be read there and the step ends at `p`. -/
def Advances (src : Text) (read : (s : Text) → Option (TypeExpr × Rest s))
    (step : Step (Option TypeExpr)) (p : ℕ) : Prop :=
  (∃ t q, step.run p = some (some t, q) ∧ p < q ∧ q ≤ src.length ∧
      Reads (read (src.drop p)) t (src.drop q)) ∨
    (step.run p = some (none, p) ∧ read (src.drop p) = none)

theorem Restores.advances {read : (s : Text) → Option (TypeExpr × Rest s)}
    {step : Step (Option TypeExpr)} {p : ℕ} (hp : p ≤ src.length)
    (h : Restores src (Reads (read (src.drop p))) step (src.drop p)) :
    Advances src read step p := by
  have hat : At src p (src.drop p) := ⟨hp, rfl⟩
  cases hread : read (src.drop p) with
  | none =>
    obtain ⟨q, hq, hrun⟩ := h.stays (by rw [hread]; exact fun t r => not_reads_none) p hat
    rw [hq.unique hat] at hrun
    exact .inr ⟨hrun, hread⟩
  | some x =>
    have hx : Reads (read (src.drop p)) x.1 x.2.1 := .of_eq_some hread
    obtain ⟨q, hq, hrun⟩ := h.reads hx p hat
    have hlength := hat.length
    have hlength' := hq.length
    have hlt := hx.length_lt
    rw [← hq.2] at hx
    exact .inl ⟨x.1, q, hrun, by omega, hq.1, hx⟩

/-! ### Types in a text -/

theorem leading_eq_of_blank (h : Blank s) : leading s = some (none, []) := by
  have hnil : trimStart s = [] := List.dropWhile_eq_nil_iff.2 h
  rw [leading, hnil]
  rfl

theorem leading_eq_of_reads (h : Reads (leading? s) t r) : leading s = some (some t, r) := by
  have hne : trimStart s ≠ [] := by
    intro hnil
    rw [leading?_eq_none_iff.2 (List.dropWhile_eq_nil_iff.1 hnil)] at h
    exact not_reads_none h
  have hat : At (trimStart s) 0 (trimStart s) := ⟨Nat.zero_le _, rfl⟩
  obtain ⟨hunion, -, -⟩ := restores_everywhere (trimStart s) (trimStart s)
  rw [leading]
  dsimp only
  rw [if_neg (by simpa using hne)]
  rcases reads_leading?.1 h with ht | ⟨hnone, -, rfl, rfl⟩
  · obtain ⟨q, hq, hrun⟩ := hunion.reads ht 0 hat
    rw [hrun, ← hq.2]
    rfl
  · obtain ⟨q, hq, hrun⟩ := hunion.stays hnone 0 hat
    rw [hrun]
    rfl

/-- What is left of a text after the type that opens it is a proper suffix. -/
theorem exists_append_of_reads (h : Reads (leading? s) t r) : ∃ w, w ≠ [] ∧ trimStart s = w ++ r := by
  rcases reads_leading?.1 h with ht | ⟨-, hne, -, hrest⟩
  · obtain ⟨w, hw, hs⟩ := (union_sound ht).1
    exact ⟨w, hw.solid.ne_nil, hs⟩
  · have hs := List.takeWhile_append_dropWhile (p := (!isSpace ·)) (l := trimStart s)
    rw [hrest] at hs
    refine ⟨_, ?_, hs.symm⟩
    intro hnil
    obtain ⟨c, v, hv⟩ := List.exists_cons_of_ne_nil hne
    have hc : isSpace c = false := not_isSpace_of_mem_head?_trimStart (by rw [hv]; rfl)
    rw [hv, List.takeWhile_cons_of_pos (by simp [hc])] at hnil
    cases hnil

theorem typeList_eq (s : Text) (ts : List TypeExpr) :
    typeList s ts = some ((Tag.typeList s).map fun p => (ts ++ p.1, p.2)) := by
  induction hn : s.length using Nat.strong_induction_on generalizing s ts with
  | h n ih =>
    rw [typeList, Tag.typeList]
    cases h : leading? s with
    | none =>
      rw [leading_eq_of_blank (leading?_eq_none_iff.1 h)]
      rfl
    | some x =>
      have hread : Reads (leading? s) x.1 x.2.1 := .of_eq_some h
      rw [leading_eq_of_reads hread]
      cases hcomma : closing? ',' x.2.1 with
      | none =>
        have hno := closing?_eq_none_iff.1 hcomma
        have hafter : after? [','] (trimStart x.2.1) = none := by
          cases hrest : trimStart x.2.1 with
          | nil => rfl
          | cons d v =>
            refine after?_cons_of_ne fun hd => hno ?_
            rw [hrest, hd]
            rfl
        simp only [hcomma, hafter, Option.bind_eq_bind, Option.bind_some]
        rfl
      | some y =>
        have hrest : trimStart x.2.1 = ',' :: y.1 := leaves_closing?.1 (hcomma ▸ leaves_some.2 rfl)
        have hafter : after? [','] (trimStart x.2.1) = some y.1 := by
          rw [hrest]
          exact after?_append [','] y.1
        have hlt := hread.length_lt
        have hlt' := y.2
        simp only [hcomma, hafter, Option.bind_eq_bind, Option.bind_some]
        rw [ih y.1.length (by omega) y.1 (ts ++ [x.1]) rfl]
        cases Tag.typeList y.1 with
        | error e => rfl
        | ok p => simp [Except.map]

/-- From every position the readers move on past a type or end where they began. So the type that
opens a text is found, and so is a list of types. -/
theorem progress (src : Text) (p : Fin (src.length + 1)) :
    (Advances src union? (union src) p ∧ Advances src suffixed? (suffixed src) p ∧
      Advances src primary? (primary src) p) ∧
    ((Blank src ∧ leading src = some (none, [])) ∨
      (¬ Blank src ∧ ∃ t w r, leading src = some (some t, r) ∧ Reads (leading? src) t r ∧
        w ≠ [] ∧ trimStart src = w ++ r)) ∧
    typeList src [] = some (Tag.typeList src) := by
  have hp : p ≤ src.length := Nat.le_of_lt_succ p.isLt
  obtain ⟨hunion, hsuffixed, hprimary⟩ := restores_everywhere src (src.drop p)
  refine ⟨⟨hunion.advances hp, hsuffixed.advances hp, hprimary.advances hp⟩, ?_, ?_⟩
  · by_cases hblank : Blank src
    · exact .inl ⟨hblank, leading_eq_of_blank hblank⟩
    · obtain ⟨x, hx⟩ := Option.ne_none_iff_exists'.1 (mt leading?_eq_none_iff.1 hblank)
      have hread : Reads (leading? src) x.1 x.2.1 := .of_eq_some hx
      obtain ⟨w, hne, hs⟩ := exists_append_of_reads hread
      exact .inr ⟨hblank, x.1, w, x.2.1, leading_eq_of_reads hread, hread, hne, hs⟩
  · rw [typeList_eq]
    cases Tag.typeList src <;> rfl

end LuaDocs.TypeExpr.Cursor
