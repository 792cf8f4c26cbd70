import LuaDocs.Proofs.Text.Lines
import LuaDocs.Proofs.TypeExpr.Grammar

/-!
# Reading a printed type

A canonical type is read back from its written form, and what follows it is left as it was. Two
statements are carried through the type together. `ReadsBack` is about the type as a whole: nothing
that follows may continue it. `ReadsAsOperand` is about a type that is no union in the place where
suffixes and alternatives may follow; only a function with a result cannot have them, since they
would go to the result.
-/

namespace LuaDocs.TypeExpr

open Text

variable {s r v w b n : Text} {t u : TypeExpr} {ts : List TypeExpr}

theorem printAll_eq_map (ts : List TypeExpr) : printAll ts = ts.map print := by
  induction ts with
  | nil => rfl
  | cons t ts ih => rw [printAll, ih, List.map_cons]

def printField (f : Text × TypeExpr) : Text :=
  f.1 ++ ": ".toList ++ f.2.print

theorem printFields_eq_map (fs : List (Text × TypeExpr)) : printFields fs = fs.map printField := by
  induction fs with
  | nil => rfl
  | cons f fs ih => rw [printFields, ih, List.map_cons, printField]

/-- The type is read from its written form where nothing continues it. -/
def ReadsBack (t : TypeExpr) : Prop :=
  ∀ r, Stop r → ReadsType (t.print ++ r) t r

/-- The type is read from its written form with the suffixes that follow. -/
def ReadsAsOperand (t : TypeExpr) : Prop :=
  ∀ r, Boundary r → ':' ∉ (trimStart r).head? → (t.hasResult → Stop r) →
    ReadsSuffixed (t.print ++ r) (suffixes t r).1 (suffixes t r).2.1

theorem readsAsOperand_of_primaryStep (h : ∀ r, Boundary r → ':' ∉ (trimStart r).head? →
    (t.hasResult → Stop r) → PrimaryStep (t.print ++ r) t r) : ReadsAsOperand t :=
  fun r hr hcolon hstop =>
    reads_suffixed?.2 ⟨t, r, reads_primary?.2 (h r hr hcolon hstop), rfl, rfl⟩

theorem readsType_of_readsSuffixed (h : ReadsSuffixed s t r) (hr : '|' ∉ (trimStart r).head?) :
    ReadsType s t r := by
  refine reads_union?.2 ⟨t, r, h, ?_⟩
  rw [alternatives_stop hr]
  exact ⟨rfl, rfl⟩

theorem ReadsAsOperand.readsBack (h : ReadsAsOperand t) : ReadsBack t := by
  intro r hr
  have hread := h r hr.boundary hr.colon fun _ => hr
  rw [suffixes_of_noSuffix hr.noSuffix] at hread
  exact readsType_of_readsSuffixed hread hr.bar

/-! ### Names and literals -/

theorem readsAsOperand_of_ident (hn : Ident n) (hprint : t.print = n) (hname : ofName n = t) :
    ReadsAsOperand t := by
  refine readsAsOperand_of_primaryStep fun r hr _ _ => ?_
  rw [hprint, ← hname]
  exact primaryStep_name hn hr

/-! ### Suffixes -/

theorem not_isUnion_of_needsParens (h : t.needsParens = false) :
    t.isUnion = false ∧ t.hasResult = false := by
  cases t with
  | union | function => cases h
  | _ => exact ⟨rfl, rfl⟩

/-- A suffix reads back as it is put on: behind parentheses where the type needs them. -/
theorem readsAsOperand_suffix {wrap : TypeExpr → TypeExpr} {x : Text} (hx : IsSuffix wrap x)
    (hprint : (wrap t).print = operand t t.print ++ x) (hback : ReadsBack t)
    (hoperand : t.isUnion = false → ReadsAsOperand t) : ReadsAsOperand (wrap t) := by
  intro r _ _ _
  rw [hprint, ← (hx.wraps t r).1, ← (hx.wraps t r).2, List.append_assoc, operand]
  cases hparens : t.needsParens with
  | false =>
    obtain ⟨hunion, hresult⟩ := not_isUnion_of_needsParens hparens
    refine hoperand hunion (x ++ r) (hx.boundary r) (hx.colon r) ?_
    rw [hresult]
    nofun
  | true =>
    have ht := hback (')' :: (x ++ r)) (stop_cons (by decide))
    have htrim : trimStart (t.print ++ ')' :: (x ++ r)) = t.print ++ ')' :: (x ++ r) :=
      (union_sound ht).1.trimStart_eq
    have hgroup : PrimaryStep ('(' :: (t.print ++ ')' :: (x ++ r))) t (x ++ r) :=
      .group (htrim.symm ▸ ht) (leaves_closing?_append blank_nil rfl)
    have hread : ReadsSuffixed ('(' :: (t.print ++ ')' :: (x ++ r))) (suffixes t (x ++ r)).1
        (suffixes t (x ++ r)).2.1 :=
      reads_suffixed?.2 ⟨t, x ++ r, reads_primary?.2 hgroup, rfl, rfl⟩
    simpa using hread

/-! ### Unions -/

theorem ReadsAsOperand.readsSuffixed_bar (h : ReadsAsOperand t) (hresult : t.hasResult = false)
    (s : Text) : ReadsSuffixed (t.print ++ '|' :: s) t ('|' :: s) := by
  have hread := h ('|' :: s) (boundary_blank_append blank_nil (by decide))
    (not_mem_head?_trimStart blank_nil rfl (by decide)) (by rw [hresult]; nofun)
  have hsuffix : NoSuffix ('|' :: s) := noSuffix_blank_append blank_nil (by decide)
  rwa [suffixes_of_noSuffix hsuffix] at hread

theorem ReadsAsOperand.readsSuffixed_stop (h : ReadsAsOperand t) (hr : Stop r) :
    ReadsSuffixed (t.print ++ r) t r := by
  have hread := h r hr.boundary hr.colon fun _ => hr
  rwa [suffixes_of_noSuffix hr.noSuffix] at hread

theorem trimStart_eq_of_readsSuffixed (h : ReadsSuffixed s t r) : trimStart s = s :=
  (suffixed_sound inherited_wellFormed (soundBelow inherited_wellFormed s.length) (Nat.le_refl _)
    (throughout_true s) h).1.trimStart_eq

/-- Alternatives are read one after the other, each up to the `|` after it. -/
theorem readsSuffixed_alternatives (hoperand : ∀ u ∈ t :: ts, ReadsAsOperand u)
    (hresult : ∀ u ∈ (t :: ts).dropLast, u.hasResult = false) (hr : Stop r) :
    ∃ v, ReadsSuffixed (Text.join "|".toList ((t :: ts).map print) ++ r) t v ∧
      (alternatives v).1 = ts ∧ (alternatives v).2.1 = r := by
  -- The type in front changes with each step: it is followed by a `|` or, at the end, by `r`.
  induction ts generalizing t with
  | nil =>
    refine ⟨r, ?_, ?_⟩
    · rw [List.map_cons, List.map_nil, join_singleton]
      exact (hoperand t List.mem_cons_self).readsSuffixed_stop hr
    · rw [hr.alternatives_eq]
      exact ⟨rfl, rfl⟩
  | cons u ts ih =>
    rw [List.dropLast_cons_cons] at hresult
    obtain ⟨v, hv, hts, hrest⟩ := ih (List.forall_mem_cons.1 hoperand).2
      (List.forall_mem_cons.1 hresult).2
    have hbetween : Leaves (between? '|' ('|' :: (Text.join "|".toList ((u :: ts).map print) ++ r)))
        (trimStart (Text.join "|".toList ((u :: ts).map print) ++ r)) :=
      leaves_between?_append blank_nil blank_nil rfl
    rw [trimStart_eq_of_readsSuffixed hv] at hbetween
    refine ⟨'|' :: (Text.join "|".toList ((u :: ts).map print) ++ r), ?_, ?_⟩
    · have hread := (hoperand t List.mem_cons_self).readsSuffixed_bar
        (hresult t List.mem_cons_self) (Text.join "|".toList ((u :: ts).map print) ++ r)
      simpa [join_cons_cons] using hread
    · rw [(alternatives_more hbetween hv).1, (alternatives_more hbetween hv).2, hts, hrest]
      exact ⟨rfl, rfl⟩

theorem readsBack_union (hts : Separate ts) (hoperand : ∀ u ∈ ts, ReadsAsOperand u) :
    ReadsBack (union ts) := by
  intro r hr
  obtain ⟨hlength, -, hresult⟩ := hts
  match ts, hlength with
  | t :: u :: ts, _ =>
    obtain ⟨v, hv, halternatives, hrest⟩ := readsSuffixed_alternatives hoperand hresult hr
    rw [print, printAll_eq_map]
    refine reads_union?.2 ⟨t, v, hv, ?_, hrest⟩
    rw [halternatives]
    rfl

/-! ### Lists -/

/-- Printed items are read back one after the other, each up to the comma after it. -/
theorem items_join {α : Type} {item : Text → α → Text → Prop} {write : α → Text} {close : Char}
    {x : α} {xs : List α} (hb : Blank b) (hclose : close ∈ closers) (hcomma : ',' ≠ close)
    (htrim : ∀ {s y r}, item s y r → trimStart s = s)
    (hitem : ∀ y ∈ x :: xs, ∀ r, Stop r → item (write y ++ r) y r) :
    Items item close (Text.join ", ".toList ((x :: xs).map write) ++ (b ++ close :: r))
      (x :: xs) r := by
  induction xs generalizing x with
  | nil =>
    have hx := hitem x List.mem_cons_self (b ++ close :: r) (stop_blank_append hb hclose)
    rw [List.map_cons, List.map_nil, join_singleton]
    exact items_last (htrim hx) hb (isSpace_of_mem_closers hclose) hcomma hx
  | cons y ys ih =>
    have hys := ih (List.forall_mem_cons.1 hitem).2
    have hx := hitem x List.mem_cons_self
      ([] ++ ',' :: ([' '] ++ (Text.join ", ".toList ((y :: ys).map write) ++ (b ++ close :: r))))
      (stop_cons (by decide))
    have hitems := items_more (htrim hx) blank_nil blank_space hx hys
    simpa [join_cons_cons] using hitems

theorem trimStart_eq_of_readsType (h : ReadsType s t r) : trimStart s = s :=
  (union_sound h).1.trimStart_eq

theorem trimStart_eq_of_readsParam {p : Text × TypeExpr} (h : ReadsParam s p r) :
    trimStart s = s :=
  (param_sound inherited_wellFormed (soundBelow inherited_wellFormed _) (Nat.lt_succ_self _)
    (throughout_true s) h).1.trimStart_eq

theorem trimStart_eq_of_readsField {f : Text × TypeExpr} (h : ReadsField s f r) :
    trimStart s = s :=
  (field_sound (soundBelow inherited_wellFormed _) (Nat.lt_succ_self _)
    (throughout_true s) h).1.trimStart_eq

theorem readsAsOperand_container (hn : Ident n) (hne : ts ≠ []) (hts : ∀ t ∈ ts, ReadsBack t) :
    ReadsAsOperand (container n ts) := by
  refine readsAsOperand_of_primaryStep fun r _ _ _ => ?_
  obtain ⟨t, ts, rfl⟩ := List.exists_cons_of_ne_nil hne
  have hitems : Items ReadsType '>' (Text.join ", ".toList ((t :: ts).map print) ++ '>' :: r)
      (t :: ts) r :=
    items_join blank_nil (by decide) (by decide) trimStart_eq_of_readsType hts
  have hstep := primaryStep_container hn hitems
  rw [print, printAll_eq_map]
  simpa using hstep

/-- A colon and a blank after a name or a key are taken as a separator. -/
theorem leaves_colon (ht : ReadsType w t r) : Leaves (between? ':' (':' :: ' ' :: w)) w := by
  have hcolon := leaves_between?_append (c := ':') (r := w) blank_nil blank_space rfl
  rw [trimStart_eq_of_readsType ht] at hcolon
  exact hcolon

theorem readsParam_printField {p : Text × TypeExpr} (hname : ParamName p.1) (ht : ReadsBack p.2)
    (hr : Stop r) : ReadsParam (printField p ++ r) p r := by
  have hread := ht r hr
  have hcolon : ∀ c ∈ (':' :: ' ' :: (p.2.print ++ r)).head?, isDottedChar c = false ∧ c ≠ '?' := by
    intro c hc
    obtain rfl := Option.some.inj hc
    decide
  have hparam : ReadsParam (p.1 ++ ':' :: ' ' :: (p.2.print ++ r)) p r :=
    ⟨_, reads_paramName?_append hname hcolon, .inl ⟨_, leaves_colon hread, hread⟩⟩
  simpa [printField] using hparam

theorem readsField_printField {f : Text × TypeExpr}
    (hkey : Ident f.1 ∨ ∃ k, ReadsBack k ∧ f.1 = bracketed k) (ht : ReadsBack f.2) (hr : Stop r) :
    ReadsField (printField f ++ r) f r := by
  have hread := ht r hr
  have hkeyed : ReadsKey (f.1 ++ ':' :: ' ' :: (f.2.print ++ r)) f.1
      (':' :: ' ' :: (f.2.print ++ r)) := by
    rcases hkey with hn | ⟨k, hk, hbracketed⟩
    · refine .inr (reads_ident?_append hn fun c hc => ?_)
      obtain rfl := Option.some.inj hc
      decide
    · have hclose := hk (']' :: ':' :: ' ' :: (f.2.print ++ r))
        (stop_cons (by decide))
      refine .inl ⟨_, k, ?_, hclose, hbracketed⟩
      rw [hbracketed, bracketed]
      simp
  have hfield : ReadsField (f.1 ++ ':' :: ' ' :: (f.2.print ++ r)) f r :=
    ⟨_, _, hkeyed, leaves_colon hread, hread⟩
  simpa [printField] using hfield

theorem enclosed_join_params {ps : List (Text × TypeExpr)} (hnames : ∀ p ∈ ps, ParamName p.1)
    (hps : ∀ p ∈ ps, ReadsBack p.2) (r : Text) :
    Enclosed ReadsParam ')' (Text.join ", ".toList (ps.map printField) ++ ')' :: r) ps r := by
  cases ps with
  | nil => exact .inl ⟨rfl, leaves_closing?_append blank_nil rfl⟩
  | cons p ps =>
    exact enclosed_params (items_join blank_nil (by decide) (by decide)
      trimStart_eq_of_readsParam fun q hq _ hr => readsParam_printField (hnames q hq) (hps q hq) hr)

theorem readsAsOperand_function {ps : List (Text × TypeExpr)} (hnames : ∀ p ∈ ps, ParamName p.1)
    (hps : ∀ p ∈ ps, ReadsBack p.2) (hlength : ts.length ≤ 1) (hts : ∀ t ∈ ts, ReadsBack t) :
    ReadsAsOperand (function ps ts) := by
  refine readsAsOperand_of_primaryStep fun r _ hcolon hstop => ?_
  rw [print, printFields_eq_map]
  match ts, hlength with
  | [], _ =>
    have hstep := primaryStep_function (enclosed_join_params hnames hps r)
    rw [result_stop hcolon] at hstep
    simpa [printAll, Tail.whole] using hstep
  | [t], _ =>
    have hread := hts t List.mem_cons_self r (hstop rfl)
    have hstep := primaryStep_function
      (enclosed_join_params hnames hps (':' :: ' ' :: (t.print ++ r)))
    rw [(result_more (leaves_colon hread) hread).1,
      (result_more (leaves_colon hread) hread).2] at hstep
    simpa [printAll, join_singleton] using hstep

theorem readsAsOperand_table {fs : List (Text × TypeExpr)}
    (hkeys : ∀ f ∈ fs, Ident f.1 ∨ ∃ k, ReadsBack k ∧ f.1 = bracketed k)
    (hfs : ∀ f ∈ fs, ReadsBack f.2) : ReadsAsOperand (table fs) := by
  refine readsAsOperand_of_primaryStep fun r _ _ _ => ?_
  cases fs with
  | nil =>
    exact .table (.inl ⟨rfl, leaves_closing?_append (v := []) blank_nil rfl⟩)
  | cons f fs =>
    have hitems : Items ReadsField '}'
        (Text.join ", ".toList ((f :: fs).map printField) ++ ([' '] ++ '}' :: r)) (f :: fs) r :=
      items_join blank_space (by decide) (by decide) trimStart_eq_of_readsField
        fun g hg _ hr => readsField_printField (hkeys g hg) (hfs g hg) hr
    have hblank : trimStart (Text.join ", ".toList ((f :: fs).map printField) ++ ' ' :: '}' :: r) =
        trimStart (' ' :: (Text.join ", ".toList ((f :: fs).map printField) ++ ' ' :: '}' :: r)) :=
      (trimStart_append_of_blank blank_space).symm
    have hstep := PrimaryStep.table (enclosed_fields (items_congr hblank hitems))
    rw [print, printFields_eq_map]
    simpa using hstep

/-! ### All types -/

theorem Canonical.reads (h : Canonical t) :
    ReadsBack t ∧ (t.isUnion = false → ReadsAsOperand t) := by
  have hoperand : ∀ {t : TypeExpr}, ReadsAsOperand t →
      ReadsBack t ∧ (t.isUnion = false → ReadsAsOperand t) :=
    fun h => ⟨h.readsBack, fun _ => h⟩
  induction h with
  | builtin b =>
    exact hoperand (readsAsOperand_of_ident (ident_builtin_name b) rfl (ofName_builtin_name b))
  | named hname hbuiltin htrue hfalse =>
    exact hoperand (readsAsOperand_of_ident hname rfl
      (ofName_of_ofName?_eq_none hbuiltin htrue hfalse))
  | truth hname =>
    exact hoperand (readsAsOperand_of_ident (ident_truth hname) rfl (ofName_truth hname))
  | number hw =>
    exact hoperand (readsAsOperand_of_primaryStep fun _ hr _ _ => primaryStep_number hw hr)
  | quoted hw =>
    exact hoperand (readsAsOperand_of_primaryStep fun _ _ _ _ => primaryStep_quoted hw)
  | array _ ih =>
    exact hoperand (readsAsOperand_suffix isSuffix_array (by rw [print]) ih.1 ih.2)
  | optional _ ih =>
    exact hoperand (readsAsOperand_suffix isSuffix_optional (by rw [print]) ih.1 ih.2)
  | union hts _ ih =>
    refine ⟨readsBack_union hts fun t ht => (ih t ht).2 (hts.2.1 t ht), nofun⟩
  | container hname hne _ ih =>
    exact hoperand (readsAsOperand_container hname hne fun t ht => (ih t ht).1)
  | function hnames _ hlength _ ihps ihrs =>
    exact hoperand (readsAsOperand_function hnames (fun p hp => (ihps p hp).1) hlength
      fun t ht => (ihrs t ht).1)
  | table hkeys _ _ ihks ihfs =>
    refine hoperand (readsAsOperand_table (fun f hf => (hkeys f hf).imp_right ?_)
      fun f hf => (ihfs f hf).1)
    intro hkey
    obtain ⟨k, hk, hfk⟩ := hkey
    exact ⟨k, (ihks k hk).1, hfk⟩

/-- A text as it stands after a type in a tag: nothing, a comma, or white space and then what does
not continue the type. -/
def AfterType (r : Text) : Prop :=
  r = [] ∨ ',' ∈ r.head? ∨
    ((∃ c ∈ r.head?, isSpace c) ∧ '|' ∉ (trimStart r).head? ∧ ':' ∉ (trimStart r).head?)

theorem AfterType.stop (h : AfterType r) : Stop r := by
  rcases h with rfl | hcomma | ⟨⟨c, hc, hspace⟩, hbar, hcolon⟩
  · exact stop_nil
  · obtain ⟨v, rfl⟩ := mem_head?_iff.1 hcomma
    exact stop_cons (by decide)
  · obtain ⟨v, rfl⟩ := mem_head?_iff.1 hc
    have hblank : ∀ d ∈ (c :: v).head?, isSpace d := by
      intro d hd
      obtain rfl := Option.some.inj hd
      exact hspace
    have hsuffix : NoSuffix (c :: v) := noSuffix_of_head? fun d hd =>
      ⟨ne_of_test (hblank d hd) rfl, ne_of_test (hblank d hd) rfl⟩
    exact ⟨boundary_of_isSpace hblank, hsuffix, hbar, hcolon⟩

theorem Canonical.parse_print (h : Canonical t) : parse t.print = t := by
  refine parse_eq_of_reads ?_
  have hread := h.reads.1 [] stop_nil
  rwa [List.append_nil] at hread

/-- A canonical type is read back from its written form, and the text after it is left as it was. -/
theorem leading?_print (h : Canonical t) (hr : AfterType r) :
    Reads (leading? (t.print ++ r)) t r ∧ parse t.print = t := by
  have hread := h.reads.1 r hr.stop
  refine ⟨reads_leading?.2 (.inl ?_), h.parse_print⟩
  rwa [trimStart_eq_of_readsType hread]

theorem canonical_union_pair (ht : Canonical t) (hu : Canonical u) (hunion : t.isUnion = false)
    (hunion' : u.isUnion = false) (hresult : t.hasResult = false) : Canonical (union [t, u]) :=
  .union ⟨Nat.le_refl 2, by simp [hunion, hunion'], by simpa using hresult⟩
    (List.forall_mem_cons.2 ⟨ht, List.forall_mem_singleton.2 hu⟩)

/-- The written form `(Foo|"on")[]|fun(cb?: any): nil`, with words after it that are no part of the
type. -/
theorem leading?_print_listener :
    Reads (leading? ((union [array (union [named "Foo".toList, literal "\"on\"".toList]),
        function [("cb?".toList, builtin .any)] [builtin .nil]]).print ++ " called: once".toList))
      (union [array (union [named "Foo".toList, literal "\"on\"".toList]),
        function [("cb?".toList, builtin .any)] [builtin .nil]]) " called: once".toList := by
  have hname : Canonical (named "Foo".toList) :=
    .named (ident_of_all rfl rfl (by decide)) (by decide) (by decide) (by decide)
  have hliteral : Canonical (literal "\"on\"".toList) :=
    .quoted (.mk (q := '"') (v := "on".toList) (by decide) (by decide))
  have harray : Canonical (array (union [named "Foo".toList, literal "\"on\"".toList])) :=
    .array (canonical_union_pair hname hliteral rfl rfl rfl)
  have hparam : ParamName "cb?".toList :=
    .optional (n := "cb".toList) (ident_of_all rfl rfl (by decide))
  have hfunction : Canonical (function [("cb?".toList, builtin .any)] [builtin .nil]) :=
    .function (List.forall_mem_singleton.2 hparam) (List.forall_mem_singleton.2 (.builtin .any))
      (Nat.le_refl 1) (List.forall_mem_singleton.2 (.builtin .nil))
  have hafter : AfterType " called: once".toList :=
    .inr (.inr ⟨⟨' ', rfl, rfl⟩, by decide, by decide⟩)
  exact (leading?_print (canonical_union_pair harray hfunction rfl rfl rfl) hafter).1

end LuaDocs.TypeExpr
