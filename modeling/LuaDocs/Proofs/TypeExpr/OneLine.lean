import LuaDocs.Proofs.TypeExpr.NormalForm

/-!
# Types on one line

A type that was read from a single line is written on a single line: names and numbers hold no white
space, a string is a part of the line, and all else is put together from these with fixed marks in
between. Matching names does not show in the written form.
-/

namespace LuaDocs.TypeExpr

open Text

variable {s r w n : Text} {t u : TypeExpr} {ts : List TypeExpr}

def OneLine (t : TypeExpr) : Prop :=
  '\n' ∉ t.print

instance (t : TypeExpr) : Decidable t.OneLine :=
  inferInstanceAs (Decidable ('\n' ∉ t.print))

/-! ### Words -/

theorem not_feed_of_solid_word (h : ∀ c ∈ w, isSpace c = false) : '\n' ∉ w := by
  intro hmem
  cases h '\n' hmem

theorem Ident.not_feed (h : Ident n) : '\n' ∉ n :=
  not_feed_of_solid_word fun _ hc => not_isSpace_of_isDottedChar (h.isDottedChar_of_mem hc)

theorem Number.not_feed (h : Number w) : '\n' ∉ w := by
  have hdigits : ∀ v : Text, (∀ c ∈ v, isNumeral c) → '\n' ∉ v := fun v hv hmem =>
    absurd (hv '\n' hmem) (by decide)
  cases h with
  | unsigned hstart hinside =>
    exact hdigits _ (List.forall_mem_cons.2 ⟨isNumeral_of_isDigit hstart, hinside⟩)
  | negative _ hinside => exact List.not_mem_cons_of_ne_of_not_mem (by decide) (hdigits _ hinside)

theorem ParamName.not_feed (h : ParamName n) : '\n' ∉ n := by
  cases h with
  | rest => decide
  | required h => exact h.not_feed
  | optional h => exact List.not_mem_append h.not_feed (by decide)

theorem print_ofName (n : Text) : (ofName n).print = n := by
  rw [ofName]
  split
  · rfl
  · split
    · next b hb =>
      have hname := List.find?_some hb
      exact beq_iff_eq.1 hname
    · rfl

/-! ### Types -/

theorem OneLine.operand (h : t.OneLine) : '\n' ∉ operand t t.print := by
  rw [TypeExpr.operand]
  split
  · have hopen : '\n' ∉ '(' :: t.print := List.not_mem_cons_of_ne_of_not_mem (by decide) h
    exact List.not_mem_append hopen (by decide)
  · exact h

theorem oneLine_printField {f : Text × TypeExpr} (hkey : '\n' ∉ f.1) (ht : f.2.OneLine) :
    '\n' ∉ printField f :=
  List.not_mem_append (List.not_mem_append hkey (by decide)) ht

theorem oneLine_union (hts : ∀ t ∈ ts, OneLine t) : (union ts).OneLine := by
  rw [OneLine, print, printAll_eq_map]
  exact not_mem_join (by decide) (List.forall_mem_map.2 hts)

theorem oneLine_container (hn : '\n' ∉ n) (hts : ∀ t ∈ ts, OneLine t) : (container n ts).OneLine := by
  have hargs : '\n' ∉ join ", ".toList (ts.map print) :=
    not_mem_join (by decide) (List.forall_mem_map.2 hts)
  rw [OneLine, print, printAll_eq_map]
  exact List.not_mem_append (List.not_mem_append (List.not_mem_append hn (by decide)) hargs)
    (by decide)

theorem oneLine_function {ps : List (Text × TypeExpr)} (hps : ∀ p ∈ ps, '\n' ∉ p.1 ∧ p.2.OneLine)
    (hts : ∀ t ∈ ts, OneLine t) : (function ps ts).OneLine := by
  have hparams : '\n' ∉ join ", ".toList (ps.map printField) :=
    not_mem_join (by decide)
      (List.forall_mem_map.2 fun p hp => oneLine_printField (hps p hp).1 (hps p hp).2)
  have hresults : '\n' ∉ join ", ".toList (ts.map print) :=
    not_mem_join (by decide) (List.forall_mem_map.2 hts)
  rw [OneLine, print, printFields_eq_map, printAll_eq_map]
  refine List.not_mem_append ?_ ?_
  · exact List.not_mem_append (List.not_mem_append (by decide) hparams) (by decide)
  · split
    · exact List.not_mem_nil
    · exact List.not_mem_append (by decide) hresults

theorem oneLine_table {fs : List (Text × TypeExpr)} (hfs : ∀ f ∈ fs, '\n' ∉ f.1 ∧ f.2.OneLine) :
    (table fs).OneLine := by
  have hfields : '\n' ∉ join ", ".toList (fs.map printField) :=
    not_mem_join (by decide)
      (List.forall_mem_map.2 fun f hf => oneLine_printField (hfs f hf).1 (hfs f hf).2)
  cases fs with
  | nil => decide
  | cons f fs =>
    rw [OneLine, print, printFields_eq_map]
    exact List.not_mem_append (List.not_mem_append (by decide) hfields) (by decide)

theorem inherited_oneLine : Inherited (fun s => '\n' ∉ s) OneLine where
  name {n} hn := by
    rw [OneLine, print_ofName]
    exact hn.not_feed
  any := by decide
  number hw := hw.not_feed
  quoted _ hgood := hgood
  array ht := List.not_mem_append ht.operand (by decide)
  optional ht := List.not_mem_append ht.operand (by decide)
  union _ hts := oneLine_union hts
  container hn _ hts := oneLine_container hn.not_feed hts
  function hps _ hrs := oneLine_function (fun p hp => ⟨(hps p hp).1.not_feed, (hps p hp).2⟩) hrs
  table {fs} hfs := by
    refine oneLine_table fun f hf => ⟨?_, (hfs f hf).2⟩
    rcases (hfs f hf).1 with hn | ⟨k, hk, hkey⟩
    · exact hn.not_feed
    · rw [hkey]
      have hopen : '\n' ∉ '[' :: k.print := List.not_mem_cons_of_ne_of_not_mem (by decide) hk
      exact List.not_mem_append hopen (by decide)

theorem oneLine_ofAlternatives (hts : ∀ t ∈ ts, OneLine t) : (ofAlternatives ts).OneLine := by
  match ts with
  | [] => exact oneLine_union hts
  | [t] => exact hts t List.mem_cons_self
  | t :: u :: ts => exact oneLine_union hts

theorem OneLine.of_mem_parts (h : t.OneLine) (hu : u ∈ parts t) : u.OneLine := by
  cases t with
  | union ts =>
    rw [OneLine, print, printAll_eq_map] at h
    exact fun hmem => h (mem_join (List.mem_map_of_mem hu) hmem)
  | _ =>
    obtain rfl := List.mem_singleton.1 hu
    exact h

/-! ### Reading -/

theorem throughout_not_feed (hs : '\n' ∉ s) : Throughout (fun s => '\n' ∉ s) s :=
  fun _ hw hmem => hs (hw.subset hmem)

theorem trimStart_suffix (s : Text) : trimStart s <:+ s :=
  List.dropWhile_suffix _

/-- The type at the front of a line is written on one line, and what follows it is an end of the line. -/
theorem oneLine_of_reads_leading? (hs : '\n' ∉ s) (h : Reads (leading? s) t r) :
    t.OneLine ∧ r <:+ s := by
  have htrim : '\n' ∉ trimStart s := fun hmem => hs ((trimStart_suffix s).subset hmem)
  rcases reads_leading?.1 h with hu | ⟨-, -, rfl, rfl⟩
  · obtain ⟨w, -, hw⟩ := (union_sound hu).1
    have hr : r <:+ trimStart s := ⟨w, hw.symm⟩
    exact ⟨union_inherited inherited_oneLine (throughout_not_feed htrim) hu,
      hr.trans (trimStart_suffix s)⟩
  · refine ⟨fun hmem => htrim ((List.takeWhile_prefix _).subset hmem), ?_⟩
    exact (List.dropWhile_suffix _).trans (trimStart_suffix s)

theorem oneLine_parse (hs : '\n' ∉ s) : (parse s).OneLine := by
  have htrim : '\n' ∉ trim s := fun hmem => hs ((trim_sublist s).mem hmem)
  rcases parse_cases s with ⟨t, r, h, -, hparse⟩ | ⟨-, hparse⟩
  · rw [hparse]
    exact (oneLine_of_reads_leading? htrim h).1
  · rw [hparse]
    exact htrim

/-! ### Matched names -/

theorem needsParens_matched (known : Text → Bool) (t : TypeExpr) :
    (t.matched known).needsParens = t.needsParens := by
  cases t with
  | named n =>
    rw [matched]
    split <;> rfl
  | _ => rfl

theorem print_matched (known : Text → Bool) (t : TypeExpr) : (t.matched known).print = t.print := by
  induction t using inductionOnParts with
  | builtin b => rfl
  | declared n => rfl
  | literal s => rfl
  | named n =>
    rw [matched]
    split <;> rfl
  | array t ih => rw [matched, print, print, operand, operand, needsParens_matched, ih]
  | optional t ih => rw [matched, print, print, operand, operand, needsParens_matched, ih]
  | union ts ih => rw [matched, matchedAll_eq_map, print, print, printAll_map_congr ih]
  | container n ts ih => rw [matched, matchedAll_eq_map, print, print, printAll_map_congr ih]
  | function ps rs ihps ihrs =>
    rw [matched, matchedAll_eq_map, matchedFields_eq_map, print, print, printAll_map_congr ihrs,
      printFields_map_congr ihps]
  | table fs ih =>
    cases fs with
    | nil => rfl
    | cons f fs =>
      have hfields := printFields_map_congr ih
      rw [matched, matchedFields_eq_map, print, ← hfields]
      rfl

end LuaDocs.TypeExpr
