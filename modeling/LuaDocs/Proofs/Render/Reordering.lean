import LuaDocs.Proofs.Declaration.Prose
import LuaDocs.Proofs.Render.Blocks
import LuaDocs.Proofs.Render.Documented
import LuaDocs.Proofs.Text.Filling
import LuaDocs.Render.Format

/-!
# Functions in another order

Documentation is put together from one block for each function and an appendix for the types that the
functions lead to. Which types these are does not depend on the order of the functions, and every block and
every entry of the appendix ends in one empty line after one that is not empty. So trimming takes away that
line and no more, whichever block comes last, and what another order changes is the order of the blocks and
of the entries.
-/

namespace LuaDocs

open Text

/-! ### Help text -/

namespace Help

variable {layout : Layout} {s title : Text} {ls : List Text} {groups : List (List Text)} {c : Char}
  {p : Passage}

theorem spaced_ne_nil (hne : groups ≠ []) (h : ∀ group ∈ groups, group ≠ []) : spaced groups ≠ [] := by
  fun_cases spaced groups with
  | case1 => exact absurd rfl hne
  | case2 group => exact h group List.mem_cons_self
  | case3 group rest hrest => simp

theorem inked_spaced (h : ∀ group ∈ groups, group ≠ [] ∧ Inked group) : Inked (spaced groups) := by
  fun_induction spaced groups with
  | case1 => exact inked_nil
  | case2 group => exact (h group List.mem_cons_self).2
  | case3 group rest hrest ih =>
    have hall := (List.forall_mem_cons.1 h).2
    have hne : spaced rest ≠ [] := spaced_ne_nil (fun hnil => hrest hnil) fun g hg => (hall g hg).1
    rw [List.append_cons]
    exact (ih hall).append_left _ hne

theorem inked_lines (h : words p.text ≠ []) : Inked (p.lines layout) :=
  inked_of_forall fun _ hline => ne_nil_of_words_ne_nil (words_ne_nil_of_mem_wrap h hline)

/-- A text that opens with a mark, as the text of every entry does. -/
theorem inked_paragraph (hc : isSpace c = false) (s : Text) : Inked (paragraph layout (c :: s)) :=
  inked_lines (p := .plain (c :: s)) (words_ne_nil List.mem_cons_self hc)

theorem inked_entry (hc : isSpace c = false) (s : Text) (description : Option Text) :
    Inked (entry layout (c :: s) description) := by
  rw [entry_eq]
  apply inked_lines
  cases description with
  | none => exact words_ne_nil List.mem_cons_self hc
  | some d => exact words_ne_nil List.mem_cons_self hc

theorem inked_description (s : Text) : Inked (description layout s) := by
  rw [description]
  split
  · exact inked_nil
  · refine inked_spaced (List.forall_mem_map.2 fun paragraph hparagraph => ⟨wrap_ne_nil paragraph _ _ _, ?_⟩)
    have hwords : words paragraph ≠ [] := by
      apply words_ne_nil_of_trim
      simpa using (List.mem_filter.1 hparagraph).2
    exact inked_lines (p := .plain paragraph) hwords

theorem inked_titled (htitle : title ≠ []) (h : Inked ls) : Inked (titled layout title ls) := by
  have hopening : Inked [[], margin layout 0 ++ title] :=
    inked_concat [[]] (List.append_ne_nil_of_right_ne_nil _ htitle)
  exact hopening.append h

theorem inked_members (htitle : title ≠ []) (name : Member → Text) (ms : List Member) :
    Inked (members layout title name ms) := by
  rw [members]
  split
  · exact inked_nil
  · exact inked_titled htitle (inked_flatMap fun m _ => inked_entry rfl _ _)

theorem inked_deprecation (reason : Option Text) : Inked (deprecation layout reason) := by
  match reason with
  | none => exact inked_nil
  | some [] => exact inked_paragraph rfl _
  | some (_ :: _) => exact inked_paragraph rfl _

theorem inked_returnList (returns : List ReturnValue) : Inked (returnList layout returns) := by
  rw [returnList]
  split
  · exact inked_nil
  · exact inked_titled (by decide) (inked_flatMap fun r _ => inked_entry rfl _ _)

theorem inked_noteLines (note : Option Text) : Inked (noteLines layout note) := by
  cases note with
  | none => exact inked_nil
  | some note =>
    have hclose : margin layout 2 ++ "</pre>".toList ≠ [] :=
      List.append_ne_nil_of_right_ne_nil _ (by decide)
    exact inked_concat ([] :: (margin layout 0 ++ "Note:".toList) ::
      (margin layout 2 ++ "<pre>".toList) ::
        (lines note).map fun line => trimEnd (margin layout 2 ++ escape line)) hclose

theorem inked_kindLines (kind : TypeKind) : Inked (kindLines layout kind) := by
  cases kind with
  | record parents fields =>
    refine Inked.append ?_ (inked_members (by decide) _ _)
    split
    · exact inked_nil
    · exact inked_paragraph rfl _
  | enumeration variants =>
    exact inked_titled (by decide) (inked_flatMap fun v _ => inked_entry rfl _ _)
  | typeAlias type => exact inked_paragraph rfl _

theorem leftRight_ne_nil (left right : Text) (width : ℕ) : leftRight left right width ≠ [] := by
  rw [leftRight]
  split <;> exact List.cons_ne_nil _ _

theorem inked_leftRight (left name : Text) (width : ℕ) : Inked (leftRight left (tag name) width) := by
  have htag : ∀ s, s ++ tag name ≠ [] := fun s =>
    List.append_ne_nil_of_right_ne_nil s (List.cons_ne_nil _ _)
  rw [leftRight]
  split
  · exact inked_concat [] (htag _)
  · exact inked_concat [left] (htag _)

theorem separated_functionBlock (moduleName : Text) (f : FunctionDoc) :
    Separated (functionBlock layout moduleName f ++ [[]]) := by
  have hinked : Inked (functionBlock layout moduleName f) :=
    (((((inked_leftRight _ _ _).append (inked_deprecation _)).append (inked_description _)).append
      (inked_members (by decide) _ _)).append (inked_returnList _)).append (inked_noteLines _)
  refine hinked.separated ?_
  simp [functionBlock, leftRight_ne_nil]

theorem separated_typeBlock (t : TypeDoc) : Separated (typeBlock layout t ++ [[]]) := by
  have hinked : Inked (typeBlock layout t) :=
    (((inked_leftRight _ _ _).append (inked_paragraph rfl _)).append (inked_description _)).append
      (inked_kindLines _)
  refine hinked.separated ?_
  simp [typeBlock, leftRight_ne_nil]

theorem separated_typeBlocks {types : List TypeDoc} (hne : types ≠ []) :
    Separated (typeBlocks layout types) := by
  rw [typeBlocks, if_neg (by simpa using hne)]
  exact (separated_flatMap hne fun t _ => separated_typeBlock t).append ["Types:".toList, []]

theorem typeBlocks_perm {types types' : List TypeDoc} (h : types.Perm types') :
    (typeBlocks layout types).Perm (typeBlocks layout types') := by
  rw [typeBlocks, typeBlocks, h.isEmpty_eq]
  split
  · exact .refl _
  · exact ((h.flatMap_right _).cons _).cons _

end Help

/-! ### Markdown -/

namespace Markdown

variable {s : Text} {f : FunctionDoc}

theorem row_ne_nil (cells : List Text) : row cells ≠ [] :=
  List.cons_ne_nil _ _

theorem separated_table {α : Type} {line : α → Text} (hline : ∀ x, line x ≠ []) (xs : List α)
    {header rule : Text} (hheader : header ≠ []) (hrule : rule ≠ []) :
    Separated (header :: rule :: xs.map line ++ [[]]) := by
  have hall : ∀ l ∈ header :: rule :: xs.map line, l ≠ [] :=
    List.forall_mem_cons.2 ⟨hheader, List.forall_mem_cons.2 ⟨hrule,
      List.forall_mem_map.2 fun x _ => hline x⟩⟩
  exact (inked_of_forall hall).separated (List.cons_ne_nil _ _)

theorem separated_deprecation (reason : Option Text) :
    deprecation reason = [] ∨ Separated (deprecation reason) := by
  match reason with
  | none => exact .inl rfl
  | some [] => exact .inr ⟨[], "> **Deprecated**".toList, by decide, rfl⟩
  | some (c :: s) =>
    exact .inr ⟨[], "> **Deprecated**: ".toList ++ c :: s, List.cons_ne_nil _ _, rfl⟩

/-- The last paragraph of a description is a line with text. -/
theorem separated_paragraphs (h : f.Trimmed) :
    paragraphs f.description = [] ∨ Separated (paragraphs f.description) := by
  rcases h with hnil | hsolid
  · rw [hnil]
    exact .inl rfl
  · right
    have hlast := hsolid.getLast?_paragraphs
    rw [paragraphs, if_neg (by simpa using hsolid.ne_nil)]
    rcases List.eq_nil_or_concat (splitParagraphs f.description) with hnone | ⟨ps, p, hparts⟩
    · exact absurd hnone (splitParagraphs_ne_nil _)
    · rw [hparts, List.concat_eq_append] at hlast ⊢
      rw [List.getLast?_concat] at hlast
      rw [List.flatMap_append, List.flatMap_singleton]
      exact ⟨_, p, fun hp => hlast (congrArg some hp), rfl⟩

theorem separated_paramTable (params : List Member) :
    paramTable params = [] ∨ Separated (paramTable params) := by
  rw [paramTable]
  split
  · exact .inl rfl
  · exact .inr (separated_table (fun _ => row_ne_nil _) params (by decide) (by decide))

theorem separated_returnTable (returns : List ReturnValue) :
    returnTable returns = [] ∨ Separated (returnTable returns) := by
  rw [returnTable]
  split
  · exact .inl rfl
  · exact .inr (separated_table (fun _ => row_ne_nil _) returns (by decide) (by decide))

theorem separated_noteLines (note : Option Text) :
    noteLines note = [] ∨ Separated (noteLines note) := by
  cases note with
  | none => exact .inl rfl
  | some note => exact .inr ⟨_, "</pre>".toList, by decide, rfl⟩

theorem separated_functionBlock (h : f.Trimmed) : Separated (functionBlock f) := by
  have hheading : Separated ["### ".toList ++ f.call (·.name), [], "\x60\x60\x60lua".toList, usage f,
      "\x60\x60\x60".toList, []] :=
    ⟨["### ".toList ++ f.call (·.name), [], "\x60\x60\x60lua".toList, usage f],
      "\x60\x60\x60".toList, by decide, rfl⟩
  exact ((((hheading.append_part (separated_deprecation _)).append_part
    (separated_paragraphs h)).append_part (separated_paramTable _)).append_part
      (separated_returnTable _)).append_part (separated_noteLines _)

theorem separated_typeTable {types : List TypeDoc} (hne : types ≠ []) :
    Separated (typeTable types) := by
  have htable : Separated ("| Type | Kind | Fields |".toList :: "| ---- | ---- | ------ |".toList ::
      types.map typeRow ++ [[]]) :=
    separated_table (fun _ => row_ne_nil _) types (by decide) (by decide)
  rw [typeTable, if_neg (by simpa using hne)]
  exact htable.append ["### Types".toList, []]

theorem typeTable_perm {types types' : List TypeDoc} (h : types.Perm types') :
    (typeTable types).Perm (typeTable types') := by
  rw [typeTable, typeTable, h.isEmpty_eq]
  split
  · exact .refl _
  · exact (((((h.map typeRow).append_right _).cons _).cons _).cons _).cons _

end Markdown

/-! ### The same types -/

theorem Registry.referencedTypes_perm (r : Registry) {fs gs : List FunctionDoc} (h : fs.Perm gs) :
    (r.referencedTypes fs).Perm (r.referencedTypes gs) := by
  have hnodup : ∀ hs, (r.referencedTypes hs).Nodup := fun hs => (r.nodup_referencedTypes hs).of_map
  have htypes : ∀ n, r.Reaches (fs.flatMap (·.types)) n ↔ r.Reaches (gs.flatMap (·.types)) n :=
    fun n => ⟨fun hn => hn.mono (h.flatMap_right _).subset,
      fun hn => hn.mono (h.flatMap_right _).symm.subset⟩
  apply (List.perm_ext_iff_of_nodup (hnodup fs) (hnodup gs)).2
  intro t
  simp only [mem_referencedTypes_iff, htypes]

/-! ### Both formats -/

namespace Format

variable {layout : Layout} {moduleName : Text} {sources : List (Text × Text)} {r : Registry}
  {fs gs hs : List FunctionDoc} {types types' : List TypeDoc} {f : FunctionDoc}

def functionLines (format : Format) (layout : Layout) (moduleName : Text) (f : FunctionDoc) :
    List Text :=
  match format with
  | markdown => Markdown.functionBlock f
  | help => Help.functionBlock layout moduleName f ++ [[]]

def typeLines (format : Format) (layout : Layout) (types : List TypeDoc) : List Text :=
  match format with
  | markdown => Markdown.typeTable types
  | help => Help.typeBlocks layout types

theorem render_eq (format : Format) (layout : Layout) (moduleName : Text) (hs : List FunctionDoc)
    (r : Registry) : format.render layout moduleName hs r =
      dropTrailingEmpty (hs.flatMap (format.functionLines layout moduleName) ++
        format.typeLines layout (r.referencedTypes hs)) := by
  cases format <;> rfl

theorem separated_functionLines (format : Format) (hf : f.Trimmed) :
    Separated (format.functionLines layout moduleName f) := by
  cases format with
  | markdown => exact Markdown.separated_functionBlock hf
  | help => exact Help.separated_functionBlock moduleName f

theorem typeLines_eq_nil_or_separated (format : Format) (types : List TypeDoc) :
    format.typeLines layout types = [] ∨ Separated (format.typeLines layout types) := by
  by_cases hne : types = []
  · subst hne
    left
    cases format <;> rfl
  · right
    cases format with
    | markdown => exact Markdown.separated_typeTable hne
    | help => exact Help.separated_typeBlocks hne

theorem typeLines_perm (format : Format) (layout : Layout) (h : types.Perm types') :
    (format.typeLines layout types).Perm (format.typeLines layout types') := by
  cases format with
  | markdown => exact Markdown.typeTable_perm h
  | help => exact Help.typeBlocks_perm h

/-- Trimming takes one empty line away. -/
theorem render_append (format : Format) (hne : hs ≠ []) (hhs : ∀ f ∈ hs, f.Trimmed) :
    format.render layout moduleName hs r ++ [[]] =
      hs.flatMap (format.functionLines layout moduleName) ++
        format.typeLines layout (r.referencedTypes hs) := by
  have hblocks : Separated (hs.flatMap (format.functionLines layout moduleName)) :=
    separated_flatMap hne fun f hf => format.separated_functionLines (hhs f hf)
  rw [render_eq]
  exact (hblocks.append_part (format.typeLines_eq_nil_or_separated _)).dropTrailingEmpty_append

/-- Another order of the functions puts the blocks of the functions in that order, and leaves the lines of
the documentation and of its appendix the same up to their order. -/
theorem render_reordered (format : Format) (layout : Layout) (moduleName : Text)
    (hfs : ∀ f ∈ fs, f ∈ (Registry.ofSources sources).functions) (hperm : fs.Perm gs) :
    let r := Registry.ofSources sources
    (format.render layout moduleName fs r).Perm (format.render layout moduleName gs r) ∧
      (format.typeLines layout (r.referencedTypes fs)).Perm
        (format.typeLines layout (r.referencedTypes gs)) ∧
      ∀ hs ∈ [fs, gs], hs ≠ [] → format.render layout moduleName hs r ++ [[]] =
        hs.flatMap (format.functionLines layout moduleName) ++
          format.typeLines layout (r.referencedTypes hs) := by
  intro r
  have htrimmed : ∀ f ∈ fs, f.Trimmed := fun f hf => Registry.trimmed_of_mem_functions (hfs f hf)
  have htypes := format.typeLines_perm layout (r.referencedTypes_perm hperm)
  have hrender : ∀ hs ∈ [fs, gs], hs ≠ [] → format.render layout moduleName hs r ++ [[]] =
      hs.flatMap (format.functionLines layout moduleName) ++
        format.typeLines layout (r.referencedTypes hs) := by
    intro hs hmem hne
    refine format.render_append hne fun f hf => htrimmed f ?_
    rcases List.mem_cons.1 hmem with rfl | hmem
    · exact hf
    · obtain rfl := List.mem_singleton.1 hmem
      exact hperm.mem_iff.2 hf
  refine ⟨?_, htypes, hrender⟩
  by_cases hne : fs = []
  · subst hne
    rw [hperm.nil_eq]
  · have hne' : gs ≠ [] := fun hnil => hne (hnil ▸ hperm).eq_nil
    apply (List.perm_append_right_iff [[]]).1
    rw [hrender fs (by simp) hne, hrender gs (by simp) hne']
    exact (hperm.flatMap_right _).append htypes

/-- Two functions that change places, one of which leads to a class. -/
theorem render_reordered_swapped :
    let r := Registry.ofSources [("a.lua".toList, Registry.boxText)]
    let f := Registry.functionOf "f".toList (.container "Box".toList [.builtin .number]) 4
    let g := Registry.functionOf "g".toList (.array (.declared "Box".toList)) 7
    (∀ h ∈ [f, g], h ∈ r.functions) ∧ [f, g].Perm [g, f] ∧
      (markdown.render .standard [] [f, g] r).Perm (markdown.render .standard [] [g, f] r) ∧
      markdown.render .standard [] [g, f] r ++ [[]] =
        Markdown.functionBlock g ++ (Markdown.functionBlock f ++
          Markdown.typeTable (r.referencedTypes [g, f])) := by
  intro r f g
  have hfs : ∀ h ∈ [f, g], h ∈ r.functions := by
    dsimp only [r]
    rw [Registry.functions_boxText]
    exact fun h hh => hh
  have hperm : [f, g].Perm [g, f] := .swap g f []
  obtain ⟨hlines, -, hblocks⟩ := markdown.render_reordered .standard [] hfs hperm
  have hswapped := hblocks [g, f] (List.mem_cons_of_mem _ List.mem_cons_self) (List.cons_ne_nil _ _)
  refine ⟨hfs, hperm, hlines, hswapped.trans ?_⟩
  simp [functionLines, typeLines, r]

end Format

end LuaDocs
