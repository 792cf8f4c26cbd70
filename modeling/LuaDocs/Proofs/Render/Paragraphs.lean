import LuaDocs.Proofs.Declaration.Paragraphs
import LuaDocs.Proofs.Render.Escaping
import LuaDocs.Proofs.Render.Reordering
import LuaDocs.Proofs.Render.Tables

/-!
# Paragraphs on the page

A description is handed over as one text, and both formats cut it into paragraphs again. What they find is
what the doc block had: no paragraph holds a line feed, which is where a text is cut, and white space ends
whatever is escaped, so each paragraph is escaped by itself. No paragraph is blank, before it is escaped or
after, so none is dropped and none leaves a blank line of its own.
-/

namespace LuaDocs

open Text

variable {ps : List Text} {s : Text} {c : Char} {layout : Layout}

theorem trim_ne_nil (h : c ∈ s) (hc : isSpace c = false) : trim s ≠ [] := by
  intro hnil
  have hend : trimEnd s = [] := (Prose.trimEnd_eq_nil_iff s).2 hnil
  have hblank : ∀ c ∈ s, isSpace c = true := List.rdropWhile_eq_nil_iff.1 hend
  rw [hblank c h] at hc
  cases hc

/-- Paragraphs with text, each on a line. -/
def Plain (ps : List Text) : Prop :=
  ∀ p ∈ ps, Solid p ∧ '\n' ∉ p

theorem Plain.join_eq_nil_iff (h : Plain ps) : join "\n\n".toList ps = [] ↔ ps = [] := by
  refine ⟨fun hnil => ?_, fun hnil => by rw [hnil]; rfl⟩
  by_contra hne
  exact (solid_join _ (fun p hp => (h p hp).1) hne).ne_nil hnil

/-! ### Markdown -/

namespace Markdown

theorem paragraphs_join (h : Plain ps) : paragraphs (join "\n\n".toList ps) = ps.flatMap fun p => [p, []] := by
  by_cases hne : ps = []
  · subst hne
    rfl
  · have hopen : ¬(join "\n\n".toList ps).isEmpty := by simpa using mt h.join_eq_nil_iff.1 hne
    rw [paragraphs, if_neg hopen, splitParagraphs_join hne fun p hp => (h p hp).2]

end Markdown

/-! ### Help text -/

namespace Help

theorem trim_escape_ne_nil (h : Solid s) : trim (escape s) ≠ [] := by
  obtain ⟨⟨c, hc, hspace⟩, -⟩ := h
  exact trim_ne_nil ((sublist_escapeFrom true s).mem (List.mem_of_mem_head? hc)) hspace

theorem not_feed_escape (h : '\n' ∉ s) : '\n' ∉ escape s := by
  intro hmem
  rcases mem_escapeFrom hmem with hslash | hmem
  · cases hslash
  · exact h hmem

theorem description_join (layout : Layout) (h : Plain ps) :
    description layout (join "\n\n".toList ps) = spaced (ps.map fun p => paragraph layout (escape p)) := by
  by_cases hne : ps = []
  · subst hne
    rfl
  · have hopen : ¬(join "\n\n".toList ps).isEmpty := by simpa using mt h.join_eq_nil_iff.1 hne
    have hparts : splitParagraphs (escape (join "\n\n".toList ps)) = ps.map escape := by
      rw [escape_join_paragraphs]
      exact splitParagraphs_join (by simpa using hne)
        (List.forall_mem_map.2 fun p hp => not_feed_escape (h p hp).2)
    have hkept : (ps.map escape).filter (fun p => !(trim p).isEmpty) = ps.map escape :=
      List.filter_eq_self.2 (List.forall_mem_map.2 fun p hp => by simpa using trim_escape_ne_nil (h p hp).1)
    rw [description, if_neg hopen, wrapParagraphs, hparts, hkept, List.map_map]
    rfl

/-- A paragraph fills at least one line, and none of its lines is blank. -/
theorem words_of_mem_paragraph (layout : Layout) (h : Solid s) :
    paragraph layout (escape s) ≠ [] ∧ ∀ line ∈ paragraph layout (escape s), words line ≠ [] := by
  have hwords : words (escape s) ≠ [] := words_ne_nil_of_trim (trim_escape_ne_nil h)
  exact ⟨wrap_ne_nil _ _ _ _, fun line hline => words_ne_nil_of_mem_wrap hwords hline⟩

def heading (layout : Layout) (moduleName : Text) (f : FunctionDoc) : List Text :=
  leftRight (escape (f.call fun p => argument p.name)) (tag (moduleName ++ '.' :: f.name))
    layout.wrapWidth ++
  deprecation layout f.deprecated

def lists (layout : Layout) (f : FunctionDoc) : List Text :=
  members layout "Parameters:".toList (·.name) f.params ++ returnList layout f.returns ++
  noteLines layout f.note

theorem functionBlock_eq (layout : Layout) (moduleName : Text) (f : FunctionDoc) :
    functionBlock layout moduleName f =
      heading layout moduleName f ++ description layout f.description ++ lists layout f := by
  rw [functionBlock, heading, lists]
  simp only [List.append_assoc]

end Help

/-! ### Both formats -/

namespace FunctionDoc

variable {block : Block} {before after : List FunctionDoc}

theorem plain_paragraphs (hblock : block.OneLine) : Plain (Prose.paragraphs (leadingProse block)) := by
  intro p hp
  obtain ⟨hsolid, hline⟩ := Prose.of_mem_paragraphs hp
  exact ⟨hsolid, hline (not_feed_leadingProse hblock)⟩

/-- The description of a function falls into the paragraphs in front of the first tag of its block. In the
block of the function each of them is a line with an empty line after it, or else filled by itself with an
empty line between it and the next. A rendering is made of its blocks and lacks only the empty line at the
end. -/
theorem rendered_paragraphs (hblock : block.OneLine) (signature : Signature) (location : Location)
    (known : Text → Bool) (hothers : ∀ g ∈ before ++ after, g.Trimmed) (registry : Registry) :
    let ps := Prose.paragraphs (leadingProse block)
    let f := (ofBlock block signature location).1.matched known
    let functions := before ++ f :: after
    (f.description ≠ [] → splitParagraphs f.description = ps) ∧
      (f.description = [] → ps = []) ∧
      (∀ p ∈ ps, Solid p ∧ '\n' ∉ p) ∧
      Markdown.functionBlock f = Markdown.heading f ++ ps.flatMap (fun p => [p, []]) ++
        ((Markdown.functionTables f).flatMap Markdown.Table.lines ++ Markdown.noteLines f.note) ∧
      (∀ layout moduleName, Help.functionBlock layout moduleName f = Help.heading layout moduleName f ++
        spaced (ps.map fun p => Help.paragraph layout (Help.escape p)) ++ Help.lists layout f) ∧
      (∀ layout, ∀ p ∈ ps, Help.paragraph layout (Help.escape p) ≠ [] ∧
        ∀ line ∈ Help.paragraph layout (Help.escape p), words line ≠ []) ∧
      ∀ (format : Format) layout moduleName, format.render layout moduleName functions registry ++ [[]] =
        before.flatMap (format.functionLines layout moduleName) ++ (format.functionLines layout moduleName f ++
          after.flatMap (format.functionLines layout moduleName)) ++
            format.typeLines layout (registry.referencedTypes functions) := by
  intro ps f functions
  have hplain : Plain ps := plain_paragraphs hblock
  have hdescription : f.description = join "\n\n".toList ps := description_ofBlock block signature location
  have hall : ∀ g ∈ functions, g.Trimmed := by
    intro g hg
    rcases List.mem_append.1 hg with hg | hg
    · exact hothers g (List.mem_append_left _ hg)
    · rcases List.mem_cons.1 hg with rfl | hg
      · exact trimmed_ofBlock block signature location
      · exact hothers g (List.mem_append_right _ hg)
  refine ⟨fun hne => ?_, fun hnil => ?_, hplain, ?_, fun layout moduleName => ?_,
    fun layout p hp => Help.words_of_mem_paragraph layout (hplain p hp).1, fun format layout moduleName => ?_⟩
  · rw [hdescription] at hne ⊢
    exact splitParagraphs_join (mt hplain.join_eq_nil_iff.2 hne) fun p hp => (hplain p hp).2
  · rw [hdescription] at hnil
    exact hplain.join_eq_nil_iff.1 hnil
  · rw [Markdown.functionBlock_eq, Markdown.opening, hdescription, Markdown.paragraphs_join hplain,
      List.append_assoc]
  · rw [Help.functionBlock_eq, hdescription, Help.description_join layout hplain]
  · have hne : functions ≠ [] := List.append_ne_nil_of_right_ne_nil _ (List.cons_ne_nil _ _)
    rw [format.render_append hne hall, List.flatMap_append, List.flatMap_cons]

/-- Two paragraphs, a variant between the lines of the first and a tag behind the second. -/
theorem rendered_paragraphs_two :
    let block : Block := [⟨.prose [], 1⟩, ⟨.prose "a ".toList, 2⟩, ⟨.variant "1".toList, 3⟩,
      ⟨.prose "b".toList, 4⟩, ⟨.prose [], 5⟩, ⟨.prose "c*".toList, 6⟩, ⟨.tag .hidden [], 7⟩,
      ⟨.prose "d".toList, 8⟩]
    let signature : Signature := ⟨"f".toList, false, false, []⟩
    let f := (ofBlock block signature ⟨"a.lua".toList, 9⟩).1.matched fun _ => false
    let g := (ofBlock [] signature ⟨"a.lua".toList, 1⟩).1
    block.OneLine ∧ (∀ h ∈ [g] ++ [], h.Trimmed) ∧
      splitParagraphs f.description = ["a b".toList, "c*".toList] ∧
      Markdown.functionBlock f =
        Markdown.heading f ++ ["a b".toList, [], "c*".toList, []] ∧
      (∀ moduleName, Help.functionBlock ⟨5, 0⟩ moduleName f = Help.heading ⟨5, 0⟩ moduleName f ++
        ["a b".toList, [], "c\\*".toList]) ∧
      Markdown.render [g, f] .empty ++ [[]] = Markdown.functionBlock g ++ Markdown.functionBlock f := by
  intro block signature f g
  have hblock : block.OneLine := by
    change ∀ l ∈ block, '\n' ∉ l.content.text
    decide
  have hothers : ∀ h ∈ [g] ++ [], h.Trimmed :=
    List.forall_mem_singleton.2 (trimmed_ofBlock [] signature ⟨"a.lua".toList, 1⟩)
  obtain ⟨hsplit, -, -, hmarkdown, hhelp, -, hrender⟩ :=
    rendered_paragraphs hblock signature ⟨"a.lua".toList, 9⟩ (fun _ => false) hothers .empty
  refine ⟨hblock, hothers, hsplit (by decide), hmarkdown, fun moduleName => ?_, ?_⟩
  · have hgroups : (Prose.paragraphs (leadingProse block)).map
        (fun p => Help.paragraph ⟨5, 0⟩ (Help.escape p)) = [["a b".toList], ["c\\*".toList]] := by
      cbv
    have hlists : Help.lists ⟨5, 0⟩ f = [] := rfl
    rw [hhelp, hgroups, hlists, List.append_nil]
    rfl
  · have htypes : Registry.empty.referencedTypes [g, f] = [] := Registry.referencedTypes_of_untyped _ rfl
    have hblocks := hrender .markdown .standard []
    rw [List.cons_append, List.nil_append, htypes] at hblocks
    exact hblocks.trans (by simp [Format.functionLines, Format.typeLines, Markdown.typeTable, f])

end FunctionDoc

/-- A paragraph at the end of everything, without an empty line after it. -/
theorem Markdown.render_ends_in_paragraph :
    let text := "---a\nfunction f() end\n".toList
    let registry := Registry.ofSources [("a.lua".toList, text)]
    let lines := render (registry.exposedFunctions "a.lua".toList) registry
    Prose.paragraphs (FunctionDoc.leadingProse (Block.above (Text.lines text) 1)) = ["a".toList] ∧
      lines = ["### f()".toList, [], "\x60\x60\x60lua".toList, "f()".toList, "\x60\x60\x60".toList, [],
        "a".toList] ∧
      ¬ ["a".toList, []] <:+: lines := by
  let f : FunctionDoc :=
    { name := "f".toList, declaredName := "f".toList, params := [], returns := []
      description := "a".toList, note := none, deprecated := none, generics := []
      visibility := .exposed, location := ⟨"a.lua".toList, 2⟩ }
  have hregistry : Registry.ofSources [("a.lua".toList, "---a\nfunction f() end\n".toList)] =
      ⟨[("a.lua".toList, ⟨[f], []⟩)], [], []⟩ := by
    rw [Registry.ofSources_singleton]
    rfl
  have hfunctions : Registry.exposedFunctions ⟨[("a.lua".toList, ⟨[f], []⟩)], [], []⟩
      "a.lua".toList = [f] := rfl
  have htypes : ∀ registry : Registry, registry.referencedTypes [f] = [] := fun registry =>
    registry.referencedTypes_of_untyped rfl
  have hlines : ∀ registry : Registry, render [f] registry = ["### f()".toList, [],
      "\x60\x60\x60lua".toList, "f()".toList, "\x60\x60\x60".toList, [], "a".toList] := by
    intro registry
    rw [render, htypes]
    rfl
  dsimp only
  rw [hregistry, hfunctions, hlines]
  exact ⟨rfl, rfl, by decide⟩

end LuaDocs
