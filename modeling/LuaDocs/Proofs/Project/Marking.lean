import LuaDocs.Proofs.Project.Repeating
import LuaDocs.Proofs.Registry.Order
import LuaDocs.Proofs.Render.Framing
import LuaDocs.Proofs.Section.Splicing

/-!
# Markers among generated lines

The section that documents an interface stands between two lines of the README, so a line of it that is
a marker would end it early or open another one. Headings, tables, code and notes cannot be markers,
whatever names, types and remarks they hold. A paragraph of a description goes into the section as it is
written, though, and it may be any line.
-/

namespace LuaDocs

open Text

/-! ### Finding a section again -/

section

variable [MarkerLanguage] {ls : List Text} {b : Bounds} {split : SectionSplit}

namespace Bounds

/-- A section with a new body is found again, with this body, if and only if none of its lines marks the
end of the section. -/
theorem ofLines_withBody (hb : b.Literal) (h : SectionSplit.ofLines b.markers ls = .ok split)
    (new : List Text) :
    SectionSplit.ofLines b.markers (split.withBody new) = .ok { split with body := new } ↔
      b.stop ∉ new := by
  have hstart := compile_start hb
  have hstop := compile_stop hb
  obtain ⟨hbetween, -⟩ := (SectionSplit.ofLines_of_compile hstart hstop).1 h
  rw [SectionSplit.ofLines_of_compile hstart hstop]
  constructor
  · rintro ⟨hagain, -⟩ hmem
    exact absurd (hagain.inside _ hmem) (by simp)
  · intro hnew
    exact ⟨hbetween.withBody (beq_eq_false_of_not_mem hnew), rfl⟩

end Bounds

end

/-! ### Lines of the interface -/

namespace Markdown

variable {functions : List FunctionDoc} {registry : Registry} {f : FunctionDoc} {line : Text} {c : Char}

/-- The line is a comment of HTML and no call, as every marker is. -/
def Remark (line : Text) : Prop :=
  ∃ s, line = '<' :: '!' :: s ∧ '(' ∉ s

theorem Remark.ne_nil (h : Remark line) : line ≠ [] := by
  obtain ⟨s, rfl, -⟩ := h
  exact List.cons_ne_nil _ _

theorem Remark.not_mem_opened {ls : List Text} (h : Remark line) (hls : Opened c ls) (hc : c ≠ '<') :
    line ∉ ls := by
  intro hmem
  obtain ⟨s, rfl, -⟩ := h
  obtain hnil | ⟨t, ht⟩ := hls _ hmem
  · cases hnil
  · cases ht
    exact hc rfl

theorem Remark.ne_usage (h : Remark line) : line ≠ usage f := by
  obtain ⟨s, rfl, hcall⟩ := h
  intro heq
  have hmem : '(' ∈ usage f := by simp [usage, FunctionDoc.call]
  rw [← heq] at hmem
  simp only [List.mem_cons] at hmem
  rcases hmem with hmem | hmem | hmem
  · cases hmem
  · cases hmem
  · exact hcall hmem

/-- Only a paragraph of its description can be a remark in the block of a function. -/
theorem mem_functionBlock (h : Remark line) :
    line ∈ functionBlock f ↔ line ∈ splitParagraphs f.description := by
  have hframe : line ∉ ["### ".toList ++ f.call (·.name), [], "\x60\x60\x60lua".toList, usage f,
      "\x60\x60\x60".toList, []] := by
    have husage := h.ne_usage (f := f)
    obtain ⟨s, rfl, -⟩ := h
    simp [husage]
  have hnote : line ∉ noteLines f.note := by
    intro hmem
    obtain ⟨s, rfl, -⟩ := h
    rcases mem_noteLines hmem List.mem_cons_self with heq | heq <;> cases heq
  have hdeprecation := h.not_mem_opened (opened_deprecation f.deprecated) (by decide)
  have hparams := h.not_mem_opened (opened_paramTable f.params) (by decide)
  have hreturns := h.not_mem_opened (opened_returnTable f.returns) (by decide)
  simp only [functionBlock, List.mem_append, hframe, hdeprecation, hparams, hreturns, hnote, false_or,
    or_false]
  exact mem_paragraphs h.ne_nil

theorem mem_render (h : Remark line) :
    line ∈ render functions registry ↔ ∃ f ∈ functions, line ∈ splitParagraphs f.description := by
  have htypes : line ∉ typeTable (registry.referencedTypes functions) := by
    obtain hnone | ⟨rows, htable, hrows⟩ := typeTable_eq (registry.referencedTypes functions)
    · rw [hnone]
      exact List.not_mem_nil
    · rw [htable, List.mem_cons, not_or]
      refine ⟨?_, h.not_mem_opened hrows (by decide)⟩
      obtain ⟨s, rfl, -⟩ := h
      exact nofun
  rw [render, mem_dropTrailingEmpty h.ne_nil, List.mem_append, or_iff_left htypes, List.mem_flatMap]
  exact exists_congr fun f => and_congr_right fun _ => mem_functionBlock h

end Markdown

namespace Project

open Bounds

variable {marker line : Text} {m : Markers}

section

variable [MarkerLanguage] [LiteralMarkers]

theorem remark_of_matches (hm : m ∈ sections) (hmarker : marker ∈ [m.start, m.stop])
    (h : Matches marker line) : Markdown.Remark line := by
  have hremarks : ∀ b ∈ bounds, Markdown.Remark b.start ∧ Markdown.Remark b.stop := by
    simp only [bounds, List.forall_mem_cons]
    exact ⟨⟨⟨_, rfl, by decide⟩, _, rfl, by decide⟩, ⟨⟨_, rfl, by decide⟩, _, rfl, by decide⟩,
      ⟨⟨_, rfl, by decide⟩, _, rfl, by decide⟩, List.forall_mem_nil _⟩
  rw [sections_eq] at hm
  obtain ⟨b, hb, rfl⟩ := List.mem_map.1 hm
  have hlit := literal_of_mem b hb
  rw [List.mem_cons, List.mem_singleton] at hmarker
  rcases hmarker with rfl | rfl
  · rw [(matches_start hlit line).1 h]
    exact (hremarks b hb).1
  · rw [(matches_stop hlit line).1 h]
    exact (hremarks b hb).2

/-- The only generated lines that can be markers are the paragraphs of descriptions, and every one of
these is a generated line. So a README with the generated section has it in the same place with the same
lines exactly if no paragraph marks the end of the section. -/
theorem markers_readmeApi (p : Project) (registry : Registry) :
    (∀ m ∈ sections, ∀ marker ∈ [m.start, m.stop], ∀ line, Matches marker line →
      (line ∈ p.readmeApi registry ↔
        ∃ f ∈ p.apiFunctions registry, line ∈ splitParagraphs f.description)) ∧
      ∀ ls split, SectionSplit.ofLines apiMarkers ls = .ok split →
        (SectionSplit.ofLines apiMarkers (split.withBody (p.readmeApi registry)) =
            .ok { split with body := p.readmeApi registry } ↔
          ∀ f ∈ p.apiFunctions registry, ∀ line ∈ splitParagraphs f.description,
            ¬Matches apiMarkers.stop line) := by
  have hlines : ∀ m ∈ sections, ∀ marker ∈ [m.start, m.stop], ∀ line, Matches marker line →
      (line ∈ p.readmeApi registry ↔
        ∃ f ∈ p.apiFunctions registry, line ∈ splitParagraphs f.description) := by
    intro m hm marker hmarker line h
    have hremark := remark_of_matches hm hmarker h
    rw [readmeApi, mem_framed, or_iff_right hremark.ne_nil]
    exact Markdown.mem_render hremark
  refine ⟨hlines, fun ls split hsplit => ?_⟩
  have hlit := literal_of_mem apiBounds (by decide)
  have hstop : Matches apiBounds.markers.stop apiBounds.stop := (matches_stop hlit _).2 rfl
  have hmem := hlines apiBounds.markers (by decide) _ (by decide) _ hstop
  change SectionSplit.ofLines apiBounds.markers _ = _ ↔ ∀ f ∈ _, ∀ line ∈ _,
    ¬Matches apiBounds.markers.stop line
  rw [ofLines_withBody hlit hsplit, hmem]
  simp only [matches_stop hlit]
  constructor
  · intro hnone f hf line hline heq
    exact hnone ⟨f, hf, heq ▸ hline⟩
  · rintro hall ⟨f, hf, hline⟩
    exact hall f hf _ hline rfl

end

section

open scoped Standard

def describedText (description : Text) : Text :=
  "---".toList ++ description ++ "\nfunction f() end\n".toList

/-- A function with an ordinary description: the section with its documentation is found again. -/
theorem markers_readmeApi_plain :
    let body := sample.readmeApi (.ofSources [(sample.apiFile, describedText "An API.".toList)])
    ∃ split, SectionSplit.ofLines apiMarkers [apiBounds.start, apiBounds.stop] = .ok split ∧
      SectionSplit.ofLines apiMarkers (split.withBody body) = .ok { split with body } := by
  intro body
  have hfunctions : sample.apiFunctions
      (.ofSources [(sample.apiFile, describedText "An API.".toList)]) =
        [plainFunction "f".toList "An API.".toList 2] := by
    rw [Registry.ofSources_singleton]
    rfl
  have hsplit : SectionSplit.ofLines apiMarkers [apiBounds.start, apiBounds.stop] =
      .ok ⟨[apiBounds.start], [], [apiBounds.stop]⟩ := by decide +kernel
  refine ⟨_, hsplit, ((markers_readmeApi sample _).2 _ _ hsplit).2 fun f hf line hline => ?_⟩
  rw [hfunctions, List.mem_singleton] at hf
  have hparagraphs : splitParagraphs "An API.".toList = ["An API.".toList] := by decide +kernel
  rw [hf, plainFunction, hparagraphs, List.mem_singleton] at hline
  rw [hline]
  decide +kernel

theorem readmeApi_marked :
    sample.readmeApi (.ofSources [(sample.apiFile, describedText apiBounds.stop)]) =
      [[], "### f()".toList, [], "\x60\x60\x60lua".toList, "f()".toList, "\x60\x60\x60".toList, [],
        apiBounds.stop, []] := by
  have hregistry : Registry.ofSources [(sample.apiFile, describedText apiBounds.stop)] =
      sampleRegistry [plainFunction "f".toList apiBounds.stop 2] := by
    rw [Registry.ofSources_singleton]
    rfl
  rw [hregistry, readmeApi_sampleRegistry rfl rfl]
  rfl

/-- A function that is described by the line that ends the section of the interface: a README with the
section is split in another place when it is read again. -/
theorem markers_readmeApi_marked :
    let body := sample.readmeApi (.ofSources [(sample.apiFile, describedText apiBounds.stop)])
    ¬(∀ m ∈ sections, ∀ marker ∈ [m.start, m.stop], ∀ line ∈ body, ¬Matches marker line) ∧
      ∃ split, SectionSplit.ofLines apiMarkers [apiBounds.start, apiBounds.stop] = .ok split ∧
        SectionSplit.ofLines apiMarkers (split.withBody body) ≠ .ok { split with body } := by
  have hlit := literal_of_mem apiBounds (by decide)
  have hsplit : SectionSplit.ofLines apiBounds.markers
      ([] ++ apiBounds.start :: ([] ++ apiBounds.stop :: [])) =
        .ok ⟨[] ++ [apiBounds.start], [], [apiBounds.stop]⟩ :=
    ofLines_eq hlit List.not_mem_nil List.not_mem_nil
  dsimp only
  rw [readmeApi_marked]
  constructor
  · intro hnone
    exact hnone apiMarkers (by decide) _ (by decide) apiBounds.stop (by decide)
      ((matches_stop hlit _).2 rfl)
  · refine ⟨_, hsplit, fun hsame => ?_⟩
    exact absurd ((ofLines_withBody hlit hsplit _).1 hsame) (by decide)

end

end Project

end LuaDocs
