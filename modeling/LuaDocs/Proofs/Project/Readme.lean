import LuaDocs.Proofs.Marker.Literal
import LuaDocs.Proofs.Project.Updating
import LuaDocs.Proofs.Render.Contents
import LuaDocs.Proofs.Section.Document

/-!
# Updating a README again

An update puts three sections of the README in order, one after another. The first two have fixed bodies
and stay in order once they are. The table of contents lists the headings of the whole README as it is
before it is put in, headings of its own old body included; its new body has none, so it may change once
more, and then it stays.
-/

namespace LuaDocs.Project

open Text Bounds

variable {ls before body after new : List Text} {closed : Bool} {b c : Bounds} {text : Text}

/-! ### The sections of a README -/

def setupBounds : Bounds :=
  ⟨"<!-- Setup -->".toList, "<!-- /Setup -->".toList⟩

def apiBounds : Bounds :=
  ⟨"<!-- API -->".toList, "<!-- /API -->".toList⟩

def contentsBounds : Bounds :=
  ⟨"<!-- TOC -->".toList, "<!-- /TOC -->".toList⟩

def bounds : List Bounds :=
  [setupBounds, apiBounds, contentsBounds]

def sections : List Markers :=
  [setupMarkers, apiMarkers, contentsMarkers]

theorem sections_eq : sections = bounds.map Bounds.markers := rfl

/-- A language in which the markers of a README are matched by the lines that they spell. -/
class LiteralMarkers [MarkerLanguage] : Prop where
  literal : ∀ b ∈ bounds, b.Literal

theorem literal_of_mem [MarkerLanguage] [LiteralMarkers] : ∀ b ∈ bounds, b.Literal :=
  LiteralMarkers.literal

open Standard in
instance : LiteralMarkers where
  literal := by
    simp only [bounds, List.forall_mem_cons]
    exact ⟨⟨compile_of_whole (by decide +kernel), compile_of_whole (by decide +kernel)⟩,
      ⟨compile_of_whole (by decide +kernel), compile_of_whole (by decide +kernel)⟩,
      ⟨compile_of_whole (by decide +kernel), compile_of_whole (by decide +kernel)⟩, nofun⟩

theorem sectioned_sections_iff [MarkerLanguage] [LiteralMarkers] :
    Sectioned sections ls ↔ Placed bounds ls :=
  sectioned_iff literal_of_mem

theorem apart_of_ne : ∀ b ∈ bounds, ∀ c ∈ bounds, b ≠ c → Apart b c := by
  decide

/-- Lines of a README whose sections, as far as it has them, stand apart from each other. -/
structure Readme (ls : List Text) (closed : Bool) : Prop where
  lined : Lined ls closed
  laid : ∀ b ∈ bounds, b.start ∉ ls ∨ ∃ before body after, Cut bounds b ls before body after

def HasBody (b : Bounds) (ls body : List Text) : Prop :=
  ∃ before after, Cut bounds b ls before body after

/-- What becomes of one section leaves the others as they are. -/
def KeepsOthers (b : Bounds) (ls ls' : List Text) : Prop :=
  ∀ c ∈ bounds, c ≠ b →
    (c.start ∉ ls → c.start ∉ ls') ∧ ∀ body, HasBody c ls body → HasBody c ls' body

/-- Lines that can stand in a section. -/
structure Fits (new : List Text) : Prop where
  bare : Bare bounds (linesOf new)
  isLine : ∀ l ∈ linesOf new, IsLine l

namespace Readme

theorem of_sectioned [MarkerLanguage] [LiteralMarkers] (hreturn : '\r' ∉ text)
    (h : Sectioned sections (lines text)) :
    Readme (lines text) (endsWith ['\n'] text) where
  lined := (written_lines hreturn).1
  laid _ hb := (sectioned_sections_iff.1 h).cut hb

theorem withBody (h : Readme ls closed) (hb : b ∈ bounds) (hcut : Cut bounds b ls before body after)
    (hnew : Fits new) :
    Readme (before ++ b.start :: (linesOf new ++ b.stop :: after)) closed ∧
      KeepsOthers b ls (before ++ b.start :: (linesOf new ++ b.stop :: after)) := by
  have hkeeps : KeepsOthers b ls (before ++ b.start :: (linesOf new ++ b.stop :: after)) := by
    intro c hc hne
    refine ⟨hcut.absent hc hnew.bare, ?_⟩
    rintro body' ⟨before', after', hcut'⟩
    exact hcut.other hcut' hb hc (apart_of_ne b hb c hc (Ne.symm hne)) hnew.bare
  refine ⟨⟨hcut.lined h.lined hnew.isLine, fun c hc => ?_⟩, hkeeps⟩
  by_cases hne : c = b
  · subst hne
    exact .inr ⟨_, _, _, hcut.withBody hnew.bare⟩
  · obtain hnone | ⟨before', body', after', hcut'⟩ := h.laid c hc
    · exact .inl ((hkeeps c hc hne).1 hnone)
    · obtain ⟨before'', after'', hcut''⟩ := (hkeeps c hc hne).2 body' ⟨before', after', hcut'⟩
      exact .inr ⟨before'', body', after'', hcut''⟩

end Readme

/-! ### Splices -/

/-- The text with other lines in a section, if it has the section. -/
def spliceAny [MarkerLanguage] (m : Markers) (new : List Text) (text : Text) :
    Except SectionFault Text := do
  if ← Markers.occurs m.start text then m.splice text new else return text

section

variable [MarkerLanguage] [LiteralMarkers]

theorem spliceAny_absent (hb : b ∈ bounds) (hls : Lined ls closed) (h : b.start ∉ ls)
    (new : List Text) :
    spliceAny b.markers new (written ls closed) = .ok (written ls closed) := by
  have hno : (lines (written ls closed)).contains b.start = false := by
    rw [lines_written hls]
    simpa using h
  rw [spliceAny, occurs_eq (literal_of_mem b hb), hno]
  rfl

theorem spliceAny_cut (hb : b ∈ bounds) (hls : Lined ls closed)
    (h : Cut bounds b ls before body after) (new : List Text) :
    spliceAny b.markers new (written ls closed) =
      .ok (written (before ++ b.start :: (linesOf new ++ b.stop :: after)) closed) := by
  have hyes : (lines (written ls closed)).contains b.start = true := by
    rw [lines_written hls, h.eq]
    simp
  rw [spliceAny, occurs_eq (literal_of_mem b hb), hyes, ← h.splice_written hb (literal_of_mem b hb) hls]
  rfl

theorem splice_hasBody (hb : b ∈ bounds) (hls : Lined ls closed) (h : HasBody b ls (linesOf new)) :
    b.markers.splice (written ls closed) new = .ok (written ls closed) := by
  obtain ⟨before, after, hcut⟩ := h
  rw [hcut.splice_written hb (literal_of_mem b hb) hls, ← hcut.eq]

theorem spliceAny_hasBody (hb : b ∈ bounds) (hls : Lined ls closed)
    (h : HasBody b ls (linesOf new)) :
    spliceAny b.markers new (written ls closed) = .ok (written ls closed) := by
  obtain ⟨before, after, hcut⟩ := h
  rw [spliceAny_cut hb hls hcut, ← hcut.eq]

end

/-! ### What an update makes of a text -/

variable {p : Project} {registry : Registry} {options : Option (List Text)} {ls' : List Text}
  {t t₀ t₁ t₂ t₃ : Text}

def setupText [MarkerLanguage] (p : Project) :
    Option (List Text) → Text → Except SectionFault Text
  | none, text => .ok text
  | some options, text => spliceAny setupMarkers (p.readmeSetup options) text

/-- The texts that an update of a README goes through. -/
structure Pass [MarkerLanguage] (p : Project) (registry : Registry) (options : Option (List Text))
    (t₀ t₁ t₂ t₃ : Text) : Prop where
  setup : p.setupText options t₀ = .ok t₁
  api : apiMarkers.splice t₁ (p.readmeApi registry) = .ok t₂
  contents : spliceAny contentsMarkers (readmeContents t₂) t₂ = .ok t₃

/-- The sections with fixed bodies have these bodies. -/
structure Settled (p : Project) (registry : Registry) (options : Option (List Text))
    (ls : List Text) : Prop where
  setup : ∀ o, options = some o →
    setupBounds.start ∉ ls ∨ HasBody setupBounds ls (linesOf (p.readmeSetup o))
  api : HasBody apiBounds ls (linesOf (p.readmeApi registry))

namespace Settled

theorem keep (h : Settled p registry options ls) (hkeeps : KeepsOthers contentsBounds ls ls') :
    Settled p registry options ls' where
  setup o ho := (h.setup o ho).imp (hkeeps setupBounds (by decide) (by decide)).1
    ((hkeeps setupBounds (by decide) (by decide)).2 _)
  api := (hkeeps apiBounds (by decide) (by decide)).2 _ h.api

theorem pass [MarkerLanguage] [LiteralMarkers] (h : Settled p registry options ls)
    (hls : Lined ls closed)
    (hcontents : spliceAny contentsMarkers (readmeContents (written ls closed)) (written ls closed) =
      .ok t) :
    Pass p registry options (written ls closed) (written ls closed) (written ls closed) t where
  setup := by
    cases options with
    | none => rfl
    | some o =>
      obtain hnone | hbody := h.setup o rfl
      · exact spliceAny_absent (b := setupBounds) (by decide) hls hnone _
      · exact spliceAny_hasBody (b := setupBounds) (by decide) hls hbody
  api := splice_hasBody (b := apiBounds) (by decide) hls h.api
  contents := hcontents

end Settled

theorem setup_step [MarkerLanguage] [LiteralMarkers] (h : Readme ls closed)
    (hsetup : ∀ o, options = some o → Fits (p.readmeSetup o))
    (hrun : p.setupText options (written ls closed) = .ok t₁) :
    ∃ ls₁, t₁ = written ls₁ closed ∧ Readme ls₁ closed ∧ KeepsOthers setupBounds ls ls₁ ∧
      ∀ o, options = some o →
        setupBounds.start ∉ ls₁ ∨ HasBody setupBounds ls₁ (linesOf (p.readmeSetup o)) := by
  have hrefl : KeepsOthers setupBounds ls ls := fun _ _ _ => ⟨id, fun _ => id⟩
  have hmem : setupBounds ∈ bounds := by decide
  cases options with
  | none =>
    cases hrun
    exact ⟨ls, rfl, h, hrefl, nofun⟩
  | some o =>
    obtain hnone | ⟨before, body, after, hcut⟩ := h.laid setupBounds hmem
    · have hsame := spliceAny_absent hmem h.lined hnone (p.readmeSetup o)
      cases hsame.symm.trans hrun
      exact ⟨ls, rfl, h, hrefl, fun _ _ => .inl hnone⟩
    · cases (spliceAny_cut hmem h.lined hcut (p.readmeSetup o)).symm.trans hrun
      obtain ⟨hreadme, hkeeps⟩ := h.withBody hmem hcut (hsetup o rfl)
      refine ⟨_, rfl, hreadme, hkeeps, fun o' ho => .inr ?_⟩
      cases ho
      exact ⟨before, after, hcut.withBody (hsetup o rfl).bare⟩

theorem api_step [MarkerLanguage] [LiteralMarkers] (h : Readme ls closed)
    (hapi : Fits (p.readmeApi registry))
    (hrun : apiMarkers.splice (written ls closed) (p.readmeApi registry) = .ok t₂) :
    ∃ ls₂, t₂ = written ls₂ closed ∧ Readme ls₂ closed ∧ KeepsOthers apiBounds ls ls₂ ∧
      HasBody apiBounds ls₂ (linesOf (p.readmeApi registry)) := by
  have hmem : apiBounds ∈ bounds := by decide
  have hlit := literal_of_mem apiBounds hmem
  obtain hnone | ⟨before, body, after, hcut⟩ := h.laid apiBounds hmem
  · cases (splice_absent hlit h.lined hnone (p.readmeApi registry)).symm.trans hrun
  · cases (hcut.splice_written hmem hlit h.lined (p.readmeApi registry)).symm.trans hrun
    obtain ⟨hreadme, hkeeps⟩ := h.withBody hmem hcut hapi
    exact ⟨_, rfl, hreadme, hkeeps, _, _, hcut.withBody hapi.bare⟩

theorem mem_framed {l : Text} : l ∈ framed ls ↔ l = [] ∨ l ∈ ls := by
  simp only [framed, List.cons_append, List.mem_cons, List.mem_append, List.not_mem_nil, or_false]
  tauto

/-- The table of contents of a README can stand in it, and it has no headings. -/
theorem fits_contents (h : Lined ls closed) :
    linesOf (readmeContents (written ls closed)) = framed (Contents.generate ls) ∧
      Fits (readmeContents (written ls closed)) ∧ Contents.Quiet (framed (Contents.generate ls)) := by
  have hisLine : ∀ l ∈ framed (Contents.generate ls), IsLine l := by
    intro l hl
    obtain rfl | hl := mem_framed.1 hl
    · decide
    · exact Contents.isLine_generate h.isLine l hl
  have hlines : linesOf (readmeContents (written ls closed)) = framed (Contents.generate ls) := by
    rw [readmeContents, lines_written h]
    exact linesOf_of_isLine fun l hl => (hisLine l hl).1
  -- A marker opens with an angle bracket, a line of the table with a space or a hyphen.
  have hmark (m : Text) (hm : ∃ s, m = '<' :: s) : m ∉ framed (Contents.generate ls) := by
    obtain ⟨s, rfl⟩ := hm
    intro hmem
    obtain hnil | hmem := mem_framed.1 hmem
    · cases hnil
    · obtain ⟨e, -, he⟩ := List.mem_map.1 hmem
      obtain ⟨c, s', hline, hc⟩ := Contents.line_head e
      cases hline.symm.trans he
      rcases hc with hc | hc <;> cases hc
  have hbounds : ∀ b ∈ bounds, (∃ s, b.start = '<' :: s) ∧ ∃ s, b.stop = '<' :: s := by
    simp only [bounds, List.forall_mem_cons]
    exact ⟨⟨⟨_, rfl⟩, _, rfl⟩, ⟨⟨_, rfl⟩, _, rfl⟩, ⟨⟨_, rfl⟩, _, rfl⟩, nofun⟩
  refine ⟨hlines, ⟨?_, ?_⟩, ?_⟩
  · rw [hlines]
    exact fun b hb => ⟨hmark _ (hbounds b hb).1, hmark _ (hbounds b hb).2⟩
  · rw [hlines]
    exact hisLine
  · intro l hl
    obtain rfl | hl := mem_framed.1 hl
    · exact ⟨rfl, rfl⟩
    · exact Contents.quiet_generate ls l hl

/-- The lines around the table of contents with the one of some lines. -/
def withContents (before after ls : List Text) : List Text :=
  before ++ contentsBounds.start :: (framed (Contents.generate ls) ++ contentsBounds.stop :: after)

theorem contents_step [MarkerLanguage] [LiteralMarkers] (h : Readme ls closed)
    (hcut : Cut bounds contentsBounds ls before body after) :
    spliceAny contentsMarkers (readmeContents (written ls closed)) (written ls closed) =
        .ok (written (withContents before after ls) closed) ∧
      Readme (withContents before after ls) closed ∧
      KeepsOthers contentsBounds ls (withContents before after ls) ∧
      Cut bounds contentsBounds (withContents before after ls) before
        (framed (Contents.generate ls)) after := by
  have hmem : contentsBounds ∈ bounds := by decide
  obtain ⟨hlines, hfits, -⟩ := fits_contents h.lined
  have hsplice := spliceAny_cut hmem h.lined hcut (readmeContents (written ls closed))
  have hreadme := h.withBody hmem hcut hfits
  have hcut' := hcut.withBody hfits.bare
  rw [hlines] at hsplice hreadme hcut'
  exact ⟨hsplice, hreadme.1, hreadme.2, hcut'⟩

/-- The table of contents lists nothing of a quiet body in its own place. -/
theorem generate_withContents (h : Lined ls closed)
    (hcut : Cut bounds contentsBounds ls before body after) (hbody : Contents.Quiet body) :
    Contents.generate (withContents before after ls) = Contents.generate ls := by
  obtain ⟨-, -, hquiet⟩ := fits_contents h
  have happend (ms : List Text) :
      before ++ contentsBounds.start :: (ms ++ contentsBounds.stop :: after) =
        (before ++ [contentsBounds.start]) ++ (ms ++ contentsBounds.stop :: after) := by simp
  rw [withContents, happend, Contents.generate_replace hquiet hbody, ← happend, ← hcut.eq]

/-- After an update only the table of contents may change, and after another one nothing. -/
theorem pass_settles [MarkerLanguage] [LiteralMarkers] (h : Readme ls closed)
    (hsetup : ∀ o, options = some o → Fits (p.readmeSetup o)) (hapi : Fits (p.readmeApi registry))
    (hpass : Pass p registry options (written ls closed) t₁ t₂ t₃) :
    ∃ t₄, Pass p registry options t₃ t₃ t₃ t₄ ∧ Pass p registry options t₄ t₄ t₄ t₄ ∧
      ((∀ body, contentsMarkers.bodyOf (written ls closed) = .ok body → Contents.Quiet body) →
        t₄ = t₃) := by
  obtain ⟨ls₁, rfl, hreadme₁, hkeeps₁, hsetup₁⟩ := setup_step h hsetup hpass.setup
  obtain ⟨ls₂, rfl, hreadme₂, hkeeps₂, hapi₂⟩ := api_step hreadme₁ hapi hpass.api
  have hkeep₂ := hkeeps₂ setupBounds (by decide) (by decide)
  have hsettled₂ : Settled p registry options ls₂ :=
    ⟨fun o ho => (hsetup₁ o ho).imp hkeep₂.1 (hkeep₂.2 _), hapi₂⟩
  have hmem : contentsBounds ∈ bounds := by decide
  obtain hnone | ⟨before₀, body, after₀, hcut₀⟩ := h.laid contentsBounds hmem
  · have hnone₂ : contentsBounds.start ∉ ls₂ :=
      (hkeeps₂ contentsBounds hmem (by decide)).1
        ((hkeeps₁ contentsBounds hmem (by decide)).1 hnone)
    have hsame := spliceAny_absent hmem hreadme₂.lined hnone₂ (readmeContents (written ls₂ closed))
    cases hsame.symm.trans hpass.contents
    have hagain := hsettled₂.pass hreadme₂.lined hsame
    exact ⟨_, hagain, hagain, fun _ => rfl⟩
  -- From here on the table of contents is the only section that changes.
  obtain ⟨before, after, hcut₂⟩ := (hkeeps₂ contentsBounds hmem (by decide)).2 body
    ((hkeeps₁ contentsBounds hmem (by decide)).2 body ⟨before₀, after₀, hcut₀⟩)
  obtain ⟨hsplice₂, hreadme₃, hkeeps₃, hcut₃⟩ := contents_step hreadme₂ hcut₂
  cases hsplice₂.symm.trans hpass.contents
  obtain ⟨hsplice₃, hreadme₄, hkeeps₄, hcut₄⟩ := contents_step hreadme₃ hcut₃
  obtain ⟨hsplice₄, -⟩ := contents_step hreadme₄ hcut₄
  have hsettled₃ := hsettled₂.keep hkeeps₃
  have hsettled₄ := hsettled₃.keep hkeeps₄
  have hgenerate₄ := generate_withContents hreadme₃.lined hcut₃ (fits_contents hreadme₂.lined).2.2
  have hfixed : withContents before after (withContents before after (withContents before after ls₂)) =
      withContents before after (withContents before after ls₂) := by
    rw [withContents, hgenerate₄, ← withContents]
  rw [hfixed] at hsplice₄
  refine ⟨_, hsettled₃.pass hreadme₃.lined hsplice₃, hsettled₄.pass hreadme₄.lined hsplice₄, ?_⟩
  intro hquiet
  have hbody := hquiet body (hcut₀.bodyOf_written hmem (literal_of_mem _ hmem) h.lined)
  have hgenerate₃ := generate_withContents hreadme₂.lined hcut₂ hbody
  have hsame : withContents before after (withContents before after ls₂) =
      withContents before after ls₂ := by
    rw [withContents, hgenerate₃, ← withContents]
  rw [hsame]

end LuaDocs.Project
