import LuaDocs.Proofs.Project.Stopping

/-!
# What an update edits

A README whose sections stand apart is a row of parts, and an update gives some of its sections other
bodies: each step finds its section where it was, whatever the steps before it have put into the others.
The bodies come from the options and the interface, and that of the table of contents from the lines
which the first two steps have made.
-/

namespace LuaDocs.Project

open SectionStore Text Bounds

variable {ls new : List Text} {parts : List Part} {closed : Bool} {b : Bounds} {p : Project}
  {registry : Registry} {options : Option (List Text)} {t t₁ t₂ t₃ : Text}

/-! ### Splices of parts -/

section

variable [MarkerLanguage] [LiteralMarkers]

theorem spliceAny_parted (h : Parted bounds ls parts) (hls : Lined ls closed) (hb : b ∈ bounds)
    (new : List Text) :
    spliceAny b.markers new (written ls closed) =
      .ok (written (edited parts [(b, linesOf new)]) closed) := by
  by_cases hsec : ∃ body, .sec b body ∈ parts
  · obtain ⟨body, hsec⟩ := hsec
    obtain ⟨before, after, hcut, hedited⟩ := h.cut apart_of_ne hsec
    rw [spliceAny_cut hb hls hcut, hedited]
  · have hnone := not_exists.1 hsec
    have habsent := (h.absent apart_of_ne hb (List.Subset.refl parts) hnone).1
    rw [← h.eq] at habsent
    rw [spliceAny_absent hb hls habsent, h.edited_absent hnone]

/-- Where a splice must find its section, the section is among the parts. -/
theorem splice_parted (h : Parted bounds ls parts) (hls : Lined ls closed) (hb : b ∈ bounds)
    (hrun : b.markers.splice (written ls closed) new = .ok t) :
    (∃ body, .sec b body ∈ parts) ∧ t = written (edited parts [(b, linesOf new)]) closed := by
  by_cases hsec : ∃ body, .sec b body ∈ parts
  · refine ⟨hsec, ?_⟩
    obtain ⟨body, hsec⟩ := hsec
    obtain ⟨before, after, hcut, hedited⟩ := h.cut apart_of_ne hsec
    rw [hcut.splice_written hb (literal_of_mem b hb) hls, ← hedited] at hrun
    cases hrun
    rfl
  · have habsent := (h.absent apart_of_ne hb (List.Subset.refl parts) (not_exists.1 hsec)).1
    rw [← h.eq] at habsent
    rw [splice_absent (literal_of_mem b hb) hls habsent] at hrun
    cases hrun

end

/-! ### The edits of an update -/

def setupEdits (p : Project) (options : Option (List Text)) : List (Bounds × List Text) :=
  (options.map fun o => (setupBounds, linesOf (p.readmeSetup o))).toList

/-- The bodies of the first two sections that an update puts in order. -/
def apiEdits (p : Project) (registry : Registry) (options : Option (List Text)) :
    List (Bounds × List Text) :=
  (apiBounds, linesOf (p.readmeApi registry)) :: p.setupEdits options

/-- The bodies of all sections. The table of contents is that of the lines after the first two edits. -/
def contentsEdits (p : Project) (registry : Registry) (options : Option (List Text))
    (parts : List Part) : List (Bounds × List Text) :=
  (contentsBounds, framed (Contents.generate (edited parts (p.apiEdits registry options)))) ::
    p.apiEdits registry options

/-- Parts of a README after some edits. -/
structure Edited (parts : List Part) (edits : List (Bounds × List Text)) (closed : Bool) : Prop where
  parted : Parted bounds (edited parts edits) (parts.map (Part.withBodies edits))
  lined : Lined (edited parts edits) closed

theorem Edited.start (h : Parted bounds ls parts) (hls : Lined ls closed) :
    edited parts [] = ls ∧ Edited parts [] closed := by
  have hedited : edited parts [] = ls := by rw [edited_nil, h.eq]
  refine ⟨hedited, ?_, ?_⟩
  · rwa [hedited, map_withBodies_nil]
  · rwa [hedited]

theorem Edited.cons {edits : List (Bounds × List Text)} (h : Edited parts edits closed)
    (hnew : Fits new) (b : Bounds) : Edited parts ((b, linesOf new) :: edits) closed := by
  have hparted := h.parted.withBody b hnew.bare
  have hlined := h.parted.lined (b := b) apart_of_ne h.lined hnew.isLine
  rw [edited_map_withBodies] at hparted hlined
  rw [map_withBodies] at hparted
  exact ⟨hparted, hlined⟩

theorem bne_written {ls ms : List Text} (hls : Lined ls closed) (hms : Lined ms closed) :
    (written ls closed != written ms closed) = true ↔ ls ≠ ms := by
  rw [bne_iff_ne, not_iff_not]
  refine ⟨fun h => ?_, congrArg (written · closed)⟩
  rw [← lines_written hls, h, lines_written hms]

section

variable [MarkerLanguage] [LiteralMarkers]

theorem setup_edits (h : Edited parts [] closed)
    (hsetup : ∀ o, options = some o → Fits (p.readmeSetup o))
    (hrun : p.setupText options (written (edited parts []) closed) = .ok t) :
    t = written (edited parts (p.setupEdits options)) closed ∧
      Edited parts (p.setupEdits options) closed := by
  cases options with
  | none =>
    cases hrun
    exact ⟨rfl, h⟩
  | some o =>
    have hsplice := spliceAny_parted (b := setupBounds) h.parted h.lined (by decide) (p.readmeSetup o)
    rw [edited_map_withBodies] at hsplice
    cases hsplice.symm.trans hrun
    exact ⟨rfl, h.cons (hsetup o rfl) setupBounds⟩

theorem api_edits (h : Edited parts (p.setupEdits options) closed)
    (hapi : Fits (p.readmeApi registry))
    (hrun : apiMarkers.splice (written (edited parts (p.setupEdits options)) closed)
      (p.readmeApi registry) = .ok t) :
    (∃ body, .sec apiBounds body ∈ parts) ∧
      t = written (edited parts (p.apiEdits registry options)) closed ∧
      Edited parts (p.apiEdits registry options) closed := by
  obtain ⟨⟨body, hbody⟩, rfl⟩ := splice_parted (b := apiBounds) h.parted h.lined (by decide) hrun
  refine ⟨?_, ?_, h.cons hapi apiBounds⟩
  · obtain ⟨part, hpart, heq⟩ := List.mem_map.1 hbody
    cases part with
    | line text => cases heq
    | sec c body' =>
      cases heq
      exact ⟨body', hpart⟩
  · rw [edited_map_withBodies]
    rfl

theorem contents_edits (h : Edited parts (p.apiEdits registry options) closed)
    (hrun : spliceAny contentsMarkers
        (readmeContents (written (edited parts (p.apiEdits registry options)) closed))
        (written (edited parts (p.apiEdits registry options)) closed) = .ok t) :
    t = written (edited parts (p.contentsEdits registry options parts)) closed ∧
      Edited parts (p.contentsEdits registry options parts) closed := by
  obtain ⟨hlines, hfits, -⟩ := fits_contents h.lined
  have hsplice := spliceAny_parted (b := contentsBounds) h.parted h.lined (by decide)
    (readmeContents (written (edited parts (p.apiEdits registry options)) closed))
  have hedited := h.cons hfits contentsBounds
  rw [edited_map_withBodies, hlines] at hsplice
  rw [hlines] at hedited
  cases hsplice.symm.trans hrun
  exact ⟨rfl, hedited⟩

/-- An update of a README edits the bodies of its sections and nothing else, and it answers whether one
of its edits has changed the lines that it found. -/
theorem updateReadme_edits {σ : Type} [SectionStore σ] [LawfulStore σ] {store store' : σ}
    {text : Text} {changed : Bool} (hread : read store p.readme = .ok text) (hreturn : '\r' ∉ text)
    (hsections : Sectioned sections (lines text))
    (hsetup : ∀ o, p.optionsIn (files store) = .ok (some o) → Unmarked sections (p.readmeSetup o))
    (hapi : Unmarked sections (p.readmeApi registry))
    (hrun : runOn (p.updateReadme registry) store = (.ok changed, store')) :
    ∃ options parts text', p.optionsIn (files store) = .ok options ∧
      Parted bounds (lines text) parts ∧ (∃ body, .sec apiBounds body ∈ parts) ∧
      read store' p.readme = .ok text' ∧
      text' = written (edited parts (p.contentsEdits registry options parts))
        (endsWith ['\n'] text) ∧
      lines text' = edited parts (p.contentsEdits registry options parts) ∧
      endsWith ['\n'] text' = endsWith ['\n'] text ∧
      (changed = true ↔
        edited parts (p.setupEdits options) ≠ lines text ∨
        edited parts (p.apiEdits registry options) ≠ edited parts (p.setupEdits options) ∨
        edited parts (p.contentsEdits registry options parts) ≠
          edited parts (p.apiEdits registry options)) := by
  cases hoptions : p.optionsIn (files store) with
  | error e =>
    rw [runOn_updateReadme_error store hoptions] at hrun
    cases hrun
  | ok options =>
    rw [runOn_updateReadme_ok store hoptions] at hrun
    obtain ⟨t₁, t₂, t₃, hpass, rfl, hcarried⟩ := pass_of_updateWith hread hrun
    have hread' := hcarried.read
    obtain ⟨hlined, htext⟩ := written_lines hreturn
    obtain ⟨parts, hparts⟩ :=
      exists_parted (neat_of_placed (sectioned_sections_iff.1 hsections)) apart_of_ne
    obtain ⟨hedited, hstart⟩ := Edited.start hparts hlined
    have hfits : ∀ o, options = some o → Fits (p.readmeSetup o) :=
      fun o ho => fits_of_unmarked (hsetup o (ho ▸ hoptions))
    -- The README as it was found is made of its parts before any edit.
    have hpass' := hpass
    rw [← htext, ← hedited] at hpass'
    obtain ⟨rfl, h₁⟩ := setup_edits hstart hfits hpass'.setup
    obtain ⟨hsec, rfl, h₂⟩ := api_edits h₁ (fits_of_unmarked hapi) hpass'.api
    obtain ⟨rfl, h₃⟩ := contents_edits h₂ hpass'.contents
    refine ⟨options, parts, _, rfl, hparts, hsec, hread', rfl, lines_written h₃.lined,
      endsWith_written h₃.lined, ?_⟩
    have hchanged := bne_written h₁.lined hlined
    rw [htext] at hchanged
    rw [Bool.or_eq_true, Bool.or_eq_true, hchanged, bne_written h₂.lined h₁.lined,
      bne_written h₃.lined h₂.lined, or_assoc]

end

/-! ### A README with all sections -/

def fullLines (setup contents api : List Text) : List Text :=
  setupBounds.start :: (setup ++ setupBounds.stop :: contentsBounds.start ::
    (contents ++ contentsBounds.stop :: "## Use".toList :: apiBounds.start ::
      (api ++ [apiBounds.stop])))

section

open scoped Standard

theorem sectioned_fullLines : Sectioned sections (fullLines [] [] []) := by
  have hapi : Parted bounds (apiBounds.start :: ([] ++ [apiBounds.stop])) [.sec apiBounds []] :=
    Parted.nil.cons_sec (by decide) (by decide) (by decide)
  have hline : Bare bounds ["## Use".toList] := by decide +kernel
  have hcontents := (hapi.cons_line hline).cons_sec (b := contentsBounds) (by decide)
    (show Bare bounds [] by decide) (by decide +kernel)
  have hsetup := hcontents.cons_sec (b := setupBounds) (by decide)
    (show Bare bounds [] by decide) (by decide +kernel)
  exact sectioned_sections_iff.2 (hsetup.placed apart_of_ne (by decide))

theorem runOn_fullLines {σ : Type} [SectionStore σ] [LawfulStore σ] {store : σ}
    (hread : read store configured.readme = .ok (written (fullLines [] [] []) true))
    (hoptions : configured.optionsIn (files store) = .ok (some ["  a = 1,".toList]))
    (htakes : Takes store configured.readme) :
    ∃ store', runOn (configured.updateReadme .empty) store = (.ok true, store') := by
  let setup := configured.readmeSetup ["  a = 1,".toList]
  have hpass : Pass configured .empty (some ["  a = 1,".toList])
      (written (fullLines [] [] []) true) (written (fullLines setup [] []) true)
      (written (fullLines setup [] [[], []]) true)
      (written (fullLines setup [[], "- [Use](#use)".toList, []] [[], []]) true) :=
    ⟨by decide +kernel, by decide +kernel, by decide +kernel⟩
  obtain ⟨store', hrun, -⟩ := runOn_updateWith_pass hread hpass (.inl htakes)
  rw [← runOn_updateReadme_ok store hoptions] at hrun
  have hchanged : (written (fullLines setup [] []) true != written (fullLines [] [] []) true) = true := by
    decide +kernel
  rw [hchanged] at hrun
  exact ⟨store', hrun⟩

/-- On a disk and on a draft alike, all three sections get their bodies. -/
theorem updateReadme_edits_full :
    let disk := configuredDisk (written (fullLines [] [] []) true)
    let draft := Draft.ofFiles disk.files
    ∃ disk' draft', runOn (configured.updateReadme .empty) disk = (.ok true, disk') ∧
      runOn (configured.updateReadme .empty) draft = (.ok true, draft') ∧
      (∃ options parts text, read disk' configured.readme = .ok text ∧
        lines text = edited parts (configured.contentsEdits .empty options parts)) ∧
      ∃ options parts text, read draft' configured.readme = .ok text ∧
        lines text = edited parts (configured.contentsEdits .empty options parts) := by
  intro disk draft
  have hdisk : read disk configured.readme = .ok (written (fullLines [] [] []) true) := by
    decide +kernel
  have hdraft : read draft configured.readme = .ok (written (fullLines [] [] []) true) := by
    decide +kernel
  have hoptions : configured.optionsIn disk.files = .ok (some ["  a = 1,".toList]) := by
    decide +kernel
  have htakes : Takes disk configured.readme := (Disk.takes_iff _ _).2 fun _ => ⟨_, rfl⟩
  have hreturn : '\r' ∉ written (fullLines [] [] []) true := by decide +kernel
  have hlines : lines (written (fullLines [] [] []) true) = fullLines [] [] [] := by decide +kernel
  have hsections := hlines ▸ sectioned_fullLines
  have hsetup : ∀ o, configured.optionsIn disk.files = .ok (some o) →
      Unmarked sections (configured.readmeSetup o) := by
    intro o ho
    cases hoptions.symm.trans ho
    exact (unmarked_iff literal_of_mem).2 ⟨by decide +kernel, by decide +kernel⟩
  have hapi : Unmarked sections (configured.readmeApi .empty) :=
    (unmarked_iff literal_of_mem).2 ⟨by decide +kernel, by decide +kernel⟩
  obtain ⟨disk', hrun⟩ := runOn_fullLines hdisk hoptions htakes
  obtain ⟨draft', hrun'⟩ := runOn_fullLines hdraft hoptions fun _ => ⟨_, rfl⟩
  obtain ⟨options, parts, text, -, -, -, hread, -, hedited, -⟩ :=
    updateReadme_edits hdisk hreturn hsections hsetup hapi hrun
  obtain ⟨options', parts', text', -, -, -, hread', -, hedited', -⟩ :=
    updateReadme_edits hdraft hreturn hsections hsetup hapi hrun'
  exact ⟨disk', draft', hrun, hrun', ⟨options, parts, text, hread, hedited⟩,
    options', parts', text', hread', hedited'⟩

end

end LuaDocs.Project
