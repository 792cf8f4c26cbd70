import LuaDocs.Proofs.Project.Stepping
import LuaDocs.Proofs.Render.Reachable
import LuaDocs.Proofs.Section.Parts

/-!
# Repeated updates on the disk

An update on the disk takes the text of the README through the texts of a pass and leaves every other
file alone. So what is known of passes holds of runs: the run after an update changes at most the table
of contents, and the run after that changes nothing.
-/

namespace LuaDocs.Project

open Text

variable {fs fs' fs'' : FileSystem} {disk disk' : Disk} {path : Path} {body : List Text}
  {old new t t₀ t₁ t₂ t₃ : Text} {p : Project} {registry : Registry} {options : Option (List Text)}

/-- A file system in which one file has got a text, and nothing else has changed. -/
structure Rewritten (fs : FileSystem) (path : Path) (new : Text) (fs' : FileSystem) : Prop
    extends Spared fs path fs' where
  reads : fs'.readText path = .ok new

theorem Rewritten.trans (h : Rewritten fs path old fs') (h' : Rewritten fs' path new fs'') :
    Rewritten fs path new fs'' :=
  ⟨h.toSpared.trans h'.toSpared, h'.reads⟩

section

variable [MarkerLanguage]

/-- An update of the README changes no other file. -/
theorem rewritten_of_carried {answer : Except SectionError Bool} {changed : Bool}
    (hrun : runOn (p.updateWith registry options) disk = (answer, disk'))
    (hcarried : Carried p.readme disk changed t disk') :
    Rewritten disk.files p.readme t disk'.files := by
  have hspared := confined_updateWith p registry options disk
  rw [hrun] at hspared
  exact ⟨hspared, hcarried.read⟩

theorem optionsIn_eq (h : Rewritten fs p.readme new fs')
    (hsource : ∀ source, p.options = some source → ¬fs.SameFile p.readme source.file) :
    p.optionsIn fs' = p.optionsIn fs := by
  rw [optionsIn, optionsIn]
  cases hoptions : p.options with
  | none => rfl
  | some source => simp only [h.others source.file (hsource source hoptions)]

theorem fits_of_unmarked [LiteralMarkers] (h : Unmarked sections body) : Fits body :=
  let ⟨hbare, hreturn⟩ := (Bounds.unmarked_iff literal_of_mem).1 (sections_eq ▸ h)
  ⟨hbare, fun l hl => ⟨not_mem_of_mem_linesOf hl, hreturn l hl⟩⟩

/-- An update of a README repeated. If an update succeeds, so does the next one, and the one after it
changes nothing; and the next one changes nothing already if there was no heading and no fence of a block
of code in the table of contents before the first. -/
theorem updateReadme_again [LiteralMarkers] {text : Text} {changed : Bool} {disk₁ : Disk}
    (hread : disk.files.readText p.readme = .ok text) (hreturn : '\r' ∉ text)
    (hsource : ∀ source, p.options = some source → ¬disk.files.SameFile p.readme source.file)
    (hsections : Sectioned sections (lines text))
    (hsetup : ∀ o, p.optionsIn disk.files = .ok (some o) → Unmarked sections (p.readmeSetup o))
    (hapi : Unmarked sections (p.readmeApi registry))
    (hrun : runOn (p.updateReadme registry) disk = (.ok changed, disk₁)) :
    ∃ again disk₂ disk₃,
      runOn (p.updateReadme registry) disk₁ = (.ok again, disk₂) ∧
        runOn (p.updateReadme registry) disk₂ = (.ok false, disk₃) ∧ disk₃.files = disk₂.files ∧
        ((∀ body, contentsMarkers.bodyOf text = .ok body → Contents.Quiet body) →
          again = false ∧ disk₂.files = disk₁.files) := by
  cases hoptions : p.optionsIn disk.files with
  | error e =>
    rw [runOn_updateReadme_error disk hoptions] at hrun
    cases hrun
  | ok options =>
    rw [runOn_updateReadme_ok disk hoptions] at hrun
    obtain ⟨t₁, t₂, t₃, hpass, hchanged, hcarried⟩ := pass_of_updateWith hread hrun
    have hto₁ := rewritten_of_carried hrun hcarried
    have htext := (written_lines hreturn).2
    have hfits : ∀ o, options = some o → Fits (p.readmeSetup o) :=
      fun o ho => fits_of_unmarked (hsetup o (ho ▸ hoptions))
    have hpass' := hpass
    rw [← htext] at hpass'
    obtain ⟨t₄, hpass₁, hpass₂, hquiet⟩ :=
      pass_settles (Readme.of_sectioned hreturn hsections) hfits (fits_of_unmarked hapi) hpass'
    rw [htext] at hquiet
    -- Where the first update has put nothing into the README, the next one puts nothing there either.
    have htakes : SectionStore.read disk₁ p.readme = .ok t₃ ∧
        (Takes disk₁ p.readme ∨ t₃ = t₃ ∧ t₃ = t₃ ∧ t₄ = t₃) := by
      refine ⟨hcarried.read, ?_⟩
      cases changed with
      | true => exact .inl (hcarried.takes rfl).2
      | false =>
        have hsame : t₃ = t₂ := by
          have hnot := (Bool.or_eq_false_iff.1 hchanged.symm).2
          exact bne_eq_false_iff_eq.1 hnot
        have hcontents := hpass.contents
        rw [← hsame, hpass₁.contents] at hcontents
        exact .inr ⟨rfl, rfl, Except.ok.inj hcontents⟩
    obtain ⟨disk₂, hrun₂, hcarried₂⟩ := runOn_updateWith_pass htakes.1 hpass₁ htakes.2
    have hto₂ := rewritten_of_carried hrun₂ hcarried₂
    obtain ⟨disk₃, hrun₃, hcarried₃⟩ :=
      runOn_updateWith_pass hcarried₂.read hpass₂ (.inr ⟨rfl, rfl, rfl⟩)
    have hoptions₁ := (optionsIn_eq hto₁ hsource).trans hoptions
    have hoptions₂ := (optionsIn_eq (hto₁.trans hto₂) hsource).trans hoptions
    rw [← runOn_updateReadme_ok disk₁ hoptions₁] at hrun₂
    rw [← runOn_updateReadme_ok disk₂ hoptions₂, bne_self_eq_false] at hrun₃
    have hsame₃ := (hcarried₃.noted (by simp)).files_eq
    refine ⟨_, disk₂, disk₃, hrun₂, hrun₃, hsame₃, fun hbody => ?_⟩
    obtain rfl := hquiet hbody
    exact ⟨by simp, (hcarried₂.noted (by simp)).files_eq⟩

end

/-! ### A README with a table of contents and an interface -/

def sampleLines (contents api : List Text) : List Text :=
  contentsBounds.start :: contents ++ contentsBounds.stop :: apiBounds.start :: api ++ [apiBounds.stop]

def sampleDisk (contents api : List Text) : Disk :=
  ⟨.ofEntries [(["README.md".toList], .file (.text (written (sampleLines contents api) true)))], []⟩

def sample : Project where
  root := ['.']
  moduleName := "demo".toList
  sourceDir := "./lua".toList
  apiFile := "demo/init.lua".toList
  readme := "README.md".toList
  helpFile := "doc/demo.txt".toList
  options := none
  exclude := []
  denyWarnings := false
  layout := .standard

section

open scoped Standard

theorem sectioned_sampleLines {l : Text} (hl : Bounds.Bare bounds [l]) :
    Sectioned sections (sampleLines [l] []) := by
  have hapi : Parted bounds (apiBounds.start :: ([] ++ [apiBounds.stop])) [.sec apiBounds []] :=
    Parted.nil.cons_sec (by decide) (by decide) (by decide)
  have hparts : Parted bounds (contentsBounds.start :: ([l] ++ contentsBounds.stop ::
      apiBounds.start :: ([] ++ [apiBounds.stop]))) [.sec contentsBounds [l], .sec apiBounds []] :=
    hapi.cons_sec (by decide) hl (by decide)
  exact sectioned_sections_iff.2 (hparts.placed apart_of_ne (by decide))

theorem unmarked_sample : Unmarked sections (sample.readmeApi .empty) :=
  (Bounds.unmarked_iff literal_of_mem).2 ⟨by decide +kernel, by decide +kernel⟩

theorem runOn_sample {disk : Disk} (hread : disk.files.readText sample.readme = .ok t)
    (h : Pass sample .empty none t t t₂ t₃) (htakes : Takes disk sample.readme) :
    ∃ disk', runOn (sample.updateReadme .empty) disk =
        (.ok ((t₂ != t) || (t₃ != t₂)), disk') ∧
      Carried sample.readme disk ((t != t) || (t₂ != t) || (t₃ != t₂)) t₃ disk' := by
  obtain ⟨disk', hrun, hcarried⟩ := runOn_updateWith_pass hread h (.inl htakes)
  refine ⟨disk', ?_, hcarried⟩
  have hoptions : sample.optionsIn disk.files = .ok none := rfl
  rw [runOn_updateReadme_ok disk hoptions, hrun, bne_self_eq_false]
  rfl

theorem takes_sampleDisk (contents api : List Text) : Takes (sampleDisk contents api) sample.readme :=
  (Disk.takes_iff _ _).2 fun _ => ⟨_, rfl⟩

/-- A table of contents with a line that is no heading is settled by one update. -/
theorem updateReadme_again_plain :
    ∃ disk₁ disk₂,
      runOn (sample.updateReadme .empty) (sampleDisk ["none yet".toList] []) = (.ok true, disk₁) ∧
        runOn (sample.updateReadme .empty) disk₁ = (.ok false, disk₂) ∧
        disk₂.files = disk₁.files := by
  have hread : (sampleDisk ["none yet".toList] []).files.readText sample.readme =
      .ok (written (sampleLines ["none yet".toList] []) true) := by decide +kernel
  have hpass : Pass sample .empty none (written (sampleLines ["none yet".toList] []) true)
      (written (sampleLines ["none yet".toList] []) true)
      (written (sampleLines ["none yet".toList] [[], []]) true)
      (written (sampleLines [[], []] [[], []]) true) :=
    ⟨rfl, by decide +kernel, by decide +kernel⟩
  obtain ⟨disk₁, hrun, -⟩ := runOn_sample hread hpass (takes_sampleDisk _ _)
  have hbody : contentsMarkers.bodyOf (written (sampleLines ["none yet".toList] []) true) =
      .ok ["none yet".toList] := by decide +kernel
  have hlines : lines (written (sampleLines ["none yet".toList] []) true) =
      sampleLines ["none yet".toList] [] := by decide +kernel
  obtain ⟨again, disk₂, _, hagain, -, -, hquiet⟩ := updateReadme_again hread (by decide +kernel)
    nofun (hlines ▸ sectioned_sampleLines (by decide +kernel)) nofun unmarked_sample hrun
  obtain ⟨rfl, hsame⟩ := hquiet fun body hbody' => by
    cases hbody.symm.trans hbody'
    exact List.forall_mem_singleton.2 (by decide +kernel)
  exact ⟨disk₁, disk₂, hrun, hagain, hsame⟩

/-- A heading in the table of contents is listed by the first update, which takes it away, and the second
update changes the README once more. -/
theorem updateReadme_again_heading :
    let disk := sampleDisk ["## Old".toList] []
    let text := written (sampleLines ["## Old".toList] []) true
    disk.files.readText sample.readme = .ok text ∧ '\r' ∉ text ∧ sample.options = none ∧
      Sectioned sections (lines text) ∧ Unmarked sections (sample.readmeApi .empty) ∧
      ∃ disk₁ disk₂, runOn (sample.updateReadme .empty) disk = (.ok true, disk₁) ∧
        runOn (sample.updateReadme .empty) disk₁ = (.ok true, disk₂) := by
  intro disk text
  have hread : disk.files.readText sample.readme = .ok text := by decide +kernel
  have hlines : lines text = sampleLines ["## Old".toList] [] := by decide +kernel
  have hpass : Pass sample .empty none text text
      (written (sampleLines ["## Old".toList] [[], []]) true)
      (written (sampleLines [[], "- [Old](#old)".toList, []] [[], []]) true) :=
    ⟨rfl, by decide +kernel, by decide +kernel⟩
  have hagain : Pass sample .empty none
      (written (sampleLines [[], "- [Old](#old)".toList, []] [[], []]) true)
      (written (sampleLines [[], "- [Old](#old)".toList, []] [[], []]) true)
      (written (sampleLines [[], "- [Old](#old)".toList, []] [[], []]) true)
      (written (sampleLines [[], []] [[], []]) true) :=
    ⟨rfl, by decide +kernel, by decide +kernel⟩
  obtain ⟨disk₁, hrun₁, hcarried₁⟩ := runOn_sample hread hpass (takes_sampleDisk _ _)
  obtain ⟨disk₂, hrun₂, -⟩ :=
    runOn_sample hcarried₁.read hagain (hcarried₁.takes_iff.2 (takes_sampleDisk _ _))
  exact ⟨hread, by decide +kernel, rfl, hlines ▸ sectioned_sampleLines (by decide +kernel),
    unmarked_sample, disk₁, disk₂, hrun₁, hrun₂⟩

end

/-! ### Functions of the sample project -/

def plainFunction (name description : Text) (line : Nat) : FunctionDoc :=
  { name, declaredName := name, params := [], returns := [], description, note := none
    deprecated := none, generics := [], visibility := .exposed
    location := ⟨sample.apiFile, line⟩ }

/-- A registry that knows of some functions in the interface of the sample project only. -/
def sampleRegistry (functions : List FunctionDoc) : Registry :=
  ⟨[(sample.apiFile, ⟨functions, []⟩)], [], []⟩

theorem readmeApi_sampleRegistry {functions : List FunctionDoc}
    (hfunctions : sample.apiFunctions (sampleRegistry functions) = functions)
    (huntyped : functions.flatMap (·.types) = []) :
    sample.readmeApi (sampleRegistry functions) =
      framed (dropTrailingEmpty (functions.flatMap Markdown.functionBlock)) := by
  rw [readmeApi, hfunctions, Markdown.render, Registry.referencedTypes_of_untyped _ huntyped]
  exact congrArg (fun ls => framed (dropTrailingEmpty ls)) (List.append_nil _)

end LuaDocs.Project
