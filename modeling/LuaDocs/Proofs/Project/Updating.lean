import LuaDocs.Project.Artifacts
import LuaDocs.Proofs.Section.Drafting

/-!
# Updating a README on a disk and on a draft

The default options are read from the file system before the README is touched, so an update is that
reading followed by steps that only read and replace sections of the README. Those come to the same on a
disk and on a draft.
-/

namespace LuaDocs.Project

section

variable {σ : Type} [SectionStore σ] [MarkerLanguage]

def updateSetupWith (p : Project) : Option (List Text) → Editing σ Bool
  | none => return false
  | some options => do
    if ← Editing.hasMarker setupMarkers.start (← Editing.readText p.readme) then
      Editing.replace p.readme setupMarkers (p.readmeSetup options)
    else return false

/-- Update the README with given default options. -/
def updateWith (p : Project) (registry : Registry) (options : Option (List Text)) :
    Editing σ Bool := do
  let setup ← p.updateSetupWith options
  let api ← p.updateApi registry
  let contents ← p.updateContents
  return setup || api || contents

theorem updateReadme_eq (p : Project) (registry : Registry) :
    (p.updateReadme registry : Editing σ Bool) = p.optionLines >>= p.updateWith registry := by
  rw [updateReadme, updateSetup, bind_assoc]
  refine bind_congr fun options => ?_
  cases options <;> rfl

def optionsIn (p : Project) (fs : FileSystem) : Except SectionError (Option (List Text)) :=
  match p.options with
  | none => .ok none
  | some source =>
    match fs.readText source.file with
    | .error e => .error (.io source.file e)
    | .ok text =>
      ((source.markers.bodyOf text).mapError (SectionError.inFile source.file)).map some

theorem runOn_optionLines (p : Project) (store : σ) :
    runOn p.optionLines store = (p.optionsIn (SectionStore.files store), store) := by
  rw [optionLines, optionsIn]
  cases p.options with
  | none => rfl
  | some source =>
    simp only
    rw [runOn_bind, Editing.runOn_readSection]
    cases (SectionStore.files store).readText source.file with
    | error e => rfl
    | ok text =>
      simp only
      cases source.markers.bodyOf text <;> rfl

theorem runOn_updateReadme_ok {p : Project} {registry : Registry} (store : σ)
    {options : Option (List Text)} (h : p.optionsIn (SectionStore.files store) = .ok options) :
    runOn (p.updateReadme registry) store = runOn (p.updateWith registry options) store := by
  rw [updateReadme_eq, runOn_bind, runOn_optionLines, h]

theorem runOn_updateReadme_error {p : Project} {registry : Registry} (store : σ)
    {e : SectionError} (h : p.optionsIn (SectionStore.files store) = .error e) :
    runOn (p.updateReadme registry) store = (.error e, store) := by
  rw [updateReadme_eq, runOn_bind, runOn_optionLines, h]

end

theorem separate_singleton (fs : FileSystem) (path : Path) : Separate fs [path] := by
  intro p hp q hq position hat
  rw [List.mem_singleton] at hp hq
  subst hp hq
  exact iff_of_true hat (Path.same_self _)

variable [MarkerLanguage]

theorem agree_updateWith {fs : FileSystem} {p : Project} (hwritable : Rewritable fs [p.readme])
    (registry : Registry) (options : Option (List Text)) :
    Agree fs [p.readme] (p.updateWith registry options) (p.updateWith registry options) := by
  have hsep := separate_singleton fs p.readme
  have hmem : p.readme ∈ [p.readme] := List.mem_singleton_self _
  have hwhen (marker text : Text) (markers : Markers) (body : List Text) :
      Agree fs [p.readme]
        (do if ← Editing.hasMarker marker text then Editing.replace p.readme markers body
            else return false)
        (do if ← Editing.hasMarker marker text then Editing.replace p.readme markers body
            else return false) :=
    (Agree.hasMarker marker text).bind fun found => by
      cases found
      · exact .pure false
      · exact .replace hsep hwritable hmem markers body
  have hsetup : Agree fs [p.readme] (p.updateSetupWith options) (p.updateSetupWith options) := by
    cases options with
    | none => exact .pure false
    | some options => exact (Agree.readText hmem).bind fun text => hwhen _ text _ _
  have happi : Agree fs [p.readme] (p.updateApi registry) (p.updateApi registry) :=
    .replace hsep hwritable hmem _ _
  have hcontents : Agree fs [p.readme] p.updateContents p.updateContents :=
    (Agree.readText hmem).bind fun text => hwhen _ text _ _
  exact hsetup.bind fun _ => happi.bind fun _ => hcontents.bind fun _ => .pure _

/-- An update of a README that can be written answers on a draft what it does on the disk, and the draft
mirrors the disk after it. -/
theorem updateReadme_draft {p : Project} {disk : Disk} (hwritable : Rewritable disk.files [p.readme])
    (registry : Registry) :
    (runOn (p.updateReadme registry) disk).1 =
        (runOn (p.updateReadme registry) (Draft.ofFiles disk.files)).1 ∧
      Mirrors disk.files [p.readme] (runOn (p.updateReadme registry) disk).2
        (runOn (p.updateReadme registry) (Draft.ofFiles disk.files)).2 := by
  have hinitial := Mirrors.initial disk [p.readme]
  cases hoptions : p.optionsIn disk.files with
  | error e =>
    rw [runOn_updateReadme_error disk hoptions,
      runOn_updateReadme_error (Draft.ofFiles disk.files) hoptions]
    exact ⟨rfl, hinitial⟩
  | ok options =>
    rw [runOn_updateReadme_ok disk hoptions,
      runOn_updateReadme_ok (Draft.ofFiles disk.files) hoptions]
    exact agree_updateWith hwritable registry options disk _ hinitial

end LuaDocs.Project
