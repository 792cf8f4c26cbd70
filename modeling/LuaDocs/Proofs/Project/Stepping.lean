import LuaDocs.Proofs.Project.Readme
import LuaDocs.Proofs.Section.Rewriting

/-!
# The steps of an update

An update of a README with given default options is three steps on its text, and each of them carries an
edit out. Either all three succeed, and the README goes through the texts of a pass; or one of them is the
first to fail, and the README keeps the text that the steps before it have made; or the first that has
another text to put there is refused, and nothing has changed.
-/

namespace LuaDocs.Project

open SectionStore Text Bounds

variable {σ : Type} [SectionStore σ] [MarkerLanguage] {store : σ} {path : Path} {b : Bounds}
  {p : Project} {registry : Registry} {options : Option (List Text)} {fault : SectionFault}
  {old t t₀ t₁ t₂ t₃ : Text}

def replaceAny (path : Path) (m : Markers) (body : List Text) (text : Text) : Editing σ Bool := do
  if ← Editing.hasMarker m.start text then Editing.replace path m body else return false

section

variable [LawfulStore σ]

theorem carries_updateApi (registry : Registry) (hread : read store p.readme = .ok old) :
    Carries p.readme (p.updateApi registry) store old
      (apiMarkers.splice old (p.readmeApi registry)) :=
  carries_replace hread

variable [LiteralMarkers]

theorem carries_replaceAny (hb : b ∈ bounds) (hread : read store path = .ok old)
    (body : List Text) :
    Carries path (replaceAny path b.markers body old) store old (spliceAny b.markers body old) := by
  have hoccurs := occurs_eq (literal_of_mem b hb) old
  have hmarker : runOn (Editing.hasMarker b.markers.start old) store =
      (.ok ((lines old).contains b.start), store) := by
    rw [Editing.runOn_hasMarker, hoccurs]
    rfl
  rw [spliceAny, hoccurs]
  simp only [Carries, replaceAny, runOn_bind_ok hmarker]
  cases (lines old).contains b.start with
  | false => exact carries_return hread
  | true => exact carries_replace hread

theorem carries_updateSetupWith (options : Option (List Text))
    (hread : read store p.readme = .ok old) :
    Carries p.readme (p.updateSetupWith options) store old (p.setupText options old) := by
  cases options with
  | none => exact carries_return hread
  | some o =>
    have hstep := carries_replaceAny (b := setupBounds) (by decide) hread (p.readmeSetup o)
    rw [updateSetupWith]
    simp only [Carries, runOn_bind_ok (Editing.runOn_readText_ok hread)]
    exact hstep

theorem carries_updateContents (hread : read store p.readme = .ok old) :
    Carries p.readme p.updateContents store old
      (spliceAny contentsMarkers (readmeContents old) old) := by
  have hstep := carries_replaceAny (b := contentsBounds) (by decide) hread (readmeContents old)
  rw [updateContents]
  simp only [Carries, runOn_bind_ok (Editing.runOn_readText_ok hread)]
  exact hstep

end

/-- The step of an update that fails first, with the text that the steps before it have made. -/
inductive Stop (p : Project) (registry : Registry) (options : Option (List Text)) (t₀ : Text) :
    SectionFault → Text → Prop
  | setup {fault : SectionFault} (h : p.setupText options t₀ = .error fault) :
    Stop p registry options t₀ fault t₀
  | api {fault : SectionFault} {t₁ : Text} (hsetup : p.setupText options t₀ = .ok t₁)
    (h : apiMarkers.splice t₁ (p.readmeApi registry) = .error fault) :
    Stop p registry options t₀ fault t₁
  | contents {fault : SectionFault} {t₁ t₂ : Text} (hsetup : p.setupText options t₀ = .ok t₁)
    (hapi : apiMarkers.splice t₁ (p.readmeApi registry) = .ok t₂)
    (h : spliceAny contentsMarkers (readmeContents t₂) t₂ = .error fault) :
    Stop p registry options t₀ fault t₂

/-- The first other text that a step of an update makes of a README. -/
inductive Change (p : Project) (registry : Registry) (options : Option (List Text)) (t₀ new : Text) :
    Prop
  | setup (h : p.setupText options t₀ = .ok new) (hne : new ≠ t₀)
  | api (hsetup : p.setupText options t₀ = .ok t₀)
    (h : apiMarkers.splice t₀ (p.readmeApi registry) = .ok new) (hne : new ≠ t₀)
  | contents (hsetup : p.setupText options t₀ = .ok t₀)
    (hapi : apiMarkers.splice t₀ (p.readmeApi registry) = .ok t₀)
    (h : spliceAny contentsMarkers (readmeContents t₀) t₀ = .ok new) (hne : new ≠ t₀)

/-- What an update makes of a store that has a README: its answer, and the store after it. -/
inductive Updates (p : Project) (registry : Registry) (options : Option (List Text)) (store : σ)
    (t₀ : Text) : Except SectionError Bool × σ → Prop
  | pass {t₁ t₂ t₃ : Text} {store' : σ} (h : Pass p registry options t₀ t₁ t₂ t₃)
    (hcarried : Carried p.readme store ((t₁ != t₀) || (t₂ != t₁) || (t₃ != t₂)) t₃ store') :
    Updates p registry options store t₀ (.ok ((t₁ != t₀) || (t₂ != t₁) || (t₃ != t₂)), store')
  | stop {fault : SectionFault} {t : Text} {store' : σ} (h : Stop p registry options t₀ fault t)
    (hread : read store' p.readme = .ok t) :
    Updates p registry options store t₀ (.error (.inFile p.readme fault), store')
  | refused {new : Text} {e : IoError} {store' : σ} (h : Change p registry options t₀ new)
    (hwrite : write store p.readme new = .error e) (hnoted : Noted store store') :
    Updates p registry options store t₀ (.error (.io p.readme e), store')

section

variable [LiteralMarkers] [LawfulStore σ]

theorem updates_updateWith (registry : Registry) (options : Option (List Text))
    (hread : read store p.readme = .ok t₀) :
    Updates p registry options store t₀ (runOn (p.updateWith registry options) store) := by
  rw [updateWith]
  have hsetup := carries_updateSetupWith options hread
  revert hsetup
  cases hsetup : p.setupText options t₀ with
  | error fault =>
    intro hstep
    rw [runOn_bind_error hstep]
    exact .stop (.setup hsetup) hread
  | ok t₁ =>
    rintro (⟨store₁, hrun₁, hcarried₁⟩ | ⟨hne, e, hwrite, hrun⟩)
    case inr =>
      rw [runOn_bind_error hrun]
      exact .refused (.setup hsetup hne) hwrite (.refl store)
    rw [runOn_bind_ok hrun₁]
    have hapi := carries_updateApi registry hcarried₁.read
    revert hapi
    cases hapi : apiMarkers.splice t₁ (p.readmeApi registry) with
    | error fault =>
      intro hstep
      rw [runOn_bind_error hstep]
      exact .stop (.api hsetup hapi) hcarried₁.read
    | ok t₂ =>
      rintro (⟨store₂, hrun₂, hcarried₂⟩ | ⟨hne, e, hwrite, hrun⟩)
      case inr =>
        obtain ⟨hsame, hwrite', hnoted⟩ := hcarried₁.write_error hwrite
        obtain rfl := bne_eq_false_iff_eq.1 hsame
        rw [runOn_bind_error hrun]
        exact .refused (.api hsetup hapi hne) hwrite' hnoted
      rw [runOn_bind_ok hrun₂]
      have hcarried := hcarried₁.trans hcarried₂
      have hcontents := carries_updateContents hcarried.read
      revert hcontents
      cases hcontents : spliceAny contentsMarkers (readmeContents t₂) t₂ with
      | error fault =>
        intro hstep
        rw [runOn_bind_error hstep]
        exact .stop (.contents hsetup hapi hcontents) hcarried.read
      | ok t₃ =>
        rintro (⟨store₃, hrun₃, hcarried₃⟩ | ⟨hne, e, hwrite, hrun⟩)
        case inr =>
          obtain ⟨hsame, hwrite', hnoted⟩ := hcarried.write_error hwrite
          obtain ⟨hsame₁, hsame₂⟩ := Bool.or_eq_false_iff.1 hsame
          obtain rfl := bne_eq_false_iff_eq.1 hsame₁
          obtain rfl := bne_eq_false_iff_eq.1 hsame₂
          rw [runOn_bind_error hrun]
          exact .refused (.contents hsetup hapi hcontents hne) hwrite' hnoted
        rw [runOn_bind_ok hrun₃]
        exact .pass ⟨hsetup, hapi, hcontents⟩ (hcarried.trans hcarried₃)

/-- An update takes a README that can be written through the texts of a pass, and one that cannot be
written as well if all these texts are the same. -/
theorem runOn_updateWith_pass (hread : read store p.readme = .ok t₀)
    (h : Pass p registry options t₀ t₁ t₂ t₃)
    (htakes : Takes store p.readme ∨ t₁ = t₀ ∧ t₂ = t₁ ∧ t₃ = t₂) :
    ∃ store', runOn (p.updateWith registry options) store =
        (.ok ((t₁ != t₀) || (t₂ != t₁) || (t₃ != t₂)), store') ∧
      Carried p.readme store ((t₁ != t₀) || (t₂ != t₁) || (t₃ != t₂)) t₃ store' := by
  have hsetup := carries_updateSetupWith options hread
  rw [h.setup] at hsetup
  obtain ⟨store₁, hrun₁, hcarried₁⟩ := hsetup.ok (htakes.imp_right And.left)
  have hapi := carries_updateApi registry hcarried₁.read
  rw [h.api] at hapi
  obtain ⟨store₂, hrun₂, hcarried₂⟩ :=
    hapi.ok (htakes.imp hcarried₁.takes_iff.2 fun hsame => hsame.2.1)
  have hcarried := hcarried₁.trans hcarried₂
  have hcontents := carries_updateContents hcarried.read
  rw [h.contents] at hcontents
  obtain ⟨store₃, hrun₃, hcarried₃⟩ :=
    hcontents.ok (htakes.imp hcarried.takes_iff.2 fun hsame => hsame.2.2)
  refine ⟨store₃, ?_, hcarried.trans hcarried₃⟩
  rw [updateWith, runOn_bind_ok hrun₁, runOn_bind_ok hrun₂, runOn_bind_ok hrun₃]
  rfl

/-- An update that succeeds is a pass. -/
theorem pass_of_updateWith {changed : Bool} {store' : σ} (hread : read store p.readme = .ok t₀)
    (h : runOn (p.updateWith registry options) store = (.ok changed, store')) :
    ∃ t₁ t₂ t₃, Pass p registry options t₀ t₁ t₂ t₃ ∧
      changed = ((t₁ != t₀) || (t₂ != t₁) || (t₃ != t₂)) ∧
      Carried p.readme store changed t₃ store' := by
  have hupdates := updates_updateWith registry options hread
  rw [h] at hupdates
  cases hupdates with
  | pass hpass hcarried => exact ⟨_, _, _, hpass, rfl, hcarried⟩

end

theorem confined_replaceAny (path : Path) (m : Markers) (body : List Text) (text : Text) :
    Confined path (replaceAny path m body text) := by
  refine (confined_hasMarker path m.start text).bind fun found => ?_
  cases found with
  | false => exact confined_pure path false
  | true => exact confined_replace path m body

/-- An update changes no file but the README. -/
theorem confined_updateWith (p : Project) (registry : Registry) (options : Option (List Text)) :
    Confined p.readme (p.updateWith registry options) := by
  have hsetup : Confined p.readme (p.updateSetupWith options) := by
    cases options with
    | none => exact confined_pure p.readme false
    | some o =>
      exact (confined_readText p.readme p.readme).bind fun text => confined_replaceAny _ _ _ text
  have hcontents : Confined p.readme p.updateContents :=
    (confined_readText p.readme p.readme).bind fun text => confined_replaceAny _ _ _ text
  exact hsetup.bind fun _ => (confined_replace _ _ _).bind fun _ => hcontents.bind fun _ =>
    confined_pure _ _

end LuaDocs.Project
