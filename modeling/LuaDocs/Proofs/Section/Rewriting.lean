import LuaDocs.Proofs.Section.Drafting

/-!
# The text under a path

What steps on a store do to the text under one path, told by what they make of the text alone. A store
gives back what is put under a path, so a replaced section is a splice of the text: the steps answer
whether the text has changed, or they fail and leave the store as it is. They may also fail because the
store takes no other text there. On a disk they leave every other file alone, whether they succeed or fail.
-/

namespace LuaDocs

open SectionStore

/-- Whatever text is put under a path, a store takes it. -/
def Takes {σ : Type} [SectionStore σ] (store : σ) (path : Path) : Prop :=
  ∀ new, ∃ store', write store path new = .ok store'

/-- A store that gives back what is put under a path where it has a text. It takes all texts there or none,
and messages in its log make no difference. -/
class LawfulStore (σ : Type) [SectionStore σ] : Prop where
  read_note (store : σ) (event : Event) (path : Path) : read (note store event) path = read store path
  files_note (store : σ) (event : Event) : files (note store event) = files store
  write_note (store : σ) (event : Event) (path : Path) (new : Text) :
    write (note store event) path new = (write store path new).map (note · event)
  read_write {store store' : σ} {path : Path} {old new : Text} (h : read store path = .ok old)
    (hwrite : write store path new = .ok store') : read store' path = .ok new
  takes_write {store store' : σ} {path : Path} {old new : Text} (h : read store path = .ok old)
    (hwrite : write store path new = .ok store') : Takes store path ∧ Takes store' path

theorem Disk.write_eq_ok_iff {disk disk' : Disk} {path : Path} {new : Text} :
    write disk path new = .ok disk' ↔
      ∃ files, disk.files.writeText path new = .ok files ∧ disk' = { disk with files } := by
  simp only [write]
  cases disk.files.writeText path new <;> simp [Except.map, eq_comm]

theorem Disk.write_eq_error_iff {disk : Disk} {path : Path} {new : Text} {e : IoError} :
    write disk path new = .error e ↔ disk.files.writeText path new = .error e := by
  simp only [write]
  cases disk.files.writeText path new <;> simp [Except.map]

theorem Disk.takes_iff (disk : Disk) (path : Path) : Takes disk path ↔ disk.files.Writable path := by
  simp [Takes, FileSystem.Writable, write_eq_ok_iff]

instance : LawfulStore Disk where
  read_note _ _ _ := rfl
  files_note _ _ := rfl
  write_note disk event path new := by
    simp only [write, note]
    cases disk.files.writeText path new <;> rfl
  read_write h hwrite := by
    obtain ⟨files, hfiles, rfl⟩ := Disk.write_eq_ok_iff.1 hwrite
    exact FileSystem.readText_writeText h hfiles rfl
  takes_write {disk disk' path _ new} h hwrite := by
    obtain ⟨files, hfiles, rfl⟩ := Disk.write_eq_ok_iff.1 hwrite
    obtain ⟨position, hat⟩ := FileSystem.fileAt?_of_readText h
    obtain ⟨hrights, hfileAt, -⟩ := FileSystem.of_writeText hat hfiles
    have hmay : disk.files.may .write position = true :=
      FileSystem.may_write_of_writeText hat hfiles
    rw [Disk.takes_iff, Disk.takes_iff, FileSystem.writable_iff hat,
      FileSystem.writable_iff ((hfileAt path).trans hat), hrights]
    exact ⟨hmay, hmay⟩

instance : LawfulStore Draft where
  read_note _ _ _ := rfl
  files_note _ _ := rfl
  write_note _ _ _ _ := rfl
  read_write {draft _ path _ new} _ hwrite := by
    cases hwrite
    rw [Draft.read_put, if_pos (Path.same_self path)]
  takes_write _ _ := ⟨fun _ => ⟨_, rfl⟩, fun _ => ⟨_, rfl⟩⟩

section

variable {σ : Type} [SectionStore σ] {path : Path} {steps : Editing σ Bool}
  {store store' store₁ store₂ : σ} {markers : Markers} {body : List Text} {old new t₁ t₂ : Text}
  {changed changed₁ changed₂ : Bool}

def Noted (store store' : σ) : Prop :=
  ∃ events : List Event, store' = events.foldl note store

theorem Noted.refl (store : σ) : Noted store store :=
  ⟨[], rfl⟩

theorem Noted.trans (h₁ : Noted store store₁) (h₂ : Noted store₁ store₂) : Noted store store₂ := by
  obtain ⟨events₁, rfl⟩ := h₁
  obtain ⟨events₂, rfl⟩ := h₂
  exact ⟨events₁ ++ events₂, (List.foldl_append ..).symm⟩

/-- A store after steps that tell whether they have changed the text under a path, with the text that it
has there now. If they have not, they have left messages at most; if they have, it takes all texts there. -/
structure Carried (path : Path) (store : σ) (changed : Bool) (new : Text) (store' : σ) : Prop where
  read : read store' path = .ok new
  noted : changed = false → Noted store store'
  takes : changed = true → Takes store path ∧ Takes store' path

/-- Steps on a store do what an edit does to the text under a path. Where it makes a new text of it, the
steps put that there and answer whether it is another one, or the store does not take it; where it fails,
they fail. Steps that fail change nothing. -/
def Carries (path : Path) (steps : Editing σ Bool) (store : σ) (old : Text) :
    Except SectionFault Text → Prop
  | .ok new => (∃ store', runOn steps store = (.ok (new != old), store') ∧
        Carried path store (new != old) new store') ∨
      new ≠ old ∧ ∃ e, write store path new = .error e ∧
        runOn steps store = (.error (.io path e), store)
  | .error fault => runOn steps store = (.error (.inFile path fault), store)

theorem Carries.ok (h : Carries path steps store old (.ok new)) (htakes : Takes store path ∨ new = old) :
    ∃ store', runOn steps store = (.ok (new != old), store') ∧
      Carried path store (new != old) new store' := by
  obtain h | ⟨hne, e, hwrite, -⟩ := h
  · exact h
  · obtain htakes | hsame := htakes
    · obtain ⟨store', hstore'⟩ := htakes new
      cases hwrite.symm.trans hstore'
    · exact absurd hsame hne

theorem carried_unchanged (hread : SectionStore.read store path = .ok old) :
    Carried path store (old != old) old store :=
  ⟨hread, fun _ => .refl store, by simp⟩

theorem carries_return (hread : SectionStore.read store path = .ok old) :
    Carries path (return false) store old (.ok old) :=
  .inl ⟨store, by simp, carried_unchanged hread⟩

variable [LawfulStore σ]

namespace Noted

theorem read_eq (h : Noted store store') (path : Path) :
    SectionStore.read store' path = SectionStore.read store path := by
  obtain ⟨events, rfl⟩ := h
  induction events generalizing store with
  | nil => rfl
  | cons event events ih => rw [List.foldl_cons, ih, LawfulStore.read_note]

theorem files_eq (h : Noted store store') : files store' = files store := by
  obtain ⟨events, rfl⟩ := h
  induction events generalizing store with
  | nil => rfl
  | cons event events ih => rw [List.foldl_cons, ih, LawfulStore.files_note]

/-- What a store does not take it does not take with more messages in its log. -/
theorem write_eq_error_iff (h : Noted store store') {e : IoError} :
    write store' path new = .error e ↔ write store path new = .error e := by
  obtain ⟨events, rfl⟩ := h
  induction events generalizing store with
  | nil => rfl
  | cons event events ih =>
    rw [List.foldl_cons, ih, LawfulStore.write_note]
    cases write store path new <;> simp [Except.map]

theorem takes_iff (h : Noted store store') : Takes store' path ↔ Takes store path := by
  have hok (store : σ) (new : Text) :
      (∃ store', write store path new = .ok store') ↔ ∀ e, write store path new ≠ .error e := by
    cases write store path new <;> simp
  simp only [Takes, hok, ne_eq, h.write_eq_error_iff]

end Noted

theorem Carried.takes_iff (h : Carried path store changed new store') :
    Takes store' path ↔ Takes store path := by
  cases changed with
  | false => exact (h.noted rfl).takes_iff
  | true => exact iff_of_true (h.takes rfl).2 (h.takes rfl).1

theorem Carried.trans (h₁ : Carried path store changed₁ t₁ store₁)
    (h₂ : Carried path store₁ changed₂ t₂ store₂) :
    Carried path store (changed₁ || changed₂) t₂ store₂ where
  read := h₂.read
  noted h := by
    obtain ⟨rfl, rfl⟩ := Bool.or_eq_false_iff.1 h
    exact (h₁.noted rfl).trans (h₂.noted rfl)
  takes h := by
    rw [h₂.takes_iff, ← h₁.takes_iff, and_self]
    obtain rfl | rfl := Bool.or_eq_true_iff.1 h
    · exact (h₁.takes rfl).2
    · exact (h₂.takes rfl).1

/-- A store that refuses a text after some steps had not got another one by them, and it refuses the text
from the beginning. -/
theorem Carried.write_error {e : IoError} (h : Carried path store changed old store')
    (hwrite : write store' path new = .error e) :
    changed = false ∧ write store path new = .error e ∧ Noted store store' := by
  have hunchanged : changed = false := by
    rw [← Bool.not_eq_true]
    intro hchanged
    obtain ⟨_, hstore⟩ := (h.takes hchanged).2 new
    cases hwrite.symm.trans hstore
  have hnoted := h.noted hunchanged
  exact ⟨hunchanged, hnoted.write_eq_error_iff.1 hwrite, hnoted⟩

theorem carries_replace [MarkerLanguage] (hread : SectionStore.read store path = .ok old) :
    Carries path (Editing.replace path markers body) store old (markers.splice old body) := by
  cases hsplice : markers.splice old body with
  | error fault => exact Editing.runOn_replace_fault hread hsplice
  | ok new =>
    by_cases hnew : new = old
    · subst hnew
      rw [Carries, bne_self_eq_false]
      refine .inl ⟨_, Editing.runOn_replace_unchanged hread hsplice, ?_, fun _ => ⟨[_], rfl⟩, nofun⟩
      rw [LawfulStore.read_note, hread]
    cases hwrite : write store path new with
    | error e =>
      exact .inr ⟨hnew, e, hwrite, Editing.runOn_replace_refused hread hsplice hnew hwrite⟩
    | ok store' =>
      obtain ⟨htakes, htakes'⟩ := LawfulStore.takes_write hread hwrite
      rw [Carries, bne_iff_ne.2 hnew]
      refine .inl ⟨_, Editing.runOn_replace_changed hread hsplice hnew hwrite, ?_, nofun,
        fun _ => ⟨htakes, ?_⟩⟩
      · rw [LawfulStore.read_note, LawfulStore.read_write hread hwrite]
      · exact (Noted.takes_iff ⟨[_], rfl⟩).2 htakes'

end

/-! ### Other files -/

variable {fs fs' fs'' : FileSystem} {disk : Disk} {path : Path} {old new : Text} {α β : Type}

/-- A file system in which every path leads where it led, and only the file that one path leads to may
have got another text. -/
structure Spared (fs : FileSystem) (path : Path) (fs' : FileSystem) : Prop where
  fileAt? : ∀ q, fs'.fileAt? q = fs.fileAt? q
  others : ∀ q, ¬fs.SameFile path q → fs'.readText q = fs.readText q

theorem Spared.refl (fs : FileSystem) (path : Path) : Spared fs path fs :=
  ⟨fun _ => rfl, fun _ _ => rfl⟩

theorem Spared.trans (h : Spared fs path fs') (h' : Spared fs' path fs'') : Spared fs path fs'' where
  fileAt? q := (h'.fileAt? q).trans (h.fileAt? q)
  others q hq := by
    refine (h'.others q ?_).trans (h.others q hq)
    rintro ⟨position, hat, hatq⟩
    exact hq ⟨position, h.fileAt? path ▸ hat, h.fileAt? q ▸ hatq⟩

/-- Steps on a disk that change no file but the one that a path leads to. -/
def Confined (path : Path) (steps : Editing Disk α) : Prop :=
  ∀ disk, Spared disk.files path (runOn steps disk).2.files

theorem confined_pure (path : Path) (a : α) : Confined path (pure a) :=
  fun disk => .refl disk.files path

theorem Confined.bind {steps : Editing Disk α} {next : α → Editing Disk β} (h : Confined path steps)
    (hnext : ∀ a, Confined path (next a)) : Confined path (steps >>= next) := by
  intro disk
  have hsteps := h disk
  rw [runOn_bind]
  revert hsteps
  rcases runOn steps disk with ⟨answer, disk'⟩
  intro hsteps
  cases answer with
  | error e => exact hsteps
  | ok a => exact hsteps.trans (hnext a disk')

theorem confined_hasMarker [MarkerLanguage] (path : Path) (marker text : Text) :
    Confined path (Editing.hasMarker marker text) := by
  intro disk
  rw [Editing.runOn_hasMarker]
  exact .refl disk.files path

theorem confined_readText (path q : Path) : Confined path (Editing.readText q) := by
  intro disk
  rw [Editing.runOn_readText]
  exact .refl disk.files path

theorem confined_replace [MarkerLanguage] (path : Path) (markers : Markers) (body : List Text) :
    Confined path (Editing.replace path markers body) := by
  intro disk
  have hrefl := Spared.refl disk.files path
  cases hread : read disk path with
  | error e => rwa [Editing.runOn_replace_unreadable hread]
  | ok old =>
    cases hsplice : markers.splice old body with
    | error fault => rwa [Editing.runOn_replace_fault hread hsplice]
    | ok new =>
      by_cases hnew : new = old
      · subst hnew
        rwa [Editing.runOn_replace_unchanged hread hsplice]
      cases hwrite : write disk path new with
      | error e => rwa [Editing.runOn_replace_refused hread hsplice hnew hwrite]
      | ok disk' =>
        rw [Editing.runOn_replace_changed hread hsplice hnew hwrite]
        obtain ⟨files, hfiles, rfl⟩ := Disk.write_eq_ok_iff.1 hwrite
        obtain ⟨position, hat⟩ := FileSystem.fileAt?_of_readText hread
        obtain ⟨-, hfileAt, -, hthere⟩ := FileSystem.of_writeText hat hfiles
        exact ⟨hfileAt, fun q hq => (hthere q fun hatq => hq ⟨position, hat, hatq⟩).2⟩

end LuaDocs
