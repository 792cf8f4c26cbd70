import LuaDocs.Marker.Reader
import LuaDocs.Proofs.Files.Locating
import LuaDocs.Proofs.Files.Order
import LuaDocs.Proofs.Section.Editing

/-!
# Drafts and disks

A draft does what a disk does, without writing. `Mirrors` relates a disk and a draft that have come from
one file system by the same calls: texts are read alike, and every file that differs from what it was is
under a changed text of the draft. A write of the same text to both keeps this, as long as paths that
lead to one file have the same components and the other way round, and what can be read can be written;
that is `Separate` and `Rewritable`. So the two agree call by call, and the stale paths of the draft are
those of the files that the disk has changed.
-/

namespace LuaDocs

open SectionStore

namespace Draft

variable {draft : Draft} {fs : FileSystem} {p q : Path} {t new : Text} {e : Path × Text}

def paths (draft : Draft) : List Path :=
  draft.pending.map (·.1)

theorem map_replace_find? (l : List (Path × Text)) (p q : Path) (t : Text) :
    ((l.map fun e => if e.1.same p then (e.1, t) else e).find? (·.1.same q)).map (·.2) =
      if p.same q then (l.find? (·.1.same q)).map fun _ => t
      else (l.find? (·.1.same q)).map (·.2) := by
  induction l with
  | nil => simp
  | cons e l ih =>
    rw [List.map_cons]
    by_cases hp : e.1.same p = true
    · have hcongr := Path.same_congr hp q
      by_cases hq : p.same q = true
      · simp [hp, hq, hcongr]
      · simpa [hp, hq, hcongr] using ih
    · rw [if_neg hp]
      by_cases hq : e.1.same q = true
      · have hpq : p.same q = false := by
          rw [Bool.eq_false_iff]
          exact fun h => hp (Path.same_trans hq (Path.same_comm ▸ h))
        simp [hq, hpq]
      · simpa [hq] using ih

theorem pending?_put :
    (draft.put p t).pending? q = if p.same q then some t else draft.pending? q := by
  rw [put]
  by_cases hany : draft.pending.any (·.1.same p) = true
  · rw [if_pos hany, pending?, map_replace_find?]
    by_cases hpq : p.same q = true
    · obtain ⟨e, he, hep⟩ := List.any_eq_true.1 hany
      have hsome : (draft.pending.find? (·.1.same q)).isSome :=
        List.find?_isSome.2 ⟨e, he, Path.same_trans hep hpq⟩
      obtain ⟨f, hf⟩ := Option.isSome_iff_exists.1 hsome
      simp [hpq, hf]
    · simp [hpq, pending?]
  · rw [if_neg hany, pending?, List.find?_append]
    by_cases hpq : p.same q = true
    · have hnone : draft.pending.find? (·.1.same q) = none := by
        rw [List.find?_eq_none]
        intro e he heq
        exact hany (List.any_eq_true.2 ⟨e, he, Path.same_trans heq (Path.same_comm ▸ hpq)⟩)
      simp [hnone, hpq]
    · simp [hpq, pending?]

theorem paths_put :
    (draft.put p t).paths = draft.paths ∧ (∃ q ∈ draft.paths, q.same p = true) ∨
      (draft.put p t).paths = draft.paths ++ [p] ∧ ∀ q ∈ draft.paths, q.same p = false := by
  rw [put, paths, paths]
  by_cases hany : draft.pending.any (·.1.same p) = true
  · refine .inl ⟨?_, ?_⟩
    · rw [if_pos hany, List.map_map]
      refine List.map_congr_left fun e _ => ?_
      simp only [Function.comp]
      split <;> rfl
    · obtain ⟨e, he, hep⟩ := List.any_eq_true.1 hany
      exact ⟨e.1, List.mem_map_of_mem he, hep⟩
  · refine .inr ⟨by rw [if_neg hany, List.map_append]; rfl, fun q hq => ?_⟩
    obtain ⟨e, he, rfl⟩ := List.mem_map.1 hq
    rw [Bool.eq_false_iff]
    exact fun h => hany (List.any_eq_true.2 ⟨e, he, h⟩)

theorem mem_of_mem_paths_put (h : q ∈ (draft.put p t).paths) : q ∈ draft.paths ∨ q = p := by
  obtain ⟨heq, -⟩ | ⟨heq, -⟩ := draft.paths_put (p := p) (t := t)
  · exact .inl (heq ▸ h)
  · simpa [heq] using h

theorem mem_paths_put_of_mem (h : q ∈ draft.paths) : q ∈ (draft.put p t).paths := by
  obtain ⟨heq, -⟩ | ⟨heq, -⟩ := draft.paths_put (p := p) (t := t)
  · exact heq ▸ h
  · exact heq ▸ List.mem_append_left _ h

/-- The draft holds a text for the path then, under the path itself or under another spelling of it. -/
theorem exists_same_put (draft : Draft) (p : Path) (t : Text) :
    ∃ q ∈ (draft.put p t).paths, q.same p = true := by
  obtain ⟨heq, hsame⟩ | ⟨heq, -⟩ := draft.paths_put (p := p) (t := t)
  · exact heq ▸ hsame
  · exact ⟨p, heq ▸ List.mem_append_right _ (List.mem_singleton_self p), Path.same_self p⟩

theorem pairwise_paths_put (h : draft.paths.Pairwise fun p q => p.same q = false) :
    (draft.put p t).paths.Pairwise fun p q => p.same q = false := by
  obtain ⟨heq, -⟩ | ⟨heq, hnone⟩ := draft.paths_put (p := p) (t := t)
  · exact heq ▸ h
  · rw [heq, List.pairwise_append]
    refine ⟨h, List.pairwise_singleton _ _, fun q hq r hr => ?_⟩
    rw [List.mem_singleton.1 hr]
    exact hnone q hq

@[simp] theorem files_put : (draft.put p t).files = draft.files := by
  rw [put]
  split <;> rfl

theorem read_eq :
    read draft p = match draft.pending? p with
      | some text => .ok text
      | none => draft.files.readText p := rfl

theorem read_of_pending? (h : draft.pending? p = some t) : read draft p = .ok t := by
  rw [read_eq, h]

theorem read_put : read (draft.put p t) q = if p.same q then .ok t else read draft q := by
  rw [read_eq, read_eq, pending?_put, files_put]
  by_cases hpq : p.same q = true
  · rw [if_pos hpq, if_pos hpq]
  · rw [if_neg hpq, if_neg hpq]

theorem mem_stale_iff :
    p ∈ draft.stale ↔ ∃ t, (p, t) ∈ draft.pending ∧ draft.files.readText p ≠ .ok t := by
  rw [stale, List.mem_mergeSort, List.mem_map]
  simp only [List.mem_filter]
  constructor
  · rintro ⟨⟨q, t⟩, ⟨hmem, hchanged⟩, rfl⟩
    refine ⟨t, hmem, fun hread => ?_⟩
    simp [hread] at hchanged
  · rintro ⟨t, hmem, hread⟩
    refine ⟨(p, t), ⟨hmem, ?_⟩, rfl⟩
    simp only
    split
    · next current heq =>
      rw [heq] at hread
      simpa using hread
    · rfl

theorem stale_subset : ∀ p ∈ draft.stale, p ∈ draft.paths := by
  intro p hp
  obtain ⟨t, hmem, -⟩ := mem_stale_iff.1 hp
  exact List.mem_map_of_mem hmem

end Draft

/-- Of some paths, those that lead to one file are those with the same components. -/
def Separate (fs : FileSystem) (paths : List Path) : Prop :=
  ∀ p ∈ paths, ∀ q ∈ paths, ∀ position, fs.fileAt? p = some position →
    (fs.fileAt? q = some position ↔ p.same q = true)

/-- What can be read under some paths can be written there. -/
def Rewritable (fs : FileSystem) (paths : List Path) : Prop :=
  ∀ p ∈ paths, ∀ t, fs.readText p = .ok t → fs.Writable p

theorem rewritable_of_may {fs : FileSystem} {paths : List Path}
    (h : ∀ p ∈ paths, ∀ position ∈ fs.fileAt? p,
      fs.may .read position = true → fs.may .write position = true) : Rewritable fs paths := by
  intro p hp t hread
  obtain ⟨-, position, hat, hmay⟩ := FileSystem.readText_eq_ok_iff.1 hread
  exact (FileSystem.writable_iff hat).2 (h p hp position hat hmay)

/-- A disk and a draft that have come from a file system by the same calls for some paths. -/
structure Mirrors (fs : FileSystem) (paths : List Path) (disk : Disk) (draft : Draft) : Prop where
  files : draft.files = fs
  may : ∀ right position, disk.files.may right position = fs.may right position
  fileAt? : ∀ q, disk.files.fileAt? q = fs.fileAt? q
  reads : ∀ p ∈ paths, disk.files.readText p = read draft p
  subset : ∀ p ∈ draft.paths, p ∈ paths
  isText : ∀ p ∈ draft.paths, ∃ t, fs.readText p = .ok t
  distinct : draft.paths.Pairwise fun p q => p.same q = false
  elsewhere : ∀ q, disk.files.content? q = fs.content? q ∨ ∃ p ∈ draft.paths, fs.SameFile p q

namespace Mirrors

variable {fs : FileSystem} {paths : List Path} {disk : Disk} {draft : Draft} {p q : Path}
  {old new t : Text}

theorem initial (disk : Disk) (paths : List Path) :
    Mirrors disk.files paths disk (Draft.ofFiles disk.files) where
  files := rfl
  may _ _ := rfl
  fileAt? _ := rfl
  reads _ _ := rfl
  subset _ h := nomatch h
  isText _ h := nomatch h
  distinct := .nil
  elsewhere _ := .inl rfl

theorem log (h : Mirrors fs paths disk draft) (event : Event) :
    Mirrors fs paths (note disk event) draft :=
  { h with }

theorem pending?_of_mem (h : Mirrors fs paths disk draft) (hmem : (p, t) ∈ draft.pending)
    (hpq : p.same q = true) : draft.pending? q = some t := by
  have hdistinct := List.pairwise_map.1 h.distinct
  rw [Draft.pending?]
  generalize draft.pending = pending at hmem hdistinct
  induction pending with
  | nil => cases hmem
  | cons e pending ih =>
    obtain ⟨hhead, htail⟩ := List.pairwise_cons.1 hdistinct
    rcases List.mem_cons.1 hmem with rfl | hmem
    · simp [hpq]
    · have hne : e.1.same q = false := by
        rw [← Path.same_comm, ← Path.same_congr hpq, Path.same_comm]
        exact hhead _ hmem
      simpa [hne] using ih hmem htail

theorem read_of_mem (h : Mirrors fs paths disk draft) (hmem : (p, t) ∈ draft.pending) :
    disk.files.readText p = .ok t := by
  have hpath : p ∈ draft.paths := List.mem_map_of_mem hmem
  rw [h.reads p (h.subset p hpath), Draft.read_of_pending? (h.pending?_of_mem hmem (Path.same_self p))]

theorem canRead_iff (h : Mirrors fs paths disk draft) (q : Path) :
    disk.files.CanRead q ↔ fs.CanRead q := by
  simp only [FileSystem.CanRead, h.fileAt?, h.may]

/-- What the disk has as text was a text in the beginning. -/
theorem isText_of_readText (h : Mirrors fs paths disk draft) (hread : disk.files.readText q = .ok t) :
    ∃ t, fs.readText q = .ok t := by
  obtain ⟨hcontent, hcan⟩ := FileSystem.readText_eq_ok_iff.1 hread
  have hcan' := (h.canRead_iff q).1 hcan
  rcases h.elsewhere q with hq | ⟨p, hp, position, hat, hatq⟩
  · exact ⟨t, FileSystem.readText_eq_ok_iff.2 ⟨hq ▸ hcontent, hcan'⟩⟩
  · obtain ⟨t', ht'⟩ := h.isText p hp
    refine ⟨t', FileSystem.readText_eq_ok_iff.2 ⟨?_, hcan'⟩⟩
    rw [← FileSystem.content?_congr (hat.trans hatq.symm), FileSystem.content?_of_readText ht']

/-- A text that can be read is written by both, and both stay alike. -/
theorem write (h : Mirrors fs paths disk draft) (hsep : Separate fs paths)
    (hwritable : Rewritable fs paths) (hp : p ∈ paths) (hread : disk.files.readText p = .ok old)
    (new : Text) :
    ∃ files, disk.files.writeText p new = .ok files ∧
      Mirrors fs paths { disk with files } (draft.put p new) := by
  obtain ⟨position, hat⟩ := FileSystem.fileAt?_of_readText hread
  have hat' : fs.fileAt? p = some position := h.fileAt? p ▸ hat
  obtain ⟨t₀, ht₀⟩ := h.isText_of_readText hread
  have hmay : disk.files.may .write position = true :=
    (h.may .write position).trans ((FileSystem.writable_iff hat').1 (hwritable p hp t₀ ht₀))
  obtain ⟨files, hwrite⟩ := (FileSystem.writable_iff hat).2 hmay new
  obtain ⟨hrights, hfileAt, -, hthere⟩ := FileSystem.of_writeText hat hwrite
  have hsubset : ∀ q ∈ (draft.put p new).paths, q ∈ paths := by
    intro q hq
    rcases Draft.mem_of_mem_paths_put hq with hq | rfl
    · exact h.subset q hq
    · exact hp
  refine ⟨files, hwrite, ?_⟩
  constructor
  case files => exact Draft.files_put.trans h.files
  case may => exact fun right other => (hrights right other).trans (h.may right other)
  case fileAt? => exact fun q => (hfileAt q).trans (h.fileAt? q)
  case reads =>
    intro q hq
    rw [Draft.read_put]
    -- The disk goes by files and the draft by components; for the paths of the calls this is the same.
    by_cases hpq : p.same q = true
    · have hatq : disk.files.fileAt? q = some position :=
        (h.fileAt? q).trans ((hsep p hp q hq position hat').2 hpq)
      rw [if_pos hpq]
      exact FileSystem.readText_writeText hread hwrite (hatq.trans hat.symm)
    · have hatq : disk.files.fileAt? q ≠ some position := by
        rw [h.fileAt? q]
        exact fun heq => hpq ((hsep p hp q hq position hat').1 heq)
      rw [if_neg hpq, ← h.reads q hq]
      exact (hthere q hatq).2
  case subset => exact hsubset
  case isText =>
    intro q hq
    rcases Draft.mem_of_mem_paths_put hq with hq | rfl
    · exact h.isText q hq
    · exact ⟨t₀, ht₀⟩
  case distinct => exact Draft.pairwise_paths_put h.distinct
  case elsewhere =>
    intro q
    by_cases hatq : disk.files.fileAt? q = some position
    · obtain ⟨r, hr, hrp⟩ := draft.exists_same_put p new
      have hatr := (hsep p hp r (hsubset r hr) position hat').2 (Path.same_comm ▸ hrp)
      exact .inr ⟨r, hr, position, hatr, h.fileAt? q ▸ hatq⟩
    · rcases h.elsewhere q with hq | ⟨r, hr, hsame⟩
      · exact .inl (((hthere q hatq).1).trans hq)
      · exact .inr ⟨r, Draft.mem_paths_put_of_mem hr, hsame⟩

/-- The stale paths of the draft are those of the files that the disk has changed. -/
theorem changed_iff (h : Mirrors fs paths disk draft) (q : Path) :
    disk.files.content? q ≠ fs.content? q ↔ ∃ p ∈ draft.stale, fs.SameFile p q := by
  have hsame {p : Path} {position : Position} (hat : fs.fileAt? p = some position)
      (hatq : fs.fileAt? q = some position) :
      disk.files.content? q = disk.files.content? p ∧ fs.content? q = fs.content? p := by
    constructor <;> refine FileSystem.content?_congr ?_
    · rw [h.fileAt?, h.fileAt?, hat, hatq]
    · rw [hat, hatq]
  constructor
  · intro hchanged
    rcases h.elsewhere q with heq | ⟨p, hp, position, hat, hatq⟩
    · exact absurd heq hchanged
    · obtain ⟨⟨p, t⟩, hmem, rfl⟩ := List.mem_map.1 hp
      refine ⟨p, Draft.mem_stale_iff.2 ⟨t, hmem, fun hread => hchanged ?_⟩, position, hat, hatq⟩
      rw [h.files] at hread
      rw [(hsame hat hatq).1, (hsame hat hatq).2, FileSystem.content?_of_readText hread,
        FileSystem.content?_of_readText (h.read_of_mem hmem)]
  · rintro ⟨p, hp, position, hat, hatq⟩ heq
    obtain ⟨t, hmem, hread⟩ := Draft.mem_stale_iff.1 hp
    obtain ⟨hcontent, hcan⟩ := FileSystem.readText_eq_ok_iff.1 (h.read_of_mem hmem)
    rw [h.files] at hread
    refine hread (FileSystem.readText_eq_ok_iff.2 ⟨?_, (h.canRead_iff p).1 hcan⟩)
    rw [← hcontent, ← (hsame hat hatq).1, ← (hsame hat hatq).2, heq]

/-- The stale paths come in the order of paths, and none comes twice. -/
theorem pairwise_stale (h : Mirrors fs paths disk draft) :
    draft.stale.Pairwise fun p q => p.notAfter q = true ∧ p.same q = false := by
  refine List.Pairwise.and (Path.pairwise_mergeSort _) ?_
  have hsymm {p q : Path} (hpq : p.same q = false) : q.same p = false := Path.same_comm ▸ hpq
  refine ((List.mergeSort_perm _ _).pairwise_iff hsymm).2 ?_
  exact h.distinct.sublist (List.Sublist.map _ List.filter_sublist)

end Mirrors

/-! ### Steps -/

/-- Steps that come to the same on a disk and on a draft. -/
def Agree {α : Type} (fs : FileSystem) (paths : List Path) (onDisk : Editing Disk α)
    (onDraft : Editing Draft α) : Prop :=
  ∀ disk draft, Mirrors fs paths disk draft →
    (runOn onDisk disk).1 = (runOn onDraft draft).1 ∧
      Mirrors fs paths (runOn onDisk disk).2 (runOn onDraft draft).2

namespace Agree

variable {α β : Type} {fs : FileSystem} {paths : List Path} {path : Path} {onDisk : Editing Disk α}
  {onDraft : Editing Draft α}

theorem pure (a : α) : Agree fs paths (pure a) (pure a) :=
  fun _ _ h => ⟨rfl, h⟩

theorem bind {nextDisk : α → Editing Disk β} {nextDraft : α → Editing Draft β}
    (h : Agree fs paths onDisk onDraft) (hnext : ∀ a, Agree fs paths (nextDisk a) (nextDraft a)) :
    Agree fs paths (onDisk >>= nextDisk) (onDraft >>= nextDraft) := by
  intro disk draft hmirrors
  obtain ⟨hanswer, hafter⟩ := h disk draft hmirrors
  rw [runOn_bind, runOn_bind]
  revert hanswer hafter
  rcases runOn onDisk disk with ⟨answer, disk'⟩
  rcases runOn onDraft draft with ⟨answer', draft'⟩
  rintro rfl hafter
  cases answer with
  | error e => exact ⟨rfl, hafter⟩
  | ok a => exact hnext a disk' draft' hafter

theorem readText (hp : path ∈ paths) :
    Agree fs paths (Editing.readText path) (Editing.readText path) := by
  intro disk draft h
  rw [Editing.runOn_readText, Editing.runOn_readText]
  exact ⟨congrArg (Except.mapError _) (h.reads path hp), h⟩

variable [MarkerLanguage]

theorem hasMarker (marker text : Text) :
    Agree fs paths (Editing.hasMarker marker text) (Editing.hasMarker marker text) := by
  intro disk draft h
  rw [Editing.runOn_hasMarker, Editing.runOn_hasMarker]
  exact ⟨rfl, h⟩

theorem replace (hsep : Separate fs paths) (hwritable : Rewritable fs paths) (hp : path ∈ paths)
    (markers : Markers) (body : List Text) :
    Agree fs paths (Editing.replace path markers body) (Editing.replace path markers body) := by
  intro disk draft h
  have hreads := h.reads path hp
  cases hread : read draft path with
  | error e =>
    rw [Editing.runOn_replace_unreadable (hreads.trans hread),
      Editing.runOn_replace_unreadable hread]
    exact ⟨rfl, h⟩
  | ok old =>
    have hdisk := hreads.trans hread
    cases hsplice : markers.splice old body with
    | error fault =>
      rw [Editing.runOn_replace_fault hdisk hsplice, Editing.runOn_replace_fault hread hsplice]
      exact ⟨rfl, h⟩
    | ok new =>
      by_cases hnew : new = old
      · subst hnew
        rw [Editing.runOn_replace_unchanged hdisk hsplice,
          Editing.runOn_replace_unchanged hread hsplice]
        exact ⟨rfl, h.log _⟩
      · obtain ⟨files, hwrite, hafter⟩ := h.write hsep hwritable hp hdisk new
        have hstore : write disk path new = .ok { disk with files } := by
          simp only [write, hwrite]
          rfl
        rw [Editing.runOn_replace_changed hdisk hsplice hnew hstore,
          Editing.runOn_replace_changed hread hsplice hnew rfl]
        exact ⟨rfl, hafter.log _⟩

end Agree

/-! ### Calls -/

inductive Call where
  | read (path : Path)
  | replace (path : Path) (markers : Markers) (body : List Text)
  deriving DecidableEq

inductive Answer where
  | text (text : Text)
  | changed (changed : Bool)
  deriving DecidableEq

namespace Call

def path : Call → Path
  | read path => path
  | replace path _ _ => path

section

variable {σ : Type} [SectionStore σ] [MarkerLanguage]

def steps : Call → Editing σ Answer
  | read path => return .text (← Editing.readText path)
  | replace path markers body => return .changed (← Editing.replace path markers body)

/-- What some calls answer one after another, and the store after them. A call may fail, and the next is
made nevertheless. -/
def run : List Call → σ → List (Except SectionError Answer) × σ
  | [], store => ([], store)
  | call :: calls, store =>
    let (answer, store) := runOn call.steps store
    let (answers, store) := run calls store
    (answer :: answers, store)

variable {fs : FileSystem} {paths : List Path} {disk : Disk} {draft : Draft}

/-- One call comes to the same on a disk and on a draft. -/
theorem agree_steps (hsep : Separate fs paths) (hwritable : Rewritable fs paths) (call : Call)
    (hp : call.path ∈ paths) : Agree fs paths call.steps call.steps := by
  cases call with
  | read path => exact (Agree.readText hp).bind fun _ => .pure _
  | replace path markers body =>
    exact (Agree.replace hsep hwritable hp markers body).bind fun _ => .pure _

/-- And so do any calls. -/
theorem agree_run (hsep : Separate fs paths) (hwritable : Rewritable fs paths)
    (h : Mirrors fs paths disk draft) {calls : List Call}
    (hcalls : ∀ call ∈ calls, call.path ∈ paths) :
    (run calls disk).1 = (run calls draft).1 ∧
      Mirrors fs paths (run calls disk).2 (run calls draft).2 := by
  induction calls generalizing disk draft with
  | nil => exact ⟨rfl, h⟩
  | cons call calls ih =>
    obtain ⟨hcall, hrest⟩ := List.forall_mem_cons.1 hcalls
    obtain ⟨hanswer, hafter⟩ := agree_steps hsep hwritable call hcall disk draft h
    obtain ⟨hanswers, hlast⟩ := ih hafter hrest
    exact ⟨by simp only [run, hanswer, hanswers], hlast⟩

/-- A draft simulates a disk. The calls are for paths of which those that lead to one file have the same
components, and those with the same components lead to one file if one of them leads to a file, and what
can be read under these paths can be written there. Then the calls get the same answers; the file system
below the draft stays as it is; after every call the draft reads what is on the disk; and in the end the
stale paths are, in the order of paths and each once, those of the files that have another content than in
the beginning. -/
theorem run_draft (disk : Disk) (calls : List Call) (hsep : Separate disk.files (calls.map path))
    (hwritable : Rewritable disk.files (calls.map path)) :
    let draft := Draft.ofFiles disk.files
    let stale := (run calls draft).2.stale
    (run calls draft).1 = (run calls disk).1 ∧
      (run calls draft).2.files = disk.files ∧
      (∀ n, ∀ p ∈ calls.map path,
        SectionStore.read (run (calls.take n) draft).2 p =
          (run (calls.take n) disk).2.files.readText p) ∧
      (stale.Pairwise fun p q => p.notAfter q = true ∧ p.same q = false) ∧
      (∀ p ∈ stale, p ∈ calls.map path) ∧
      ∀ p ∈ calls.map path,
        (∃ q ∈ stale, q.same p = true) ↔
          (run calls disk).2.files.content? p ≠ disk.files.content? p := by
  intro draft stale
  have hinitial := Mirrors.initial disk (calls.map path)
  have hcalls : ∀ call ∈ calls, call.path ∈ calls.map path := fun c hc => List.mem_map_of_mem hc
  obtain ⟨hanswers, hlast⟩ := agree_run hsep hwritable hinitial hcalls
  refine ⟨hanswers.symm, hlast.files, fun n p hp => ?_, hlast.pairwise_stale, fun p hp => ?_,
    fun p hp => ?_⟩
  · have htake : ∀ call ∈ calls.take n, call.path ∈ calls.map path :=
      fun c hc => hcalls c (List.mem_of_mem_take hc)
    exact ((agree_run hsep hwritable hinitial htake).2.reads p hp).symm
  · exact hlast.subset p (Draft.stale_subset p hp)
  · rw [hlast.changed_iff]
    refine exists_congr fun q => and_congr_right fun hq => ?_
    have hpath := Draft.stale_subset q hq
    obtain ⟨t, ht⟩ := hlast.isText q hpath
    obtain ⟨position, hat⟩ := FileSystem.fileAt?_of_readText ht
    have hsame := hsep q (hlast.subset q hpath) p hp position hat
    constructor
    · exact fun h => ⟨position, hat, hsame.2 h⟩
    · rintro ⟨other, hat', hatp⟩
      rw [hat] at hat'
      cases hat'
      exact hsame.1 hatp

end

section

open scoped Standard

/-- A change to one file, a change to another, and the first change taken back. The second file is known
by its path from the root, and a third one can be neither read nor written. -/
theorem run_draft_restored :
    let disk : Disk :=
      { files :=
          { entries := [(["w".toList], .directory),
              (["w".toList, "a".toList], .file (.text "S\nx\nE\n".toList)),
              (["w".toList, "b".toList], .file (.text "S\nE\n".toList)),
              (["w".toList, "c".toList], .file (.text "S\nE\n".toList))]
            here := ["w".toList]
            denied := [(["w".toList, "c".toList], .read), (["w".toList, "c".toList], .write)] }
        log := [] }
    let markers : Markers := ⟨"^S$".toList, "^E$".toList⟩
    let calls : List Call := [.replace "a".toList markers ["y".toList],
      .replace "/w/b".toList markers ["z".toList], .read "c".toList,
      .replace "a".toList markers ["x".toList]]
    Separate disk.files (calls.map path) ∧ Rewritable disk.files (calls.map path) ∧
      (run calls (Draft.ofFiles disk.files)).1 = (run calls disk).1 ∧
      (run calls disk).1 = [.ok (.changed true), .ok (.changed true),
        .error (.io "c".toList .permissionDenied), .ok (.changed true)] ∧
      (run calls (Draft.ofFiles disk.files)).2.stale = ["/w/b".toList] := by
  intro disk markers calls
  have hsep : Separate disk.files (calls.map path) := by
    have hpaths : ∀ p ∈ calls.map path, ∀ q ∈ calls.map path,
        disk.files.fileAt? p = disk.files.fileAt? q ↔ p.same q = true := by decide +kernel
    intro p hp q hq position hat
    rw [← hpaths p hp q hq, hat, eq_comm]
  have hwritable : Rewritable disk.files (calls.map path) := rewritable_of_may (by decide +kernel)
  exact ⟨hsep, hwritable, (run_draft disk calls hsep hwritable).1, by decide +kernel, by decide +kernel⟩

/-- A path with a slash behind it has the same components but leads to no file, so that a draft with a
changed text reads what the disk cannot read. -/
theorem run_draft_slash :
    let disk : Disk := ⟨.ofEntries [(["a".toList], .file (.text "S\nx\nE\n".toList))], []⟩
    let calls : List Call :=
      [.replace "a".toList ⟨"S".toList, "E".toList⟩ ["y".toList], .read "a/".toList]
    (∀ p ∈ calls.map path, ∀ q ∈ calls.map path, p ≠ q → ¬disk.files.SameFile p q) ∧
      Rewritable disk.files (calls.map path) ∧
      (run calls (Draft.ofFiles disk.files)).1 ≠ (run calls disk).1 := by
  intro disk calls
  have hslash : disk.files.fileAt? "a/".toList = none := rfl
  refine ⟨?_, ?_, ?_⟩
  · intro p hp q hq hne
    simp only [calls, List.map_cons, path, List.map_nil, List.mem_cons, List.not_mem_nil,
      or_false] at hp hq
    rintro ⟨position, hatp, hatq⟩
    rcases hp with rfl | rfl <;> rcases hq with rfl | rfl <;> simp_all
  · exact rewritable_of_may (by decide +kernel)
  · have hdisk : (run calls disk).1[1]? = some (.error (.io "a/".toList .notDirectory)) := by
      decide +kernel
    have hdraft : (run calls (Draft.ofFiles disk.files)).1[1]? =
        some (.ok (.text "S\ny\nE\n".toList)) := by
      decide +kernel
    intro heq
    rw [heq, hdisk] at hdraft
    cases hdraft

end

end Call

end LuaDocs
