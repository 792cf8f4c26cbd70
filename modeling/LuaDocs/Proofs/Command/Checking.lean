import LuaDocs.Command.Run
import LuaDocs.Marker.Reader
import LuaDocs.Project.Glob
import LuaDocs.Proofs.Files.Walking
import LuaDocs.Proofs.Project.Updating
import LuaDocs.Toml.Reader

/-!
# Checking and generating

A run that checks and a run that generates do the same up to the text of the help file. Then one updates
the README on a draft and compares, and the other updates it on the disk and writes the help file. Where
the README can be written the draft mirrors the disk, so the check passes exactly where generating succeeds
and paths lead to the same content as before.
-/

namespace LuaDocs

variable {α β : Type} {s s' : Session} {a : Arguments} {p : Project} {registry : Registry}
  {help text : Text} {path : Path}

/-! ### Steps that leave the files alone -/

/-- Steps of a run that change no file, whatever they answer. -/
def KeepsFiles (steps : Run α) : Prop :=
  ∀ s, (runOn steps s).2.disk.files = s.disk.files

namespace KeepsFiles

theorem pure (a : α) : KeepsFiles (pure a) :=
  fun _ => rfl

theorem throw (e : Failure) : KeepsFiles (throw e : Run α) :=
  fun _ => rfl

theorem bind {steps : Run α} {next : α → Run β} (h : KeepsFiles steps)
    (hnext : ∀ a, KeepsFiles (next a)) : KeepsFiles (steps >>= next) := by
  intro s
  have hs := h s
  rw [runOn_bind]
  revert hs
  rcases runOn steps s with ⟨answer, s'⟩
  intro hs
  cases answer with
  | error e => exact hs
  | ok a => exact (hnext a s').trans hs

theorem files : KeepsFiles Run.files :=
  fun _ => rfl

theorem logAll (events : List Event) : KeepsFiles (Run.logAll events) :=
  fun _ => rfl

theorem log (level : Level) (message : Text) : KeepsFiles (Run.log level message) :=
  fun _ => rfl

theorem ofExcept {ε : Type} (failure : ε → Failure) (x : Except ε α) :
    KeepsFiles (Run.ofExcept failure x) := by
  cases x with
  | error e => exact .throw _
  | ok a => exact .pure a

theorem openProject [Toml.Reader] (a : Arguments) : KeepsFiles (Run.openProject a) := by
  refine .bind .files fun fs => ?_
  have hrest (config : Config) : KeepsFiles (do
      let project ← Run.ofExcept .ofConfig
        (Project.resolve fs (a.root.getD ['.']) config a.moduleName)
      Run.log .debug ("module ".toList ++ project.moduleName ++ " in ".toList ++ project.sourceDir)
      return project) :=
    .bind (.ofExcept _ _) fun p => .bind (.log _ _) fun _ => .pure p
  cases a.config with
  | some path => exact .bind (.ofExcept _ _) hrest
  | none =>
    cases Config.find? fs (a.root.getD ['.']) with
    | some path => exact .bind (.log _ _) fun _ => .bind (.ofExcept _ _) hrest
    | none => exact .bind (.ofExcept _ _) hrest

theorem scan [GlobLanguage] [Walker] (p : Project) : KeepsFiles (Run.scan p) :=
  .bind (.ofExcept _ _) fun _ => .bind .files fun _ => .bind (.logAll _) fun _ =>
    .bind (.ofExcept _ _) fun _ => .bind (.log _ _) fun _ => .pure _

theorem reportDiagnostics (deny : Bool) (diagnostics : List Diagnostic) :
    KeepsFiles (Run.reportDiagnostics deny diagnostics) := by
  refine .bind (.logAll _) fun _ => ?_
  split
  · exact .throw _
  · exact .pure _

theorem optionLines [MarkerLanguage] (context : Text) (p : Project) :
    KeepsFiles (Run.onDisk context p.optionLines) := by
  intro s
  have hrun : StateT.run (ExceptT.run p.optionLines) s.disk = (p.optionsIn s.disk.files, s.disk) :=
    p.runOn_optionLines s.disk
  rw [Run.onDisk, runOn_get_bind]
  simp only [hrun]
  exact ofExcept _ _ _

end KeepsFiles

/-! ### What checking and generating share -/

namespace Run

theorem runOn_files : runOn files s = (.ok s.disk.files, s) := rfl

/-- What a run has found out before it checks or generates. -/
structure Prepared where
  project : Project
  registry : Registry
  /-- The text of the help file. -/
  help : Text

section

variable [MarkerLanguage] [GlobLanguage] [Toml.Reader] [Walker]

def prepare (a : Arguments) : Run Prepared := do
  let p ← openProject a
  let registry ← scan p
  reportDiagnostics (a.denyWarnings || p.denyWarnings) registry.diagnostics
  if (registry.file? p.apiFile).isNone then
    throw (.plain ("API file not found: ".toList ++ p.sourceDir.join p.apiFile))
  let options ← onDisk "failed to read default options".toList p.optionLines
  return ⟨p, registry, p.helpText registry options⟩

theorem act_eq (h : a.print = none) :
    act a = prepare a >>= fun found =>
      if a.check then check found.project found.registry found.help
      else generate found.project found.registry found.help := by
  rw [act, prepare, h]
  simp only [bind_assoc]
  refine bind_congr fun p => bind_congr fun registry => bind_congr fun _ => ?_
  split <;> simp

theorem keepsFiles_prepare (a : Arguments) : KeepsFiles (prepare a) := by
  refine .bind (.openProject a) fun p => .bind (.scan p) fun registry =>
    .bind (.reportDiagnostics _ _) fun _ => ?_
  split
  · exact .bind (.throw _) fun _ => .bind (.optionLines _ _) fun _ => .pure _
  · exact .bind (.optionLines _ _) fun _ => .pure _

theorem openProject_of_prepare {found : Prepared} (h : (runOn (prepare a) s).1 = .ok found) :
    (runOn (openProject a) s).1 = .ok found.project := by
  obtain ⟨p, s₁, hopen, h⟩ := runOn_bind_eq_ok h
  obtain ⟨registry, s₂, -, h⟩ := runOn_bind_eq_ok h
  obtain ⟨_, s₃, -, h⟩ := runOn_bind_eq_ok h
  have hproject : found.project = p := by
    split at h
    · obtain ⟨_, _, hthrow, -⟩ := runOn_bind_eq_ok h
      cases hthrow
    · obtain ⟨options, s₄, -, h⟩ := runOn_bind_eq_ok h
      cases h
      rfl
  rw [hopen, hproject]

end

/-! ### Checking -/

theorem hasText_iff {fs : FileSystem} : hasText fs path text = true ↔ fs.readText path = .ok text := by
  rw [hasText]
  split
  · next current h => simp [h]
  · next e h => simp [h]

def reportStale (stale : List Path) : Run Unit :=
  if stale.isEmpty then log .info "documentation is up to date".toList
  else do
    logAll (stale.map fun path => ⟨.warn, "out of date: ".toList ++ path⟩)
    throw (.plain (Text.ofNat stale.length ++
      " file(s) out of date; run nvimdoc to regenerate".toList))

theorem keepsFiles_reportStale (stale : List Path) : KeepsFiles (reportStale stale) := by
  rw [reportStale]
  split
  · exact .log _ _
  · exact .bind (.logAll _) fun _ => .throw _

theorem reportStale_ok_iff {stale : List Path} :
    (runOn (reportStale stale) s).1 = .ok () ↔ stale = [] := by
  cases stale with
  | nil => exact iff_of_true rfl rfl
  | cons path stale => exact iff_of_false nofun nofun

section

variable [MarkerLanguage]

theorem runOn_check :
    runOn (check p registry help) s =
      match runOn (p.updateReadme registry) (Draft.ofFiles s.disk.files) with
      | (.error e, _) => (.error (.caused ("failed to render ".toList ++ p.readme) (.ofSection e)), s)
      | (.ok _, draft) => runOn (reportStale
          (draft.stale ++ if hasText s.disk.files p.helpFile help then [] else [p.helpFile])) s := by
  rcases h : runOn (p.updateReadme registry) (Draft.ofFiles s.disk.files) with ⟨answer, draft⟩
  have hrun : StateT.run (ExceptT.run (p.updateReadme registry : Editing Draft Bool))
      (Draft.ofFiles s.disk.files) = (answer, draft) := h
  rw [check, runOn_bind_ok runOn_files]
  simp only [hrun]
  cases answer <;> rfl

theorem keepsFiles_check : KeepsFiles (check p registry help) := by
  intro s
  rw [runOn_check]
  split
  · rfl
  · exact keepsFiles_reportStale _ s

/-- A check passes if the update of the README succeeds on a draft and leaves nothing stale, and if the
help file is up to date. -/
theorem check_ok_iff :
    (runOn (check p registry help) s).1 = .ok () ↔
      (∃ b, (runOn (p.updateReadme registry) (Draft.ofFiles s.disk.files)).1 = .ok b) ∧
        (runOn (p.updateReadme registry) (Draft.ofFiles s.disk.files)).2.stale = [] ∧
        hasText s.disk.files p.helpFile help = true := by
  rw [runOn_check]
  rcases runOn (p.updateReadme registry) (Draft.ofFiles s.disk.files) with ⟨e | b, draft⟩
  · simp
  · simp only [reportStale_ok_iff, List.append_eq_nil_iff]
    simp

end

/-! ### Generating -/

def writeFile (path : Path) (text : Text) : Run Unit := do
  let context := "failed to write ".toList ++ path
  let fs ← ofExcept (fun e => .caused context (.ofIo e)) ((← files).writeText path text)
  modify fun s => { s with disk := { s.disk with files := fs } }
  log .info ("wrote ".toList ++ path)

theorem content?_writeFile (h : (runOn (writeFile path text) s).1 = .ok ()) :
    (runOn (writeFile path text) s).2.disk.files.content? path = some (.text text) := by
  rw [writeFile, runOn_bind_ok runOn_files] at h ⊢
  cases hwrite : s.disk.files.writeText path text with
  | error e =>
    rw [hwrite] at h
    cases h
  | ok fs =>
    rw [← FileSystem.content?_writeText hwrite]
    rfl

theorem runOn_writeIfChanged_of_hasText (s : Session) (h : hasText s.disk.files path text = true) :
    (runOn (writeIfChanged path text) s).1 = .ok () ∧
      (runOn (writeIfChanged path text) s).2.disk.files = s.disk.files := by
  rw [writeIfChanged, runOn_bind_ok runOn_files, if_pos h]
  exact ⟨rfl, rfl⟩

/-- A file that has been written has the text. -/
theorem content?_writeIfChanged (h : (runOn (writeIfChanged path text) s).1 = .ok ()) :
    (runOn (writeIfChanged path text) s).2.disk.files.content? path = some (.text text) := by
  cases hhas : hasText s.disk.files path text with
  | true =>
    rw [(runOn_writeIfChanged_of_hasText s hhas).2]
    exact FileSystem.content?_of_readText (hasText_iff.1 hhas)
  | false =>
    rw [writeIfChanged, runOn_bind_ok runOn_files, hhas] at h ⊢
    simp only [Bool.false_eq_true, if_false] at h ⊢
    cases hparent : path.parent? with
    | none =>
      rw [hparent] at h
      exact content?_writeFile h
    | some dir =>
      rw [hparent] at h
      obtain ⟨_, s', hdir, h⟩ := runOn_bind_eq_ok h
      simp only
      rw [runOn_bind_ok hdir]
      exact content?_writeFile h

theorem runOn_onDisk {context : Text} {steps : Editing Disk α} :
    runOn (onDisk context steps) s =
      ((runOn steps s.disk).1.mapError fun e => .caused context (.ofSection e),
        { s with disk := (runOn steps s.disk).2 }) := by
  rcases h : runOn steps s.disk with ⟨answer, disk⟩
  have hrun : StateT.run (ExceptT.run steps) s.disk = (answer, disk) := h
  rw [onDisk, runOn_get_bind]
  simp only [hrun]
  cases answer <;> rfl

/-- A text that could be read before the calls and still stands under its path is still found there. -/
theorem hasText_of_mirrors {fs : FileSystem} {paths : List Path} {disk : Disk} {draft : Draft}
    (h : Mirrors fs paths disk draft) (hread : fs.readText path = .ok text)
    (hsame : disk.files.content? path = fs.content? path) : hasText disk.files path text = true := by
  obtain ⟨hcontent, hcan⟩ := FileSystem.readText_eq_ok_iff.1 hread
  exact hasText_iff.2 (FileSystem.readText_eq_ok_iff.2 ⟨hsame.trans hcontent, (h.canRead_iff path).2 hcan⟩)

section

variable [MarkerLanguage]

theorem runOn_generate_error {e : SectionError} {disk : Disk}
    (h : runOn (p.updateReadme registry) s.disk = (.error e, disk)) :
    runOn (generate p registry help) s =
      (.error (.caused ("failed to update ".toList ++ p.readme) (.ofSection e)), { s with disk }) := by
  rw [generate, runOn_bind, runOn_onDisk, h]
  rfl

theorem runOn_generate_ok {b : Bool} {disk : Disk}
    (h : runOn (p.updateReadme registry) s.disk = (.ok b, disk)) :
    runOn (generate p registry help) s =
      runOn (writeIfChanged p.helpFile help) { s with disk } := by
  rw [generate, runOn_bind, runOn_onDisk, h]
  rfl

/-! ### Both -/

/-- What has to hold of the files of a project so that a check can tell what generating would do. -/
structure Checkable (fs : FileSystem) (p : Project) : Prop where
  different : ¬fs.SameFile p.readme p.helpFile
  writable : Rewritable fs [p.readme]
  /-- A help file with a text is not closed to the program. -/
  readable : ∀ t, fs.content? p.helpFile = some (.text t) → fs.readText p.helpFile = .ok t

/-- If a check passes, generating succeeds and changes no content. -/
theorem generate_of_check (hcheckable : Checkable s.disk.files p)
    (h : (runOn (check p registry help) s).1 = .ok ()) :
    (runOn (generate p registry help) s).1 = .ok () ∧
      ∀ q, (runOn (generate p registry help) s).2.disk.files.content? q =
        s.disk.files.content? q := by
  obtain ⟨⟨b, hanswer⟩, hstale, hhelp⟩ := check_ok_iff.1 h
  obtain ⟨hagree, hmirrors⟩ := Project.updateReadme_draft hcheckable.writable registry
  rcases hrun : runOn (p.updateReadme registry) s.disk with ⟨answer, disk⟩
  rw [hrun] at hagree hmirrors
  rw [← hagree] at hanswer
  have hsame (q : Path) : disk.files.content? q = s.disk.files.content? q := by
    by_contra hchanged
    obtain ⟨r, hr, -⟩ := (hmirrors.changed_iff q).1 hchanged
    rw [hstale] at hr
    cases hr
  have hhas := hasText_of_mirrors hmirrors (hasText_iff.1 hhelp) (hsame p.helpFile)
  obtain rfl : answer = .ok b := hanswer
  rw [runOn_generate_ok hrun]
  obtain ⟨hok, hfiles⟩ := runOn_writeIfChanged_of_hasText { s with disk } hhas
  exact ⟨hok, fun q => by rw [hfiles, hsame]⟩

/-- And the other way round. -/
theorem check_of_generate (hcheckable : Checkable s.disk.files p)
    (h : (runOn (generate p registry help) s).1 = .ok ())
    (hsame : ∀ q, (runOn (generate p registry help) s).2.disk.files.content? q =
      s.disk.files.content? q) :
    (runOn (check p registry help) s).1 = .ok () := by
  obtain ⟨hagree, hmirrors⟩ := Project.updateReadme_draft hcheckable.writable registry
  rcases hrun : runOn (p.updateReadme registry) s.disk with ⟨answer, disk⟩
  rw [hrun] at hagree hmirrors
  cases answer with
  | error e =>
    rw [runOn_generate_error hrun] at h
    cases h
  | ok b =>
    rw [runOn_generate_ok hrun] at h hsame
    have hcontent : s.disk.files.content? p.helpFile = some (.text help) := by
      rw [← hsame]
      exact content?_writeIfChanged h
    have hhelp := hcheckable.readable help hcontent
    -- Had the README taken the help file's text away, the two would be one file.
    have hkept : disk.files.content? p.helpFile = s.disk.files.content? p.helpFile := by
      by_contra hchanged
      obtain ⟨r, hr, hfile⟩ := (hmirrors.changed_iff p.helpFile).1 hchanged
      have hreadme := hmirrors.subset r (Draft.stale_subset r hr)
      rw [List.mem_singleton.1 hreadme] at hfile
      exact hcheckable.different hfile
    have hhas := hasText_of_mirrors hmirrors hhelp hkept
    obtain ⟨-, hfiles⟩ := runOn_writeIfChanged_of_hasText { s with disk } hhas
    rw [hfiles] at hsame
    refine check_ok_iff.2 ⟨⟨b, hagree.symm⟩, ?_, hasText_iff.2 hhelp⟩
    refine List.eq_nil_iff_forall_not_mem.2 fun r hr => ?_
    obtain ⟨t, ht⟩ := hmirrors.isText r (Draft.stale_subset r hr)
    obtain ⟨position, hat⟩ := FileSystem.fileAt?_of_readText ht
    exact (hmirrors.changed_iff r).2 ⟨r, hr, position, hat, hat⟩ (hsame r)

end

end Run

namespace Outcome

section

variable [MarkerLanguage] [GlobLanguage] [Toml.Reader] [Walker]

theorem ofArguments_eq (fs : FileSystem) (a : Arguments) :
    (ofArguments fs a).files = (runOn (Run.act a) ⟨⟨fs, []⟩, []⟩).2.disk.files ∧
      ((ofArguments fs a).code = 0 ↔ (runOn (Run.act a) ⟨⟨fs, []⟩, []⟩).1 = .ok ()) := by
  rcases hrun : runOn (Run.act a) ⟨⟨fs, []⟩, []⟩ with ⟨answer, session⟩
  have hact : StateT.run (ExceptT.run (Run.act a)) ⟨⟨fs, []⟩, []⟩ = (answer, session) := hrun
  rw [ofArguments]
  simp only [hact]
  cases answer <;> simp

/-- A run that checks changes no file. Where the README and the help file of the project are different
files, the README can be written if it can be read, and the help file is not closed to the program, it
passes exactly if the run that generates succeeds and leaves the content under every path as it was. -/
theorem check_agrees (fs : FileSystem) (a : Arguments) (hprint : a.print = none) :
    let checked := ofArguments fs { a with check := true }
    let generated := ofArguments fs { a with check := false }
    checked.files = fs ∧
      ((∀ p, (runOn (Run.openProject a) ⟨⟨fs, []⟩, []⟩).1 = .ok p → Run.Checkable fs p) →
        (checked.code = 0 ↔
          generated.code = 0 ∧ ∀ q, generated.files.content? q = fs.content? q)) := by
  intro checked generated
  have hact (b : Bool) : Run.act { a with check := b } = Run.prepare a >>= fun found =>
      if b then Run.check found.project found.registry found.help
      else Run.generate found.project found.registry found.help :=
    Run.act_eq hprint
  obtain ⟨hfiles, hcode⟩ := ofArguments_eq fs { a with check := true }
  obtain ⟨hfiles', hcode'⟩ := ofArguments_eq fs { a with check := false }
  rw [hact] at hfiles hcode hfiles' hcode'
  simp only [if_true] at hfiles hcode
  simp only [Bool.false_eq_true, if_false] at hfiles' hcode'
  constructor
  · rw [hfiles]
    exact (KeepsFiles.bind (Run.keepsFiles_prepare a) fun _ => Run.keepsFiles_check) _
  intro hcheckable
  rw [hcode, hcode', hfiles']
  have hkeeps := Run.keepsFiles_prepare a ⟨⟨fs, []⟩, []⟩
  rcases hrun : runOn (Run.prepare a) ⟨⟨fs, []⟩, []⟩ with ⟨e | found, s⟩
  · rw [runOn_bind_error hrun, runOn_bind_error hrun]
    simp
  · rw [hrun] at hkeeps
    obtain rfl : s.disk.files = fs := hkeeps
    rw [runOn_bind_ok hrun, runOn_bind_ok hrun]
    have hproject := hcheckable _ (Run.openProject_of_prepare (congrArg Prod.fst hrun))
    exact ⟨Run.generate_of_check hproject, fun ⟨hok, hsame⟩ =>
      Run.check_of_generate hproject hok hsame⟩

end

section

open scoped Standard

def plainArguments : Arguments :=
  ⟨none, none, none, false, none, false, false, false⟩

/-- A project with settings, a README and a source file, and some more entries. -/
def demoFiles (settings : Text) (entries : List (Position × Entry)) : FileSystem :=
  .ofEntries ([(["nvimdoc.toml".toList], .file (.text settings)),
    (["README.md".toList], .file (.text "<!-- API -->\n\n\n<!-- /API -->\n".toList)),
    (["lua".toList], .directory), (["lua".toList, "demo".toList], .directory),
    (["lua".toList, "demo".toList, "init.lua".toList], .file (.text []))] ++ entries)

/-- The directory of the help file, and the help file of a module without functions. -/
def demoHelp : List (Position × Entry) :=
  let file : HelpFile :=
    ⟨"demo.txt".toList, "demo".toList, [⟨"API".toList, "demo-api".toList, [[]]⟩]⟩
  [(["doc".toList], .directory),
    (["doc".toList, "demo.txt".toList], .file (.text (Text.unlines (file.render 80) ++ ['\n'])))]

/-- Nothing stands in the way of a check of this project, with its help file and without it. -/
theorem checkable_demoFiles {entries : List (Position × Entry)} (h : entries = [] ∨ entries = demoHelp)
    {p : Project} (hopen : (runOn (Run.openProject plainArguments) ⟨⟨demoFiles [] entries, []⟩, []⟩).1 =
      .ok p) : Run.Checkable (demoFiles [] entries) p := by
  obtain ⟨hreadme, hhelp⟩ : p.readme = "./README.md".toList ∧ p.helpFile = "./doc/demo.txt".toList := by
    have hpaths : ((runOn (Run.openProject plainArguments) ⟨⟨demoFiles [] entries, []⟩, []⟩).1.map
        fun p => (p.readme, p.helpFile)) =
          .ok ("./README.md".toList, "./doc/demo.txt".toList) := by
      obtain rfl | rfl := h <;> decide +kernel
    rw [hopen] at hpaths
    simpa [Except.map] using hpaths
  have hmay (right : Right) (position : Position) : (demoFiles [] entries).may right position = true := rfl
  constructor
  · rw [hreadme, hhelp]
    have hdifferent : (demoFiles [] entries).fileAt? "./README.md".toList ≠
        (demoFiles [] entries).fileAt? "./doc/demo.txt".toList := by
      obtain rfl | rfl := h <;> decide +kernel
    rintro ⟨position, hat, hat'⟩
    exact hdifferent (hat.trans hat'.symm)
  · exact rewritable_of_may fun _ _ _ _ _ => hmay _ _
  · intro t hcontent
    obtain ⟨position, hat, -⟩ := FileSystem.content?_eq_some_iff.1 hcontent
    exact FileSystem.readText_eq_ok_iff.2 ⟨hcontent, position, hat, hmay _ _⟩

/-- A project whose help file is up to date, and one whose help file has not been written yet. -/
theorem check_agrees_demo :
    ((ofArguments (demoFiles [] demoHelp) { plainArguments with check := true }).code = 0 ∧
      (ofArguments (demoFiles [] demoHelp) plainArguments).code = 0 ∧
      ∀ q, (ofArguments (demoFiles [] demoHelp) plainArguments).files.content? q =
        (demoFiles [] demoHelp).content? q) ∧
    (ofArguments (demoFiles [] []) { plainArguments with check := true }).code = 1 ∧
      (ofArguments (demoFiles [] []) plainArguments).code = 0 ∧
      ∃ q, (ofArguments (demoFiles [] []) plainArguments).files.content? q ≠
        (demoFiles [] []).content? q := by
  constructor
  · have hcode : (ofArguments (demoFiles [] demoHelp) { plainArguments with check := true }).code = 0 := by
      decide +kernel
    obtain ⟨-, hagree⟩ := check_agrees (demoFiles [] demoHelp) plainArguments rfl
    exact ⟨hcode, (hagree fun p => checkable_demoFiles (.inr rfl)).1 hcode⟩
  · have hcode : (ofArguments (demoFiles [] []) { plainArguments with check := true }).code = 1 := by
      decide +kernel
    have hcode' : (ofArguments (demoFiles [] []) plainArguments).code = 0 := by decide +kernel
    obtain ⟨-, hagree⟩ := check_agrees (demoFiles [] []) plainArguments rfl
    refine ⟨hcode, hcode', not_forall.1 fun hsame => ?_⟩
    have hpasses := (hagree fun p => checkable_demoFiles (.inl rfl)).2 ⟨hcode', hsame⟩
    cases hcode.symm.trans hpasses

/-- Generating may make a directory on the way to a help file that is up to date, and the check fails though
the content of no file changes. So it does if the program may write the help file and not read it. -/
theorem check_agrees_hidden :
    let fs := demoFiles "vimdoc = \"new/../doc/demo.txt\"\n".toList demoHelp
    let hidden := { demoFiles [] demoHelp with
      denied := [(["doc".toList, "demo.txt".toList], .read)] }
    (ofArguments fs { plainArguments with check := true }).code = 1 ∧
      (ofArguments fs plainArguments).code = 0 ∧
      (ofArguments fs plainArguments).files = .ofEntries (fs.entries ++ [(["new".toList], .directory)]) ∧
      (ofArguments hidden { plainArguments with check := true }).code = 1 ∧
      (ofArguments hidden plainArguments).code = 0 ∧
      (ofArguments hidden plainArguments).files = hidden := by
  intro fs hidden
  refine ⟨?_, ?_, ?_, ?_, ?_, ?_⟩ <;> decide +kernel

end

end Outcome

end LuaDocs
