import LuaDocs.Command.Arguments
import LuaDocs.Project.Artifacts
import LuaDocs.Project.Scan

/-!
# Running the command

A run scans the sources of a project and then does one of three things: it prints the interface, checks
that the README and the help file are up to date, or brings them up to date. It acts on a file system
and leaves a log; a failure ends it with a report and keeps what has been done so far.
-/

namespace LuaDocs

/-- Why a run fails. -/
structure Failure where
  message : Text
  /-- The messages of what it was caused by, the nearest cause first. -/
  causes : List Text
  deriving DecidableEq

namespace Failure

def plain (message : Text) : Failure :=
  ⟨message, []⟩

def caused (message : Text) (cause : Failure) : Failure :=
  ⟨message, cause.message :: cause.causes⟩

def ofIo (e : IoError) : Failure :=
  plain e.message

def ofSectionFault (e : SectionFault) : Failure :=
  match e with
  | .invalidMarker _ fault => caused e.message (plain fault)
  | _ => plain e.message

def ofSection (e : SectionError) : Failure :=
  match e with
  | .marker fault => ofSectionFault fault
  | .io _ error => caused e.message (ofIo error)
  | .inFile _ fault => caused e.message (ofSectionFault fault)

def ofConfig (e : ConfigError) : Failure :=
  match e with
  | .io _ error => caused e.message (ofIo error)
  | .parse _ fault => caused e.message (plain fault)
  | .missingModule _ => plain e.message

def ofScan (e : ScanError) : Failure :=
  match e with
  | .rootNotFound _ => plain e.message
  | .walk _ fault => ⟨e.message, fault.message :: fault.causes⟩
  | .exclude _ fault => caused e.message (plain fault)

/-- The lines of one cause. The number of a cause is shown if there are several. -/
def causeLines (numbered : Bool) (message : Text) (number : Nat) : List Text :=
  let digits := Text.ofNat number
  let lead :=
    if numbered then Text.spaces (5 - digits.length) ++ digits ++ ": ".toList
    else Text.spaces 4
  match Text.splitOn '\n' message with
  | [] => []
  | first :: rest =>
    (lead ++ first) :: rest.map (Text.spaces (if numbered then 7 else 4) ++ ·)

/-- The report of a failure: its message, and below it its causes. -/
def report (f : Failure) : Text :=
  let numbered := 1 < f.causes.length
  let lines := ((f.causes.zipIdx).map fun (m, n) => causeLines numbered m n).flatten
  "Error: ".toList ++ f.message ++
    if f.causes.isEmpty then []
    else "\n\nCaused by:\n".toList ++ Text.unlines lines

end Failure

namespace Event

/-- A character as the log shows it. Characters that a terminal could take for a command are written by
their numbers; tabs and the ends of lines stay. -/
def shown (c : Char) : Text :=
  let n := c.toNat
  if n == 0x1b || n == 0x07 || n == 0x08 || n == 0x0c || n == 0x7f then
    "\\x".toList ++ Text.ofNatHex n
  else if 0x80 ≤ n && n ≤ 0x9f then "\\u\x7b".toList ++ Text.ofNatHex n ++ ['\x7d']
  else [c]

def line (e : Event) : Text :=
  let level := match e.level with
    | .debug => "DEBUG"
    | .info => " INFO"
    | .warn => " WARN"
  level.toList ++ ' ' :: e.message.flatMap shown

end Event

/-- What a run works on. -/
structure Session where
  disk : Disk
  /-- The lines printed so far. -/
  printed : List Text

/-- Steps of a run. -/
abbrev Run := ExceptT Failure (StateM Session)

namespace Run

def files : Run FileSystem :=
  return (← get).disk.files

def logAll (events : List Event) : Run Unit :=
  modify fun s => { s with disk := { s.disk with log := s.disk.log ++ events } }

def log (level : Level) (message : Text) : Run Unit :=
  logAll [⟨level, message⟩]

/-- The value of an answer; a fault ends the run as `failure` says. -/
def ofExcept {ε α : Type} (failure : ε → Failure) : Except ε α → Run α
  | .ok a => return a
  | .error e => throw (failure e)

/-- Steps on the disk as steps of a run. What they changed before a fault stays changed. -/
def onDisk {α : Type} (context : Text) (steps : Editing Disk α) : Run α := do
  let s ← get
  let (answer, disk) := StateT.run (ExceptT.run steps) s.disk
  set { s with disk }
  ofExcept (fun e => .caused context (.ofSection e)) answer

/-- The project that the arguments ask for. -/
def openProject [Toml.Reader] (a : Arguments) : Run Project := do
  let root := a.root.getD ['.']
  let fs ← files
  let config ← match a.config with
    | some path => ofExcept .ofConfig (Config.load fs path)
    | none => do
      if let some path := Config.find? fs root then log .debug ("loading ".toList ++ path)
      ofExcept .ofConfig (Config.discover fs root)
  let project ← ofExcept .ofConfig (Project.resolve fs root config a.moduleName)
  log .debug ("module ".toList ++ project.moduleName ++ " in ".toList ++ project.sourceDir)
  return project

/-- The registry of the sources of a project. -/
def scan [GlobLanguage] [Walker] (p : Project) : Run Registry := do
  let excludes ← ofExcept .ofScan (Scan.compileExcludes p.exclude)
  let context := "failed to scan ".toList ++ p.sourceDir
  let (answer, events) := Scan.build (← files) p.sourceDir excludes
  logAll events
  let registry ← ofExcept (fun e => .caused context (.ofScan e)) answer
  log .info ("scanned ".toList ++ Text.ofNat registry.files.length ++ " files, ".toList ++
    Text.ofNat registry.diagnostics.length ++ " diagnostics".toList)
  return registry

/-- Report the faults in the doc comments. They end the run if warnings are denied. -/
def reportDiagnostics (deny : Bool) (diagnostics : List Diagnostic) : Run Unit := do
  logAll (diagnostics.map fun d => ⟨.warn, d.message⟩)
  if deny && !diagnostics.isEmpty then
    throw (.plain (Text.ofNat diagnostics.length ++
      " warning(s) reported and warnings are denied".toList))

/-- Print the interface in a format. -/
def print (p : Project) (registry : Registry) (formatName : Text) : Run Unit := do
  let format ← ofExcept (fun e => .plain e.message) (Format.ofName formatName)
  let functions := p.apiFunctions registry
  log .debug ("rendering ".toList ++ Text.ofNat functions.length ++ " functions as ".toList ++
    format.name)
  let lines := format.render p.layout p.moduleName functions registry
  modify fun s => { s with printed := s.printed ++ lines }

def hasText (fs : FileSystem) (path : Path) (text : Text) : Bool :=
  match fs.readText path with
  | .ok current => current == text
  | .error _ => false

/-- Fail if the README or the help file is out of date. -/
def check [MarkerLanguage] (p : Project) (registry : Registry) (help : Text) : Run Unit := do
  let fs ← files
  let steps : Editing Draft Bool := p.updateReadme registry
  let (answer, draft) := StateT.run (ExceptT.run steps) (Draft.ofFiles fs)
  let context := "failed to render ".toList ++ p.readme
  let _ ← ofExcept (fun e => .caused context (.ofSection e)) answer
  let stale := draft.stale ++ if hasText fs p.helpFile help then [] else [p.helpFile]
  if stale.isEmpty then log .info "documentation is up to date".toList
  else do
    logAll (stale.map fun path => ⟨.warn, "out of date: ".toList ++ path⟩)
    throw (.plain (Text.ofNat stale.length ++
      " file(s) out of date; run nvimdoc to regenerate".toList))

def createDirectories (path : Path) : Run Unit := do
  let s ← get
  let (answer, files) := s.disk.files.createDirectories path
  set { s with disk := { s.disk with files } }
  let context := "failed to create directory: ".toList ++ path
  ofExcept (fun e => .caused context (.ofIo e)) answer

def writeIfChanged (path : Path) (text : Text) : Run Unit := do
  if hasText (← files) path text then log .debug (path ++ " unchanged".toList)
  else do
    match path.parent? with
    | some dir => createDirectories dir
    | none => pure ()
    let context := "failed to write ".toList ++ path
    let fs ← ofExcept (fun e => .caused context (.ofIo e)) ((← files).writeText path text)
    modify fun s => { s with disk := { s.disk with files := fs } }
    log .info ("wrote ".toList ++ path)

def generate [MarkerLanguage] (p : Project) (registry : Registry) (help : Text) : Run Unit := do
  let steps : Editing Disk Bool := p.updateReadme registry
  let _ ← onDisk ("failed to update ".toList ++ p.readme) steps
  writeIfChanged p.helpFile help

def act [MarkerLanguage] [GlobLanguage] [Toml.Reader] [Walker] (a : Arguments) : Run Unit := do
  let p ← openProject a
  let registry ← scan p
  reportDiagnostics (a.denyWarnings || p.denyWarnings) registry.diagnostics
  if (registry.file? p.apiFile).isNone then
    throw (.plain ("API file not found: ".toList ++ p.sourceDir.join p.apiFile))
  match a.print with
  | some format => print p registry format
  | none => do
    let options ← onDisk "failed to read default options".toList p.optionLines
    let help := p.helpText registry options
    if a.check then check p registry help else generate p registry help

end Run

/-- What is left of a run. -/
structure Outcome where
  /-- The exit code. -/
  code : Nat
  /-- The lines printed. -/
  printed : List Text
  /-- The lines of the log, and below them the report of a failure. -/
  log : List Text
  files : FileSystem

namespace Outcome

/-- Whether the arguments let a message through. Details are shown only when asked for. -/
def shows (a : Arguments) (e : Event) : Bool :=
  !a.quiet && (a.verbose || e.level != .debug)

variable [MarkerLanguage] [GlobLanguage] [Toml.Reader] [Walker]

/-- What comes of a run with some arguments. -/
def ofArguments (fs : FileSystem) (a : Arguments) : Outcome :=
  let (answer, session) := StateT.run (ExceptT.run (Run.act a)) ⟨⟨fs, []⟩, []⟩
  let log := (session.disk.log.filter (shows a)).map Event.line
  match answer with
  | .ok () => ⟨0, session.printed, log, session.disk.files⟩
  | .error failure => ⟨1, session.printed, log ++ [failure.report], session.disk.files⟩

/-- What comes of a run with some words on its command line. -/
def ofWords [ArgumentReader] (fs : FileSystem) (words : List Text) : Outcome :=
  match ArgumentReader.read words with
  | .error .usage => ⟨2, [], [], fs⟩
  | .error .help => ⟨0, [], [], fs⟩
  | .ok a => ofArguments fs a

end Outcome

end LuaDocs
