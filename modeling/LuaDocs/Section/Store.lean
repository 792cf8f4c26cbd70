import LuaDocs.Files.FileSystem
import LuaDocs.Section.Basic

/-!
# Editing sections of files

Sections are replaced through a store. The disk writes every change to the file system and says so in
its log. A draft leaves the file system alone and keeps changed texts to itself, so that it can tell
afterwards which files a run would change. Both read, splice and compare in the same way; they differ
in where a text is read from and put.
-/

namespace LuaDocs

inductive Level where
  | debug
  | info
  | warn
  deriving DecidableEq

/-- A message about the progress of a run. -/
structure Event where
  level : Level
  message : Text
  deriving DecidableEq

inductive SectionError where
  | marker (fault : SectionFault)
  /-- The file cannot be read or written. -/
  | io (path : Path) (error : IoError)
  /-- The file has no such section. -/
  | inFile (path : Path) (fault : SectionFault)
  deriving DecidableEq

namespace SectionError

def message : SectionError → Text
  | marker fault => fault.message
  | io path error => path ++ ": ".toList ++ error.message
  | inFile path fault => path ++ ": ".toList ++ fault.message

end SectionError

/-- A place where texts are kept under paths. -/
class SectionStore (σ : Type) where
  /-- The file system below the store. -/
  files : σ → FileSystem
  /-- The text under a path. -/
  read : σ → Path → Except IoError Text
  /-- The store with a text under a path. -/
  write : σ → Path → Text → Except IoError σ
  /-- The store with a message in its log, if it has one. -/
  note : σ → Event → σ

/-- Steps on a store that may fail. What a step changed before it failed stays changed. -/
abbrev Editing (σ : Type) := ExceptT SectionError (StateM σ)

namespace Editing

open SectionStore

variable {σ : Type} [SectionStore σ]

def readText (path : Path) : Editing σ Text := do
  match read (← get) path with
  | .ok text => return text
  | .error e => throw (.io path e)

def writeText (path : Path) (text : Text) : Editing σ Unit := do
  match write (← get) path text with
  | .ok store => set store
  | .error e => throw (.io path e)

def log (level : Level) (message : Text) : Editing σ Unit :=
  modify fun store => note store ⟨level, message⟩

variable [MarkerLanguage]

/-- Replace the lines in a section of the text under a path. The answer tells whether the text has
changed; a text that has not is left alone. -/
def replace (path : Path) (markers : Markers) (body : List Text) : Editing σ Bool := do
  let old ← readText path
  match markers.splice old body with
  | .error fault => throw (.inFile path fault)
  | .ok new =>
    if old == new then
      log .debug (path ++ ": section ".toList ++ markers.start ++ " unchanged".toList)
      return false
    writeText path new
    log .info ("updated ".toList ++ markers.start ++ " in ".toList ++ path)
    return true

def readSection (path : Path) (markers : Markers) : Editing σ (List Text) := do
  match (files (← get)).readText path with
  | .error e => throw (.io path e)
  | .ok text =>
    match markers.bodyOf text with
    | .error fault => throw (.inFile path fault)
    | .ok body => return body

def hasMarker (marker : Text) (text : Text) : Editing σ Bool := do
  match Markers.occurs marker text with
  | .error fault => throw (.marker fault)
  | .ok found => return found

end Editing

/-- A file system and the messages about the changes to it. -/
structure Disk where
  files : FileSystem
  /-- The messages so far, in order. -/
  log : List Event

namespace Disk

instance : SectionStore Disk where
  files := Disk.files
  read disk path := disk.files.readText path
  write disk path text := (disk.files.writeText path text).map fun files => { disk with files }
  note disk event := { disk with log := disk.log ++ [event] }

end Disk

/-- Changes to a file system that have not been made. -/
structure Draft where
  files : FileSystem
  /-- The changed texts, each under the path by which it was changed first. -/
  pending : List (Path × Text)

namespace Draft

/-- No changes yet. -/
def ofFiles (files : FileSystem) : Draft :=
  ⟨files, []⟩

/-- The changed text under a path. -/
def pending? (draft : Draft) (path : Path) : Option Text :=
  (draft.pending.find? (·.1.same path)).map (·.2)

def put (draft : Draft) (path : Path) (text : Text) : Draft :=
  if draft.pending.any (·.1.same path) then
    { draft with pending := draft.pending.map fun e => if e.1.same path then (e.1, text) else e }
  else { draft with pending := draft.pending ++ [(path, text)] }

instance : SectionStore Draft where
  files := Draft.files
  read draft path :=
    match draft.pending? path with
    | some text => .ok text
    | none => draft.files.readText path
  write draft path text := .ok (draft.put path text)
  note draft _ := draft

/-- The paths under which the file system has another text than the draft, in the order of paths. -/
def stale (draft : Draft) : List Path :=
  let changed := draft.pending.filter fun (path, text) =>
    match draft.files.readText path with
    | .ok current => current != text
    | .error _ => true
  (changed.map (·.1)).mergeSort Path.notAfter

end Draft

end LuaDocs
