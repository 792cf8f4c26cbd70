import LuaDocs.Files.Walk
import LuaDocs.Project.Exclusion
import LuaDocs.Registry.Basic
import LuaDocs.Section.Store

/-!
# Scanning a source directory

The registry of all source files below a directory. A file is known by its label, the path below the
directory, and files are read in the order of their labels. Files that a pattern excludes, that cannot
be read or that are no text are left out; the log tells which.
-/

namespace LuaDocs

/-- Why a source directory cannot be scanned. -/
inductive ScanError where
  | rootNotFound (root : Path)
  /-- The root of the walk itself cannot be accessed. -/
  | walk (root : Path) (fault : WalkFault)
  /-- A text that should exclude files is no file pattern, in the words of the language of patterns. -/
  | exclude (pattern fault : Text)
  deriving DecidableEq

namespace ScanError

def message : ScanError → Text
  | rootNotFound root => "source root not found: ".toList ++ root
  | walk root fault => "failed to walk ".toList ++ root ++ ": ".toList ++ fault.message
  | exclude pattern fault =>
    "invalid exclude pattern \x60".toList ++ pattern ++ "\x60: ".toList ++ fault

end ScanError

structure UnsupportedFile where
  path : Path
  deriving DecidableEq

namespace UnsupportedFile

def message (e : UnsupportedFile) : Text :=
  "unsupported file type: ".toList ++ e.path

end UnsupportedFile

namespace Source

def isSource (path : Path) : Bool :=
  path.extension? == some "lua".toList

/-- What a file with some content documents, if it is a source file. -/
def parseFile (path : Path) (label content : Text) : Except UnsupportedFile ParsedFile :=
  if isSource path then .ok (.ofContent label content) else .error ⟨path⟩

end Source

namespace Scan

open Text

/-- What labels some file patterns match. -/
def compileExcludes [GlobLanguage] (patterns : List Text) : Except ScanError (List (Text → Bool)) :=
  patterns.mapM fun pattern => (GlobLanguage.compile pattern).mapError (.exclude pattern)

/-- The source files that a walk comes upon, each with its label, and the messages about the others. A
fault at the root of the walk ends it. -/
def select (root : Path) (excludes : List (Text → Bool)) :
    List (Except WalkFault WalkEntry) → Except ScanError (List (Text × Path)) × List Event
  | [] => (.ok [], [])
  | .error fault :: rest =>
    if fault.depth == 0 then (.error (.walk root fault), [])
    else
      let (found, log) := select root excludes rest
      (found, ⟨.warn, "skipping unreadable entry: ".toList ++ fault.message⟩ :: log)
  | .ok entry :: rest =>
    let (found, log) := select root excludes rest
    let label := root.relativeTo entry.path
    if !(entry.isFile && Source.isSource entry.path) then (found, log)
    else if excludes.any (· label) then (found, ⟨.debug, "excluded ".toList ++ label⟩ :: log)
    else (found.map ((label, entry.path) :: ·), log)

/-- Files are read in the order of their labels, and those with one label in the order of paths. -/
def readBefore (a b : Text × Path) : Bool :=
  if a.1 == b.1 then a.2.notAfter b.2 else notAfter a.1 b.1

def parsedEvent (label : Text) (file : ParsedFile) : Event :=
  ⟨.debug, "parsed ".toList ++ label ++ ": ".toList ++ ofNat file.docs.functions.length ++
    " functions, ".toList ++ ofNat file.docs.types.length ++ " types".toList⟩

def skippedEvent (path : Path) (reason : Text) : Event :=
  ⟨.warn, "skipping ".toList ++ path ++ ": ".toList ++ reason⟩

def readFiles (fs : FileSystem) : List (Text × Path) → List (Text × ParsedFile) × List Event
  | [] => ([], [])
  | (label, path) :: rest =>
    let (files, log) := readFiles fs rest
    match fs.readText path with
    | .error e => (files, skippedEvent path e.message :: log)
    | .ok content =>
      match Source.parseFile path label content with
      | .error e => (files, skippedEvent path e.message :: log)
      | .ok file => ((label, file) :: files, parsedEvent label file :: log)

/-- The registry of the source files below a directory, and the messages about the scan. -/
def build [Walker] (fs : FileSystem) (root : Path) (excludes : List (Text → Bool)) :
    Except ScanError Registry × List Event :=
  if !fs.isDirectory root then (.error (.rootNotFound root), [])
  else
    match select root excludes (Walker.walk fs root) with
    | (.error e, log) => (.error e, log)
    | (.ok found, log) =>
      let (files, read) := readFiles fs (found.mergeSort readBefore)
      (.ok (.ofParsed files), log ++ read)

end Scan

end LuaDocs
