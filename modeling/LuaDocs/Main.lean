import LuaDocs.Command.Options
import LuaDocs.Command.Run
import LuaDocs.Files.SortedWalk
import LuaDocs.Marker.Reader
import LuaDocs.Project.Glob
import LuaDocs.Toml.Reader

/-!
# The command line

The files below the working directory, and below the root of the project if that is elsewhere, are read
into a file system, the run is computed on it, and what the run has changed is written back. A link stays
a link; the file that it leads to is read as well, wherever it is.
-/

namespace LuaDocs

open scoped Standard

def positionOf (path : Text) : Position :=
  (Text.splitOn '/' path).filter (!·.isEmpty)

def absolutePath (position : Position) : Path :=
  '/' :: Text.join ['/'] position

/-- Entries that have been read, and the rights that were found to be missing. -/
structure Findings where
  entries : List (Position × Entry)
  denied : List (Position × Right)

namespace Findings

instance : Append Findings where
  append a b := ⟨a.entries ++ b.entries, a.denied ++ b.denied⟩

def leadingTo (position : Position) : Findings :=
  ⟨(List.range position.length).map fun n => (position.take (n + 1), .directory), []⟩

/-- A right that an action needs, if the system denies it. -/
def probe (position : Position) (right : Right) (action : IO Unit) : IO (List (Position × Right)) := do
  try
    action
    return []
  catch
    | .permissionDenied .. => return [(position, right)]
    | _ => return []

/-- A file, with the rights that the program has in it. -/
def ofFile (position : Position) : IO Findings := do
  let path := String.ofList (absolutePath position)
  let content ← try IO.FS.readBinFile path catch _ => pure .empty
  let reading ← probe position .read (discard (IO.FS.Handle.mk path .read))
  let writing ← probe position .write (discard (IO.FS.Handle.mk path .append))
  return ⟨[(position, .file (.ofBytes content))], reading ++ writing⟩

/-- What stands at a position and below it. Entries that cannot be accessed are passed over. -/
partial def below (position : Position) (entries : IO (Array IO.FS.DirEntry)) : IO Findings := do
  let denied ← probe position .read (discard entries)
  let found ← try entries catch _ => pure #[]
  let parts ← found.toList.mapM fun entry => do
    let position := position ++ [entry.fileName.toList]
    try
      match (← entry.path.symlinkMetadata).type with
      | .dir => below position entry.path.readDir
      | .file => ofFile position
      | .symlink =>
        let target := (← IO.FS.realPath entry.path).toString.toList
        let file : Findings ← if (← entry.path.metadata).type == .file then do
            let there := positionOf target
            pure (leadingTo there.dropLast ++ (← ofFile there))
          else pure ⟨[], []⟩
        return ⟨[(position, .link target)], []⟩ ++ file
      | .other => return ⟨[], []⟩
    catch _ => return ⟨[], []⟩
  return parts.foldl (· ++ ·) ⟨[(position, .directory)], denied⟩

/-- What stands below the directory that a path leads to. -/
def ofDirectory (path : String) : IO Findings := do
  try
    let real ← IO.FS.realPath path
    let position := positionOf real.toString.toList
    return leadingTo position.dropLast ++ (← below position real.readDir)
  catch _ => return ⟨[], []⟩

def files (found : Findings) (here : Position) : FileSystem :=
  let distinct := found.entries.foldl (fun es e => if es.any (·.1 == e.1) then es else e :: es) []
  ⟨distinct.reverse, here, found.denied⟩

end Findings

/-- The files that some arguments are about. -/
def readFiles (words : List Text) : IO FileSystem := do
  let here ← IO.FS.realPath (← IO.currentDir)
  let root := match ArgumentReader.read words with
    | .ok a => String.ofList (a.root.getD ['.'])
    | .error _ => "."
  let found := (← Findings.ofDirectory here.toString) ++ (← Findings.ofDirectory root)
  return found.files (positionOf here.toString.toList)

/-- Write the files and directories that one file system has and another does not. -/
def writeChanges (old new : FileSystem) : IO Unit :=
  for (position, entry) in new.entries do
    if old.entry? position != some entry then
      let path := String.ofList (absolutePath position)
      match entry with
      | .directory => IO.FS.createDirAll path
      | .file content => IO.FS.writeBinFile path content.toBytes
      | .link _ => pure ()

end LuaDocs

open LuaDocs LuaDocs.Standard

/-- Runs the command with some arguments. -/
def main (args : List String) : IO UInt32 := do
  let words := args.map String.toList
  let files ← readFiles words
  let outcome := Outcome.ofWords files words
  for line in outcome.printed do
    IO.println (String.ofList line)
  for line in outcome.log do
    IO.eprintln (String.ofList line)
  writeChanges files outcome.files
  return outcome.code.toUInt32
