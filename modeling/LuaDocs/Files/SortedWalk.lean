import LuaDocs.Files.Walk

/-!
# Walking in the order of names

All files below a directory, depth first and the entries of a directory in the order of their names.
Links are followed; a link to a directory that the walk is inside of would never end and is reported
instead, and so are a link that leads nowhere and a directory that cannot be listed.
-/

namespace LuaDocs

namespace WalkFault

def ofAccess (depth : Nat) (path : Path) (error : IoError) : WalkFault :=
  ⟨depth, "IO error for operation on ".toList ++ path ++ ": ".toList ++ error.message, [error.message]⟩

def ofTarget (depth : Nat) (error : IoError) : WalkFault :=
  ⟨depth, error.message, [error.message]⟩

def ofLoop (depth : Nat) (path ancestor : Path) : WalkFault :=
  ⟨depth,
    "File system loop found: ".toList ++ path ++ " points to an ancestor ".toList ++ ancestor, []⟩

end WalkFault

/-- What a walk comes upon. -/
inductive WalkStep where
  /-- A file, with the names that lead to it from the root of the walk. -/
  | file (names : List Text)
  | fault (fault : WalkFault)
  deriving DecidableEq

/-- A directory that a walk is inside of. -/
structure WalkLevel where
  position : Position
  path : Path
  /-- The names that lead to it from the root of the walk. -/
  names : List Text

namespace FileSystem

/-- What an entry of a directory is to a walk: a file, another directory at some position, or a fault
that passes over it. `levels` are the directories that the walk is inside of, the innermost first. -/
def look (fs : FileSystem) (levels : List WalkLevel) (directory : Position) (name : Text)
    (depth : Nat) (path : Path) : Except WalkFault (Option Position) :=
  match fs.entry? (directory ++ [name]) with
  | none => .error (.ofAccess depth path .notFound)
  | some (.file _) => .ok none
  | some .directory =>
    if fs.may .search directory then .ok (some (directory ++ [name]))
    else .error (.ofAccess depth path .permissionDenied)
  | some (.link _) =>
    match walkLinks fs .target maxLinks directory [name] with
    | .error e => .error (.ofAccess depth path e)
    | .ok (.absent _ _) => .error (.ofAccess depth path .notFound)
    | .ok (.found position .directory) =>
      if !fs.may .read position then .error (.ofTarget depth .permissionDenied)
      else match levels.find? (·.position == position) with
        | some level => .error (.ofLoop depth path level.path)
        | none => .ok (some position)
    | .ok (.found _ _) => .ok none

/-- A walk below the innermost of some directories, at most `depth` directories deep. -/
def walkBelow (fs : FileSystem) : Nat → WalkLevel → List WalkLevel → List WalkStep
  | 0, _, _ => []
  | depth + 1, level, outer =>
    if fs.may .read level.position then
      (fs.children level.position).flatMap fun name =>
        let path := level.path.join name
        let names := level.names ++ [name]
        match fs.look (level :: outer) level.position name names.length path with
        | .error fault => [.fault fault]
        | .ok none => [.file names]
        | .ok (some position) => walkBelow fs depth ⟨position, path, names⟩ (level :: outer)
    else [.fault (.ofAccess level.names.length level.path .permissionDenied)]

/-- A depth that no walk exceeds. Between two links that a walk follows it goes down at most as deep as
the entries are nested, and it follows no two links to one directory. -/
def maxDepth (fs : FileSystem) : Nat :=
  (fs.entries.length + 2) * (fs.entries.length + 2)

def walkFrom (fs : FileSystem) (root : Path) : List WalkStep :=
  match fs.directory? root with
  | none => [.fault (.ofAccess 0 root .notFound)]
  | some position => fs.walkBelow fs.maxDepth ⟨position, root, []⟩ []

end FileSystem

namespace WalkStep

def found (root : Path) : WalkStep → Except WalkFault WalkEntry
  | file names => .ok ⟨root.below names, true⟩
  | fault e => .error e

end WalkStep

namespace Standard

scoped instance walker : Walker where
  walk fs root := (fs.walkFrom root).map (WalkStep.found root)

end Standard

end LuaDocs
