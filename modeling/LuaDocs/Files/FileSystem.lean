import LuaDocs.Files.Path

/-!
# File systems

A file system as a value. An entry is a file, a directory or a symbolic link, and it is kept under its
position: the names that lead to it from the root of all files. Some of it may be denied to the program,
file by file and directory by directory. Reading and writing go by path; `locate` turns a path into a
position, following links, from the root or from the working directory.
-/

namespace LuaDocs

inductive Content where
  | text (t : Text)
  /-- Bytes that are no text. -/
  | bytes (b : List UInt8)
  deriving DecidableEq

namespace Content

def ofBytes (b : ByteArray) : Content :=
  match String.fromUTF8? b with
  | some s => text s.toList
  | none => bytes b.toList

def toBytes : Content → ByteArray
  | text t => (String.ofList t).toUTF8
  | bytes b => ⟨b.toArray⟩

end Content

/-- The names that lead to an entry from the root of all files. -/
abbrev Position := List Text

namespace Position

def up : Text :=
  "..".toList

/-- The position of the directory above. The root stands above itself. -/
def above (p : Position) : Position :=
  p.dropLast

end Position

inductive Entry where
  | file (content : Content)
  | directory
  /-- A symbolic link to a path. A relative one starts from the directory of the link. -/
  | link (target : Path)
  deriving DecidableEq

inductive Right where
  /-- Read a file, or list a directory. -/
  | read
  /-- Write a file, or make entries in a directory. -/
  | write
  /-- Pass through a directory. -/
  | search
  deriving DecidableEq

/-- Why an access to a file fails. -/
inductive IoError where
  | notFound
  | permissionDenied
  | fileExists
  | notDirectory
  | isDirectory
  | nameTooLong
  | tooManyLinks
  | nulInPath
  | notText
  deriving DecidableEq

namespace IoError

def message : IoError → Text
  | notFound => "No such file or directory (os error 2)".toList
  | permissionDenied => "Permission denied (os error 13)".toList
  | fileExists => "File exists (os error 17)".toList
  | notDirectory => "Not a directory (os error 20)".toList
  | isDirectory => "Is a directory (os error 21)".toList
  | nameTooLong => "File name too long (os error 36)".toList
  | tooManyLinks => "Too many levels of symbolic links (os error 40)".toList
  | nulInPath => "file name contained an unexpected NUL byte".toList
  | notText => "stream did not contain valid UTF-8".toList

end IoError

/-- All files, and where the program stands among them. -/
structure FileSystem where
  entries : List (Position × Entry)
  /-- The working directory, where relative paths start. -/
  here : Position
  /-- The rights that the program does not have. -/
  denied : List (Position × Right)
  deriving DecidableEq

namespace FileSystem

open Text

/-- Some entries, of which nothing is denied. The working directory is the root. -/
def ofEntries (entries : List (Position × Entry)) : FileSystem :=
  ⟨entries, [], []⟩

/-! ### Entries -/

/-- What stands at a position. The root has no entry of its own. -/
def entry? (fs : FileSystem) (position : Position) : Option Entry :=
  if position.isEmpty then some .directory else fs.entries.lookup position

/-- Whether the program has a right at a position. -/
def may (fs : FileSystem) (right : Right) (position : Position) : Bool :=
  !fs.denied.contains (position, right)

def set (fs : FileSystem) (position : Position) (entry : Entry) : FileSystem :=
  { fs with
    entries :=
      if fs.entries.any (·.1 == position) then
        fs.entries.map fun e => if e.1 == position then (position, entry) else e
      else fs.entries ++ [(position, entry)] }

def erase (fs : FileSystem) (position : Position) : FileSystem :=
  { fs with entries := fs.entries.filter (·.1 != position) }

/-- The name of an entry right below a directory. -/
def childName? (directory : Position) (position : Position) : Option Text :=
  match directory.isPrefixOf? position with
  | some [name] => some name
  | _ => none

/-- The names right below a directory, in ascending order. -/
def children (fs : FileSystem) (directory : Position) : List Text :=
  (fs.entries.filterMap fun e => childName? directory e.1).mergeSort notAfter

/-! ### Locating paths -/

/-- Where a path leads: to an entry, or to a name that a directory does not have. -/
inductive Place where
  | found (position : Position) (entry : Entry)
  | absent (directory : Position) (name : Text)
  deriving DecidableEq

/-- What a path is wanted for. -/
inductive Access where
  /-- The last entry itself, even if it is a link. -/
  | entry
  /-- What the last entry leads to. -/
  | target
  /-- A file that is to be written. -/
  | newFile
  deriving DecidableEq

/-- The parts of a path as steps from directory to directory. A slash at the end asks for a directory
and makes an empty last step. -/
def steps (p : Path) : List Text :=
  let named := (splitOn '/' p).filter (!·.isEmpty)
  if endsWith ['/'] p && !named.isEmpty then named ++ [[]] else named

/-- Where a path starts that is written in a directory. -/
def origin (directory : Position) (p : Path) : Position :=
  if ['/'].isPrefixOf p then [] else directory

/-- The number of bytes of a text in the encoding of all sources. -/
def byteLength (t : Text) : Nat :=
  t.foldl (fun n c => n + c.utf8Size) 0

def maxName : Nat := 255

def maxPath : Nat := 4095

/-- Whether a step may be taken from a directory. An empty step stays where it is. -/
def mayStep (fs : FileSystem) (directory : Position) (step : Text) : Bool :=
  step.isEmpty || fs.may .search directory

/-- Follow steps from a directory. `onLink` says how to go on from where a link leads, with the steps of
its target in front. A file that is to be written cannot have a slash at its end, whatever is there. -/
def walk (fs : FileSystem) (access : Access)
    (onLink : Position → List Text → Except IoError Place) :
    Position → List Text → Except IoError Place
  | directory, [] => .ok (.found directory .directory)
  | directory, step :: rest =>
    if !fs.mayStep directory step then .error .permissionDenied
    else if step.isEmpty || step == ['.'] then walk fs access onLink directory rest
    else if step == Position.up then walk fs access onLink directory.above rest
    else if access == .newFile && rest == [[]] then .error .isDirectory
    else if maxName < byteLength step then .error .nameTooLong
    else
      let position := directory ++ [step]
      match fs.entry? position with
      | none => if rest.isEmpty then .ok (.absent directory step) else .error .notFound
      | some .directory => walk fs access onLink position rest
      | some (.file content) =>
        if rest.isEmpty then .ok (.found position (.file content)) else .error .notDirectory
      | some (.link target) =>
        if rest.isEmpty && access == .entry then .ok (.found position (.link target))
        else onLink (origin directory target) (steps target ++ rest)

/-- Follow steps from a directory over at most `links` links. -/
def walkLinks (fs : FileSystem) (access : Access) :
    Nat → Position → List Text → Except IoError Place
  | 0 => walk fs access fun _ _ => .error .tooManyLinks
  | links + 1 => walk fs access (walkLinks fs access links)

/-- How many links one path may lead over. -/
def maxLinks : Nat := 40

/-- Where a path leads. -/
def locate (fs : FileSystem) (access : Access) (p : Path) : Except IoError Place :=
  if p.contains '\x00' then .error .nulInPath
  else if maxPath < byteLength p then .error .nameTooLong
  else if p.isEmpty then .error .notFound
  else walkLinks fs access maxLinks (origin fs.here p) (steps p)

/-! ### Reading -/

def textOf : Entry → Except IoError Text
  | .file (.text t) => .ok t
  | .file (.bytes _) => .error .notText
  | .directory => .error .isDirectory
  | .link _ => .error .tooManyLinks

/-- The text of a file. -/
def readText (fs : FileSystem) (p : Path) : Except IoError Text :=
  match fs.locate .target p with
  | .error e => .error e
  | .ok (.absent _ _) => .error .notFound
  | .ok (.found position entry) =>
    if fs.may .read position then textOf entry else .error .permissionDenied

def content? (fs : FileSystem) (p : Path) : Option Content :=
  match fs.locate .target p with
  | .ok (.found _ (.file content)) => some content
  | _ => none

def isFile (fs : FileSystem) (p : Path) : Bool :=
  (fs.content? p).isSome

def directory? (fs : FileSystem) (p : Path) : Option Position :=
  match fs.locate .target p with
  | .ok (.found position .directory) => some position
  | _ => none

def isDirectory (fs : FileSystem) (p : Path) : Bool :=
  (fs.directory? p).isSome

/-- Whether a path leads to a directory that the program may list. -/
def canList (fs : FileSystem) (p : Path) : Bool :=
  (fs.directory? p).any (fs.may .read)

/-! ### Writing -/

def put (fs : FileSystem) (owner position : Position) (entry : Entry) : Except IoError FileSystem :=
  if fs.may .write owner then .ok (fs.set position entry) else .error .permissionDenied

/-- The file system with other content in a file. The file is created if its directory exists. -/
def writeContent (fs : FileSystem) (p : Path) (content : Content) : Except IoError FileSystem :=
  match fs.locate .newFile p with
  | .error e => .error e
  | .ok (.found _ .directory) => .error .isDirectory
  | .ok (.found position _) => fs.put position position (.file content)
  | .ok (.absent directory name) => fs.put directory (directory ++ [name]) (.file content)

def writeText (fs : FileSystem) (p : Path) (t : Text) : Except IoError FileSystem :=
  fs.writeContent p (.text t)

def createDirectory (fs : FileSystem) (p : Path) : Except IoError FileSystem :=
  match fs.locate .entry p with
  | .error e => .error e
  | .ok (.found _ _) => .error .fileExists
  | .ok (.absent directory name) => fs.put directory (directory ++ [name]) .directory

/-- Create the first of several directories, where each further one is the directory above the one
before it. Directories above are created only if they are missing, and stay if a later step fails. -/
def createMissing (fs : FileSystem) : List Path → Except IoError Unit × FileSystem
  | [] => (.error .notFound, fs)
  | p :: above =>
    if p.isEmpty then (.ok (), fs)
    else
      let settle (e : IoError) (fs : FileSystem) : Except IoError Unit × FileSystem :=
        (if fs.isDirectory p then .ok () else .error e, fs)
      match fs.createDirectory p with
      | .ok fs => (.ok (), fs)
      | .error .notFound =>
        match createMissing fs above with
        | (.error e, fs) => (.error e, fs)
        | (.ok (), fs) =>
          match fs.createDirectory p with
          | .ok fs => (.ok (), fs)
          | .error e => settle e fs
      | .error e => settle e fs

def createDirectories (fs : FileSystem) (p : Path) : Except IoError Unit × FileSystem :=
  fs.createMissing p.ancestors

/-- Remove a file or a link; `none` if the path leads to neither. -/
def remove? (fs : FileSystem) (p : Path) : Option FileSystem :=
  match fs.locate .entry p with
  | .ok (.found _ .directory) => none
  | .ok (.found position _) => some (fs.erase position)
  | _ => none

end FileSystem

end LuaDocs
