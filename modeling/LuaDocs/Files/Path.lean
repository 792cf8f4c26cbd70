import LuaDocs.Text.Basic

/-!
# Paths

A path is kept as it was written. What it names is decided by its components: a slash more or less and
a dot in the middle change nothing about them, but they stay in the text, since messages show it.
-/

namespace LuaDocs

/-- The path of a file, with `/` between its parts. -/
abbrev Path := Text

namespace Path

open Text

/-- A component of a path. -/
inductive Component where
  /-- The root of all files. -/
  | root
  /-- The directory that a relative path starts from, when the path names it. -/
  | here
  /-- The parent directory. -/
  | up
  | name (text : Text)
  deriving DecidableEq

namespace Component

/-- The place of a kind of component in the order of components. -/
def rank : Component → Nat
  | root => 0
  | here => 1
  | up => 2
  | name _ => 3

def text : Component → Text
  | root => ['/']
  | here => ['.']
  | up => "..".toList
  | name text => text

def before : Component → Component → Bool
  | name a, name b => !Text.notAfter b a
  | a, b => a.rank < b.rank

end Component

def join (base part : Path) : Path :=
  if ['/'].isPrefixOf part || base.isEmpty then part
  else if endsWith ['/'] base then base ++ part
  else base ++ '/' :: part

/-- The path that some names lead to, one below the other. -/
def below (base : Path) (names : List Text) : Path :=
  names.foldl join base

/-- A part of a path that names nothing: it is empty, or a dot. -/
def isIdle (part : Text) : Bool :=
  part.isEmpty || part == ['.']

def component? (part : Text) : Option Component :=
  if isIdle part then none
  else if part == "..".toList then some .up
  else some (.name part)

def components (p : Path) : List Component :=
  match splitOn '/' p with
  | [] => []
  | first :: rest =>
    let lead : List Component :=
      if first.isEmpty then (if rest.isEmpty then [] else [.root])
      else if first == ['.'] then [.here]
      else (component? first).toList
    lead ++ rest.filterMap component?

/-- The order of two lists of components, by the first that differs. -/
def componentsBefore : List Component → List Component → Bool
  | _, [] => false
  | [], _ :: _ => true
  | a :: as, b :: bs => a.before b || (a == b && componentsBefore as bs)

/-- Paths are ordered by their components. -/
def notAfter (p q : Path) : Bool :=
  !componentsBefore (components q) (components p)

/-- A path as it is seen from a root: its parts below that of the root. A path elsewhere keeps all of
them. -/
def relativeTo (root p : Path) : Text :=
  let parts := ((components root).isPrefixOf? (components p)).getD (components p)
  Text.join ['/'] (parts.map Component.text)

/-- Whether two paths have the same components. -/
def same (p q : Path) : Bool :=
  components p == components q

def fileName? (p : Path) : Option Text :=
  match (components p).getLast? with
  | some (.name n) => some n
  | _ => none

/-- The extension of a file name: what follows its last dot, unless that dot comes first. -/
def extensionOf? (name : Text) : Option Text :=
  let extension := (name.reverse.takeWhile (· != '.')).reverse
  if extension.length + 1 < name.length then some extension else none

/-- The extension of the file that a path ends in. -/
def extension? (p : Path) : Option Text :=
  (fileName? p).bind extensionOf?

/-- The paths that the parts of a path lead through, the longest first. The parts are given last part
first and follow the text `lead`. -/
def leadingPaths (lead : Text) : List Text → List Path
  | [] =>
    if lead.isEmpty then [[]]
    else if lead == ['/'] then [['/']]
    else [['.'], []]
  | part :: parts =>
    if isIdle part then leadingPaths lead parts
    else (lead ++ Text.join ['/'] (part :: parts).reverse) :: leadingPaths lead parts

/-- A path and the directories above it, from the path itself to the front of its text. -/
def ancestors (p : Path) : List Path :=
  match splitOn '/' p with
  | [] => []
  | first :: rest =>
    if first.isEmpty && !rest.isEmpty then leadingPaths ['/'] rest.reverse
    else if first == ['.'] then leadingPaths "./".toList rest.reverse
    else leadingPaths [] (first :: rest).reverse

/-- The directory above what a path names. -/
def parent? (p : Path) : Option Path :=
  (ancestors p)[1]?

end Path

end LuaDocs
