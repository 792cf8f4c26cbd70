import LuaDocs.Files.FileSystem

/-!
# Walks

What there is in a directory and in all directories below it, entry by entry. How a directory is walked
is not decided here: a `Walker` says what a walk comes upon and in which order.
-/

namespace LuaDocs

/-- An entry that a walk comes upon. Its path is that of the root with the names that lead to it. -/
structure WalkEntry where
  path : Path
  isFile : Bool
  deriving DecidableEq

structure WalkFault where
  /-- How deep below the root of the walk the entry is. The root itself is at depth zero. -/
  depth : Nat
  message : Text
  /-- The messages of what it was caused by, the nearest cause first. -/
  causes : List Text
  deriving DecidableEq

/-- A way to walk below a directory. Links are followed. -/
class Walker where
  /-- What a walk below the directory under a path comes upon. -/
  walk (fs : FileSystem) (root : Path) : List (Except WalkFault WalkEntry)

end LuaDocs
