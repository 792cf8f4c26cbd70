import LuaDocs.Text.Basic

/-!
# Arguments of the command

What the command is asked to do. How the words of a command line tell it is not decided here: an
`ArgumentReader` says it.
-/

namespace LuaDocs

structure Arguments where
  /-- The root of the project. -/
  root : Option Text
  config : Option Text
  moduleName : Option Text
  denyWarnings : Bool
  /-- The format to print the interface in. -/
  print : Option Text
  check : Bool
  verbose : Bool
  quiet : Bool
  deriving DecidableEq

inductive Refusal where
  /-- The arguments are wrong. -/
  | usage
  /-- The arguments ask for help. -/
  | help
  deriving DecidableEq

/-- A way to read the words of a command line. -/
class ArgumentReader where
  read (words : List Text) : Except Refusal Arguments

end LuaDocs
