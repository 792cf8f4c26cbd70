import LuaDocs.TypeExpr.Basic

/-!
# Documented declarations

What a file documents: functions with their parameters and return values, and types declared as
classes, as lists of literal values, or as other names for a type expression.
-/

namespace LuaDocs

/-- A line of a source file. -/
structure Location where
  /-- The path of the file below the source root, with `/` between its parts. -/
  file : Text
  /-- The number of the line; the first line has number one. -/
  line : Nat
  deriving DecidableEq, Inhabited

namespace Location

def text (l : Location) : Text :=
  l.file ++ ':' :: Text.ofNat l.line

/-- Locations are ordered by file, then by line. -/
def precedes (a b : Location) : Bool :=
  if a.file == b.file then a.line ≤ b.line else Text.notAfter a.file b.file

def ordered (a b : Location) : Location × Location :=
  if a.precedes b then (a, b) else (b, a)

end Location

/-- A parameter of a function or a field of a class. -/
structure Member where
  name : Text
  type : TypeExpr
  description : Option Text
  /-- Marked as optional, or of a type that admits being left out. -/
  optional : Bool
  deriving Inhabited

/-- A return value of a function. -/
structure ReturnValue where
  type : TypeExpr
  description : Option Text
  deriving Inhabited

inductive Visibility where
  /-- Part of the documented interface. -/
  | exposed
  /-- Declared local to its file, or an undocumented key of a table. -/
  | local
  /-- Marked as private, by a tag or by a leading underscore. -/
  | hidden
  deriving DecidableEq, Inhabited

/-- A documented function. -/
structure FunctionDoc where
  /-- The last part of the declared name. -/
  name : Text
  /-- The name exactly as declared. -/
  declaredName : Text
  params : List Member
  returns : List ReturnValue
  /-- Paragraphs with an empty line between them; empty when undocumented. -/
  description : Text
  note : Option Text
  /-- The empty text when deprecated without an explanation. -/
  deprecated : Option Text
  generics : List Text
  visibility : Visibility
  location : Location
  deriving Inhabited

namespace FunctionDoc

/-- The types that a function mentions: those of its parameters, then those of its return values. -/
def types (f : FunctionDoc) : List TypeExpr :=
  f.params.map (·.type) ++ f.returns.map (·.type)

end FunctionDoc

/-- A literal value that an enumeration admits. -/
structure Variant where
  /-- The literal exactly as written. -/
  value : Text
  description : Option Text
  deriving DecidableEq, Inhabited

inductive TypeKind where
  /-- A class with its parents and fields. -/
  | record (parents : List TypeExpr) (fields : List Member)
  /-- An alias whose alternatives are all literals. -/
  | enumeration (variants : List Variant)
  /-- An alias of any other type expression. -/
  | typeAlias (type : TypeExpr)
  deriving Inhabited

namespace TypeKind

def label : TypeKind → Text
  | record _ _ => "class".toList
  | enumeration _ => "enum".toList
  | typeAlias _ => "alias".toList

/-- The types that a declaration mentions, in written order. -/
def types : TypeKind → List TypeExpr
  | record parents fields => parents ++ fields.map (·.type)
  | enumeration _ => []
  | typeAlias t => [t]

end TypeKind

structure TypeDoc where
  name : Text
  generics : List Text
  kind : TypeKind
  /-- Paragraphs with an empty line between them; empty when undocumented. -/
  description : Text
  location : Location
  deriving Inhabited

namespace TypeDoc

/-- The types that a declaration mentions, in written order. -/
def types (t : TypeDoc) : List TypeExpr :=
  t.kind.types

end TypeDoc

/-- The declarations of one file, in the order of the file. -/
structure FileDocs where
  functions : List FunctionDoc
  types : List TypeDoc
  deriving Inhabited

namespace FileDocs

def empty : FileDocs :=
  ⟨[], []⟩

end FileDocs

end LuaDocs
