import LuaDocs.Comment.Line
import LuaDocs.Declaration.Basic

/-!
# Diagnostics

Faults in doc comments from which reading recovers. Each is a cause; `message` is the one place that
words them.
-/

namespace LuaDocs

inductive TagFault where
  | missingIdentifier
  | missingType
  | missingGenericName
  | missingClassName
  | missingAliasName
  deriving DecidableEq

namespace TagFault

def message : TagFault → Text
  | missingIdentifier => "missing identifier".toList
  | missingType => "missing type".toList
  | missingGenericName => "missing generic name".toList
  | missingClassName => "missing class name".toList
  | missingAliasName => "missing alias name".toList

end TagFault

/-- How the documented parameters of a function disagree with its declaration. -/
inductive Mismatch where
  /-- A declared parameter is not documented. -/
  | missingTag (param : Text)
  /-- A documented parameter is not declared. -/
  | unknownParam (param : Text)
  /-- The parameters are the same, in another order or number. -/
  | order (documented declared : List Text)
  deriving DecidableEq

namespace Mismatch

def message : Mismatch → Text
  | missingTag p => "parameter \x60".toList ++ p ++ "\x60 has no @param tag".toList
  | unknownParam p => "@param \x60".toList ++ p ++ "\x60 is not in the signature".toList
  | order documented declared =>
    "@param order (".toList ++ Text.join ", ".toList documented ++
      ") differs from signature (".toList ++ Text.join ", ".toList declared ++ ")".toList

end Mismatch

/-- A fault from which reading recovers. -/
inductive Diagnostic where
  /-- A tag that does not have the form of its kind. -/
  | malformedTag (location : Location) (directive : Directive) (fault : TagFault)
  /-- A name in a type that no file declares. -/
  | unresolvedType (location : Location) (name : Text)
  /-- A name that is declared twice. -/
  | duplicateName (name : Text) (first second : Location)
  /-- A disagreement between tags and declaration. -/
  | signatureMismatch (location : Location) (function : Text) (mismatch : Mismatch)
  deriving DecidableEq

namespace Diagnostic

def location : Diagnostic → Location
  | malformedTag l _ _ => l
  | unresolvedType l _ => l
  | duplicateName _ _ second => second
  | signatureMismatch l _ _ => l

def message : Diagnostic → Text
  | malformedTag l d fault =>
    l.text ++ ": malformed @".toList ++ d.keyword ++ " tag: ".toList ++ fault.message
  | unresolvedType l name =>
    l.text ++ ": unresolved type reference \x60".toList ++ name ++ "\x60".toList
  | duplicateName name first second =>
    "duplicate name \x60".toList ++ name ++ "\x60: declared at ".toList ++ first.text ++
      " and ".toList ++ second.text
  | signatureMismatch l function mismatch =>
    l.text ++ ": ".toList ++ function ++ ": ".toList ++ mismatch.message

end Diagnostic

end LuaDocs
