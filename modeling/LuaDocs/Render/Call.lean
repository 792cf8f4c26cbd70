import LuaDocs.Declaration.Basic

/-!
# Calls

The synthesized call of a function, which both forms of documentation use as its heading.
-/

namespace LuaDocs

namespace FunctionDoc

def call (f : FunctionDoc) (mark : Member → Text) : Text :=
  f.name ++ '(' :: Text.join ", ".toList (f.params.map mark) ++ [')']

end FunctionDoc

namespace Member

/-- The name of a parameter with a question mark when it is optional. -/
def markedName (m : Member) : Text :=
  if m.optional then m.name ++ ['?'] else m.name

/-- The name of a field with a question mark when its type does not already tell that it is
optional. -/
def fieldName (m : Member) : Text :=
  if m.optional && !m.type.isOptional then m.name ++ ['?'] else m.name

end Member

end LuaDocs
