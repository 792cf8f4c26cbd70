import LuaDocs.TypeExpr.Basic

/-!
# Printing type expressions

The one written form of a type. A union or a function stands in parentheses only where a postfix
follows it, since a postfix binds tighter than either. An alternative of a union never does, so a `|`
after a function with a result is read as part of the result.
-/

namespace LuaDocs.TypeExpr

/-- Whether a type needs parentheses in front of `[]` or `?`. -/
def needsParens : TypeExpr → Bool
  | union _ => true
  | function _ _ => true
  | _ => false

/-- A printed type as the operand of a postfix. -/
def operand (t : TypeExpr) (printed : Text) : Text :=
  if t.needsParens then '(' :: printed ++ [')'] else printed

mutual

/-- The written form of a type. -/
def print : TypeExpr → Text
  | builtin b => b.name
  | named n => n
  | declared n => n
  | literal s => s
  | array t => operand t (print t) ++ "[]".toList
  | optional t => operand t (print t) ++ "?".toList
  | union ts => Text.join "|".toList (printAll ts)
  | container n ts => n ++ "<".toList ++ Text.join ", ".toList (printAll ts) ++ ">".toList
  | function ps rs =>
    "fun(".toList ++ Text.join ", ".toList (printFields ps) ++ ")".toList ++
      match printAll rs with
      | [] => []
      | rs => ": ".toList ++ Text.join ", ".toList rs
  | table [] => "\x7b\x7d".toList
  | table (f :: fs) => "\x7b ".toList ++ Text.join ", ".toList (printFields (f :: fs)) ++ " \x7d".toList

def printAll : List TypeExpr → List Text
  | [] => []
  | t :: ts => print t :: printAll ts

def printFields : List (Text × TypeExpr) → List Text
  | [] => []
  | (k, t) :: fs => (k ++ ": ".toList ++ print t) :: printFields fs

end

end LuaDocs.TypeExpr
