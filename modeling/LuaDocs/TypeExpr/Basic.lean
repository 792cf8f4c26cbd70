import LuaDocs.Text.Basic

/-!
# Type expressions

The types that doc comments give to parameters, return values, fields and aliases. A name that is
not built in starts out as `named`; once it is matched to a declaration it is `declared`, and
`mapNamesM` is the traversal that makes this step.
-/

namespace LuaDocs

inductive Builtin where
  | nil | any | unknown | boolean | string | number | integer | table | function | thread
  | userdata | lightuserdata
  deriving DecidableEq

namespace Builtin

def all : List Builtin :=
  [nil, any, unknown, boolean, string, number, integer, table, function, thread, userdata,
    lightuserdata]

def name : Builtin → Text
  | nil => "nil".toList
  | any => "any".toList
  | unknown => "unknown".toList
  | boolean => "boolean".toList
  | string => "string".toList
  | number => "number".toList
  | integer => "integer".toList
  | table => "table".toList
  | function => "function".toList
  | thread => "thread".toList
  | userdata => "userdata".toList
  | lightuserdata => "lightuserdata".toList

def ofName? (s : Text) : Option Builtin :=
  all.find? (·.name == s)

end Builtin

/-- A type expression. -/
inductive TypeExpr where
  /-- A built-in type. -/
  | builtin (type : Builtin)
  /-- A name not matched to a declaration, or a text that is no type expression, kept whole. -/
  | named (name : Text)
  /-- A name matched to a declaration. -/
  | declared (name : Text)
  /-- A string, number or truth value, exactly as written. -/
  | literal (text : Text)
  /-- A list of elements, `T[]`. -/
  | array (element : TypeExpr)
  /-- A value that may be left out, `T?`. -/
  | optional (inner : TypeExpr)
  /-- One of several types, `T|U`. -/
  | union (alternatives : List TypeExpr)
  /-- A type applied to arguments, `name<T, U>`. -/
  | container (name : Text) (args : List TypeExpr)
  /-- A function, `fun(a: T, b?: U): R`. -/
  | function (params : List (Text × TypeExpr)) (returns : List TypeExpr)
  /-- A table with known keys, `{ key: T, ... }`. -/
  | table (fields : List (Text × TypeExpr))
  deriving Inhabited

namespace TypeExpr

/-- The type of a value about which nothing is known. -/
def any : TypeExpr :=
  builtin .any

/-- One type stands for itself; several are alternatives of a union. -/
def ofAlternatives : List TypeExpr → TypeExpr
  | [t] => t
  | ts => union ts

def isLiteral : TypeExpr → Bool
  | literal _ => true
  | _ => false

/-! ### Values that may be left out -/

mutual

/-- A value may be left out if its type is `T?` or `nil`, or a union with such an alternative. -/
def isOptional : TypeExpr → Bool
  | optional _ => true
  | builtin b => b == .nil
  | union ts => anyOptional ts
  | _ => false

def anyOptional : List TypeExpr → Bool
  | [] => false
  | t :: ts => isOptional t || anyOptional ts

end

/-! ### Parts -/

mutual

/-- The type and every type inside it, a type before its parts and parts in written order. -/
def subterms : TypeExpr → List TypeExpr
  | array t => array t :: subterms t
  | optional t => optional t :: subterms t
  | union ts => union ts :: subtermsAll ts
  | container n ts => container n ts :: subtermsAll ts
  | function ps rs => function ps rs :: (subtermsFields ps ++ subtermsAll rs)
  | table fs => table fs :: subtermsFields fs
  | t => [t]

def subtermsAll : List TypeExpr → List TypeExpr
  | [] => []
  | t :: ts => subterms t ++ subtermsAll ts

def subtermsFields : List (Text × TypeExpr) → List TypeExpr
  | [] => []
  | (_, t) :: fs => subterms t ++ subtermsFields fs

end

/-- The name of a leaf that is not matched to a declaration. -/
def openName? : TypeExpr → Option Text
  | named n => some n
  | _ => none

/-- The name of a leaf that is matched to a declaration. -/
def declaredName? : TypeExpr → Option Text
  | declared n => some n
  | _ => none

/-- The unmatched names of a type, in written order. -/
def names (t : TypeExpr) : List Text :=
  t.subterms.filterMap openName?

/-! ### Replacing names -/

section

variable {m : Type → Type} [Monad m] (f : Text → m TypeExpr)

mutual

/-- The type with every unmatched name passed through `f`, in written order. -/
def mapNamesM : TypeExpr → m TypeExpr
  | named n => f n
  | array t => return array (← mapNamesM t)
  | optional t => return optional (← mapNamesM t)
  | union ts => return union (← mapNamesAllM ts)
  | container n ts => return container n (← mapNamesAllM ts)
  | function ps rs => do
    let ps ← mapNamesFieldsM ps
    let rs ← mapNamesAllM rs
    return function ps rs
  | table fs => return table (← mapNamesFieldsM fs)
  | t => return t

def mapNamesAllM : List TypeExpr → m (List TypeExpr)
  | [] => return []
  | t :: ts => do
    let t ← mapNamesM t
    let ts ← mapNamesAllM ts
    return t :: ts

def mapNamesFieldsM : List (Text × TypeExpr) → m (List (Text × TypeExpr))
  | [] => return []
  | (k, t) :: fs => do
    let t ← mapNamesM t
    let fs ← mapNamesFieldsM fs
    return (k, t) :: fs

end

end

def mapNames (f : Text → TypeExpr) (t : TypeExpr) : TypeExpr :=
  Id.run (t.mapNamesM fun n => pure (f n))

end TypeExpr

end LuaDocs
