import LuaDocs.Comment.Block
import LuaDocs.Declaration.Diagnostic
import LuaDocs.TypeExpr.Parser

/-!
# Tag bodies

The forms of the text after a tag's keyword: the entry of a parameter or field, the types of return
values, the head of a class or an alias, a list of type parameters. A tag may leave out its type
when variants follow it directly; their union is then the type.
-/

namespace LuaDocs.Tag

open Text

/-- The free text at the end of a tag, without the `#` that may set it off; `none` if there is
none. -/
def description? (s : Text) : Option Text :=
  let s := trim s
  let s := trim ((after? ['#'] s).getD s)
  if s.isEmpty then none else some s

/-- The type that opens a tag body and the text after it. A body that opens with `#` goes straight
to the description. -/
def type? (body : Text) : Option TypeExpr × Text :=
  if ['#'].isPrefixOf (trimStart body) then (none, body)
  else match TypeExpr.leading? body with
    | some (t, r) => (some t, r.1)
    | none => (none, [])

/-- The type that the variants right at the front of a block amount to, if there are any. -/
def variantUnion? (block : Block) : Option TypeExpr :=
  let variants := block.takeWhile fun l => match l.content with
    | .variant _ => true
    | _ => false
  let types := variants.filterMap fun l => match l.content with
    | .variant text => (TypeExpr.leading? text).map (·.1)
    | _ => none
  if types.isEmpty then none else some (TypeExpr.ofAlternatives types)

/-- The names of a list of type parameters such as `T, U : table`. -/
def genericNames (s : Text) : List Text :=
  (splitOn ',' s).filterMap fun part => (name? isNameChar (skipBlanks part)).map (·.1)

/-! ### Parameters and fields -/

def bracketKey? (s : Text) : Option (Text × Text) :=
  match after? ['['] s with
  | none => none
  | some s =>
    match s.dropWhile (· != ']') with
    | [] => none
    | c :: rest => some ('[' :: s.takeWhile (· != ']') ++ [c], rest)

/-- The name of an entry and the text after it: `...`, a key in brackets, or a plain name. -/
def entryName? (s : Text) : Option (Text × Text) :=
  match after? "...".toList s with
  | some rest => some ("...".toList, rest)
  | none => (bracketKey? s).or (name? isNameChar s)

def afterName? : Text → Option Text
  | [] => some []
  | s => someBlanks? s

/-- The body of a parameter or field tag, `name[?] type [description]`. The type is that of the
`variants` after the tag when the body has none. -/
def member (body : Text) (variants : Option TypeExpr) : Except TagFault Member :=
  match entryName? (trim body) with
  | none => .error .missingIdentifier
  | some (name, s) =>
    let marked := ['?'].isPrefixOf s
    match afterName? (if marked then s.drop 1 else s) with
    | none => .error .missingIdentifier
    | some s =>
      let (type, rest) := type? s
      match type.or variants with
      | none => .error .missingType
      | some t => .ok ⟨name, t, description? rest, marked || t.isOptional⟩

/-- The words that may stand in front of a field and say who may use it. -/
def scopes : List Text :=
  ["public".toList, "private".toList, "protected".toList, "package".toList]

def dropScope (body : Text) : Text :=
  (scopes.findSome? fun scope => (after? scope body).bind someBlanks?).getD body

/-! ### Return values -/

/-- One or more types with commas between them, and the text after the last. -/
def typeList (s : Text) : Except TagFault (List TypeExpr × Text) :=
  match TypeExpr.leading? s with
  | none => .error .missingType
  | some (t, r) =>
    match closing? ',' r.1 with
    | none => .ok ([t], r.1)
    | some r' => do
      let (ts, rest) ← typeList r'.1
      return (t :: ts, rest)
termination_by s.length
decreasing_by
  exact (r.trans r').2

def describeLast : List TypeExpr → Option Text → List ReturnValue
  | [], _ => []
  | [t], d => [⟨t, d⟩]
  | t :: ts, d => ⟨t, none⟩ :: describeLast ts d

/-- The body of a return tag, `type[, type...] [description]`. The description belongs to the last
value. -/
def returnValues (body : Text) (variants : Option TypeExpr) :
    Except TagFault (List ReturnValue) :=
  match type? body with
  | (none, rest) =>
    match variants with
    | none => .error .missingType
    | some t => .ok [⟨t, description? rest⟩]
  | (some _, _) => do
    let (ts, rest) ← typeList body
    return describeLast ts (description? rest)

/-! ### Classes and aliases -/

structure ClassHead where
  name : Text
  generics : List Text
  parents : List TypeExpr

/-- The text after a remark in parentheses that may open a class tag. -/
def skipRemark? (s : Text) : Option Text :=
  match after? ['('] s with
  | none => some s
  | some s =>
    match s.dropWhile (· != ')') with
    | [] => none
    | _ :: rest => some (skipBlanks rest)

/-- The type parameters in angle brackets after the name of a class, and the text after them. -/
def classGenerics? (s : Text) : Option (List Text × Text) :=
  match after? ['<'] s with
  | none => some ([], s)
  | some s =>
    match s.dropWhile (· != '>') with
    | [] => none
    | _ :: rest => some (genericNames (s.takeWhile (· != '>')), rest)

def parentTypes (s : Text) : List TypeExpr :=
  (((splitOn ',' s).map trim).filter (!·.isEmpty)).map TypeExpr.parse

/-- The parents after the name of a class: nothing, or a colon and a list. -/
def classParents? (s : Text) : Option (List TypeExpr) :=
  match skipBlanks s with
  | [] => some []
  | ':' :: rest => some (parentTypes (skipBlanks rest))
  | _ => none

/-- The body of a class tag, `(exact) Name<T> : Parent, Other`. -/
def classHead? (body : Text) : Option ClassHead := do
  let s ← skipRemark? body
  let (name, s) ← name? isDottedChar s
  let (generics, s) ← classGenerics? s
  let parents ← classParents? s
  return ⟨name, generics, parents⟩

structure AliasHead where
  name : Text
  type : Option TypeExpr
  description : Option Text

/-- The body of an alias tag, `Name type description`. -/
def aliasHead? (body : Text) : Option AliasHead :=
  match name? isDottedChar body with
  | none => none
  | some (name, []) => some ⟨name, none, none⟩
  | some (name, s) =>
    (someBlanks? s).map fun s =>
      match TypeExpr.leading? s with
      | some (t, r) => ⟨name, some t, description? r.1⟩
      | none => ⟨name, none, none⟩

end LuaDocs.Tag
