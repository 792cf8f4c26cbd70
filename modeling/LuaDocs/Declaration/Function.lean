import LuaDocs.Declaration.Prose
import LuaDocs.Declaration.Signature
import LuaDocs.Declaration.Tag

/-!
# Functions from doc blocks

The block above a function is read line by line. Every tag decides where the prose after it goes,
until the next tag: to the parameter or the return value it has just added, to the note, to the
reason of a deprecation, or nowhere. A malformed tag is reported and the rest of the block is used.
-/

namespace LuaDocs

/-- Where the next line of prose belongs. -/
inductive ProseTarget where
  /-- The description of the declaration. -/
  | description
  /-- The description of a parameter or field, by its index. -/
  | member (index : Nat)
  /-- The description of a return value, by its index. -/
  | returnValue (index : Nat)
  /-- The description of a variant, by its index. -/
  | variant (index : Nat)
  | note
  | deprecated
  /-- No description: the line is dropped. -/
  | nowhere
  deriving DecidableEq

def Member.appendProse (text : Text) (m : Member) : Member :=
  { m with description := Prose.append m.description text }

def ReturnValue.appendProse (text : Text) (r : ReturnValue) : ReturnValue :=
  { r with description := Prose.append r.description text }

structure FunctionDraft where
  description : Paragraphs
  params : List Member
  returns : List ReturnValue
  note : Option Text
  deprecated : Option Text
  generics : List Text
  /-- The block has a tag that makes the function private. -/
  hidden : Bool
  target : ProseTarget
  diagnostics : List Diagnostic

namespace FunctionDraft

/-- Nothing read yet. Prose goes to the description. -/
def empty : FunctionDraft :=
  ⟨.empty, [], [], none, none, [], false, .description, []⟩

def addProse (d : FunctionDraft) (text : Text) : FunctionDraft :=
  match d.target with
  | .description => { d with description := d.description.push text }
  | .member i => { d with params := d.params.modify i (Member.appendProse text) }
  | .returnValue i => { d with returns := d.returns.modify i (ReturnValue.appendProse text) }
  | .note => { d with note := Prose.appendLine d.note text }
  | .deprecated => { d with deprecated := Prose.append d.deprecated text }
  | .variant _ | .nowhere => d

/-- A draft with a fault reported at a tag. Prose after the tag is dropped. -/
def report (d : FunctionDraft) (here : Location) (directive : Directive) (fault : TagFault) :
    FunctionDraft :=
  { d with
    target := .nowhere
    diagnostics := d.diagnostics ++ [.malformedTag here directive fault] }

/-- A draft with a tag taken into account; `variants` is the type that the variants after the tag
amount to. -/
def addTag (d : FunctionDraft) (here : Location) (directive : Directive) (body : Text)
    (variants : Option TypeExpr) : FunctionDraft :=
  match directive with
  | .param =>
    match Tag.member body variants with
    | .ok m => { d with params := d.params ++ [m], target := .member d.params.length }
    | .error fault => d.report here directive fault
  | .returns =>
    match Tag.returnValues body variants with
    | .ok values =>
      let returns := d.returns ++ values
      { d with returns, target := .returnValue (returns.length - 1) }
    | .error fault => d.report here directive fault
  | .generic =>
    match Tag.genericNames body with
    | [] => d.report here directive .missingGenericName
    | names => { d with generics := d.generics ++ names, target := .nowhere }
  | .hidden => { d with hidden := true, target := .nowhere }
  | .deprecated =>
    { d with deprecated := some ((Tag.description? body).getD []), target := .deprecated }
  | .note => { d with note := some ((Tag.description? body).getD []), target := .note }
  | .field | .record | .typeAlias | .other _ => { d with target := .nowhere }

/-- A draft with all lines of a block taken into account. -/
def read (file : Text) (d : FunctionDraft) : Block → FunctionDraft
  | [] => d
  | l :: rest =>
    let d := match l.content with
      | .prose text => d.addProse text
      | .variant _ => d
      | .tag directive body =>
        d.addTag ⟨file, l.line⟩ directive body (Tag.variantUnion? rest)
    read file d rest

end FunctionDraft

namespace Signature

/-- The names in a parameter list apart from the receiver, which needs no documentation. -/
def withoutSelf (names : List Text) : List Text :=
  names.filter (· != "self".toList)

/-- The disagreements between the documented and the declared parameter names: names without a tag,
then tags without a name, and only where there are neither, another order. -/
def mismatches (documented declared : List Text) : List Mismatch :=
  let documented := withoutSelf documented
  let declared := withoutSelf declared
  let missing := (declared.filter (!documented.contains ·)).map Mismatch.missingTag
  let unknown := (documented.filter (!declared.contains ·)).map Mismatch.unknownParam
  if missing.isEmpty && unknown.isEmpty && documented != declared then
    [.order documented declared]
  else missing ++ unknown

end Signature

namespace FunctionDoc

/-- Who a function is for. A tag decides first; a function local to its file comes next, and with it
an undocumented key of a table; a leading underscore comes last. -/
def visibilityOf (hiddenByTag documented : Bool) (signature : Signature) (name : Text) :
    Visibility :=
  if hiddenByTag then .hidden
  else if signature.isLocal || (signature.tableKey && !documented) then .local
  else if ['_'].isPrefixOf name then .hidden
  else .exposed

def undocumentedParams (names : List Text) : List Member :=
  names.map fun name => ⟨name, TypeExpr.any, none, false⟩

/-- The function that a block and a signature document, and the faults found in them. The tags give
the parameters, in their own order; without any, the signature gives their names. A function without
a block is not checked against its signature. -/
def ofBlock (block : Block) (signature : Signature) (location : Location) :
    FunctionDoc × List Diagnostic :=
  let draft := FunctionDraft.empty.read location.file block
  let name := Signature.lastPart signature.declaredName
  let mismatches :=
    if block.isEmpty then []
    else Signature.mismatches (draft.params.map (·.name)) signature.params
  let doc := {
    name
    declaredName := signature.declaredName
    params :=
      if draft.params.isEmpty then undocumentedParams signature.params else draft.params
    returns := draft.returns
    description := draft.description.text
    note := draft.note
    deprecated := draft.deprecated
    generics := draft.generics
    visibility := visibilityOf draft.hidden (!block.isEmpty) signature name
    location }
  (doc, draft.diagnostics ++ mismatches.map (.signatureMismatch location name))

end FunctionDoc

end LuaDocs
