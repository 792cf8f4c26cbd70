import LuaDocs.Declaration.Function

/-!
# Types from doc blocks

A block with class or alias tags declares one type for each such tag that is well formed. A type owns
the lines from its tag up to the next class or alias tag; prose in front of all tags goes to the first
well-formed type.
-/

namespace LuaDocs

inductive KindDraft where
  | record (parents : List TypeExpr) (fields : List Member)
  | typeAlias (type : Option TypeExpr) (variants : List (TypeExpr × Option Text))

namespace KindDraft

/-- The alternatives of an alias: those of the type on its own line, then its variants. -/
def alternatives (type : Option TypeExpr) (variants : List (TypeExpr × Option Text)) :
    List (TypeExpr × Option Text) :=
  let inline : List TypeExpr := match type with
    | some (.union ts) => ts
    | some t => [t]
    | none => []
  inline.map (·, none) ++ variants

def finish : KindDraft → TypeKind
  | record parents fields => .record parents fields
  | typeAlias type variants =>
    match alternatives type variants with
    | [] => .typeAlias TypeExpr.any
    | alts =>
      if alts.all (·.1.isLiteral) then .enumeration (alts.map fun (t, d) => ⟨t.print, d⟩)
      else .typeAlias (TypeExpr.ofAlternatives (alts.map (·.1)))

end KindDraft

structure TypeDraft where
  name : Text
  generics : List Text
  kind : KindDraft
  description : Paragraphs
  location : Location

namespace TypeDraft

def finish (d : TypeDraft) : TypeDoc :=
  ⟨d.name, d.generics, d.kind.finish, d.description.text, d.location⟩

def appendToField (d : TypeDraft) (i : Nat) (text : Text) : TypeDraft :=
  match d.kind with
  | .record parents fields =>
    { d with kind := .record parents (fields.modify i (Member.appendProse text)) }
  | .typeAlias _ _ => d

def appendToVariant (d : TypeDraft) (i : Nat) (text : Text) : TypeDraft :=
  match d.kind with
  | .record _ _ => d
  | .typeAlias type variants =>
    { d with kind := .typeAlias type (variants.modify i fun (t, s) => (t, Prose.append s text)) }

end TypeDraft

/-- The types of a block that is being read. -/
structure TypesDraft where
  finished : List TypeDoc
  /-- The type that owns the lines now read. -/
  current : Option TypeDraft
  /-- Prose that no type has taken yet. -/
  leading : Paragraphs
  target : ProseTarget
  diagnostics : List Diagnostic

namespace TypesDraft

/-- Nothing read yet. Prose goes to the first type. -/
def empty : TypesDraft :=
  ⟨[], none, .empty, .description, []⟩

/-- Every type read so far. -/
def types (d : TypesDraft) : List TypeDoc :=
  d.finished ++ (d.current.map TypeDraft.finish).toList

def addProse (d : TypesDraft) (text : Text) : TypesDraft :=
  match d.target, d.current with
  | .description, some t =>
    { d with current := some { t with description := t.description.push text } }
  | .description, none => { d with leading := d.leading.push text }
  | .member i, some t => { d with current := some (t.appendToField i text) }
  | .variant i, some t => { d with current := some (t.appendToVariant i text) }
  | _, _ => d

/-- A draft with a variant taken into account. It belongs to an alias; a class has no variants of
its own. -/
def addVariant (d : TypesDraft) (text : Text) : TypesDraft :=
  match d.current with
  | some t =>
    match t.kind, TypeExpr.leading? text with
    | .typeAlias type variants, some (v, r) =>
      let variant := (v, Tag.description? r.1)
      { d with
        current := some { t with kind := .typeAlias type (variants ++ [variant]) }
        target := .variant variants.length }
    | _, _ => d
  | none => d

/-- A draft with a fault reported at a tag. Prose after the tag is dropped. -/
def report (d : TypesDraft) (here : Location) (directive : Directive) (fault : TagFault) :
    TypesDraft :=
  { d with
    target := .nowhere
    diagnostics := d.diagnostics ++ [.malformedTag here directive fault] }

def close (d : TypesDraft) : TypesDraft :=
  { d with finished := d.types, current := none }

/-- A draft with a new current type. The type takes the prose that no type has taken yet. -/
def start (d : TypesDraft) (here : Location) (name : Text) (generics : List Text)
    (kind : KindDraft) : TypesDraft :=
  { d with
    current := some ⟨name, generics, kind, d.leading, here⟩
    leading := .empty
    target := .description }

/-- A draft with a field tag taken into account. Fields belong to a class. -/
def addField (d : TypesDraft) (here : Location) (body : Text) (variants : Option TypeExpr) :
    TypesDraft :=
  match d.current with
  | some t =>
    match t.kind with
    | .record parents fields =>
      match Tag.member (Tag.dropScope body) variants with
      | .ok m =>
        { d with
          current := some { t with kind := .record parents (fields ++ [m]) }
          target := .member fields.length }
      | .error fault => d.report here .field fault
    | .typeAlias _ _ => { d with target := .nowhere }
  | none => { d with target := .nowhere }

/-- A draft with a tag taken into account; `variants` is the type that the variants after the tag
amount to. -/
def addTag (d : TypesDraft) (here : Location) (directive : Directive) (body : Text)
    (variants : Option TypeExpr) : TypesDraft :=
  match directive with
  | .record =>
    match Tag.classHead? body with
    | some head => d.close.start here head.name head.generics (.record head.parents [])
    | none => d.close.report here directive .missingClassName
  | .typeAlias =>
    match Tag.aliasHead? body with
    | some head =>
      let d := d.close.start here head.name [] (.typeAlias head.type [])
      match head.description with
      | some text => d.addProse text
      | none => d
    | none => d.close.report here directive .missingAliasName
  | .field => d.addField here body variants
  | _ => { d with target := .nowhere }

/-- A draft with all lines of a block taken into account. -/
def read (file : Text) (d : TypesDraft) : Block → TypesDraft
  | [] => d
  | l :: rest =>
    let d := match l.content with
      | .prose text => d.addProse text
      | .variant text => d.addVariant text
      | .tag directive body =>
        d.addTag ⟨file, l.line⟩ directive body (Tag.variantUnion? rest)
    read file d rest

end TypesDraft

namespace TypeDoc

/-- The types that a block declares, and the faults found in it. -/
def ofBlock (block : Block) (file : Text) : List TypeDoc × List Diagnostic :=
  let draft := TypesDraft.empty.read file block
  (draft.types, draft.diagnostics)

end TypeDoc

namespace FileDocs

/-- What a block and the line after it declare, and the faults found in them. A block with class or
alias tags declares types; any other documents the function that `source` declares, if it declares
one. The line after the block has the index `decl`, counted from zero. -/
def ofBlock (block : Block) (source : Option Text) (file : Text) (decl : Nat) :
    FileDocs × List Diagnostic :=
  if block.hasTag .record || block.hasTag .typeAlias then
    let (types, diagnostics) := TypeDoc.ofBlock block file
    (⟨[], types⟩, diagnostics)
  else match source.bind Signature.parse? with
    | none => (.empty, [])
    | some signature =>
      let (function, diagnostics) := FunctionDoc.ofBlock block signature ⟨file, decl + 1⟩
      (⟨[function], []⟩, diagnostics)

end FileDocs

end LuaDocs
