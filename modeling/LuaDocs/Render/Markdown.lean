import LuaDocs.Render.Call
import LuaDocs.Render.Reachable

/-!
# Markdown

The section of a README that documents an interface: a block for each function, and a table of the
types that the functions refer to. Bars in table cells are escaped, so a cell never ends early.
-/

namespace LuaDocs.Markdown

open Text

def cell (s : Text) : Text :=
  replaceChar '|' "\\|".toList s

def code (s : Text) : Text :=
  "\x60".toList ++ replaceChar '|' "\\|".toList s ++ "\x60".toList

def row (cells : List Text) : Text :=
  "| ".toList ++ join " | ".toList cells ++ " |".toList

/-- A line of preformatted text. -/
def escapeHtml (s : Text) : Text :=
  replaceChar '>' "&gt;".toList (replaceChar '<' "&lt;".toList (replaceChar '&' "&amp;".toList s))

/-- The text of a description, which may be missing. -/
def describe (description : Option Text) : Text :=
  cell (description.getD [])

/-! ### Functions -/

def usage (f : FunctionDoc) : Text :=
  f.call Member.markedName ++
    if f.returns.isEmpty then []
    else ": ".toList ++ join ", ".toList (f.returns.map (·.type.print))

/-- The lines that say that a function is deprecated, and why. -/
def deprecation : Option Text → List Text
  | none => []
  | some [] => ["> **Deprecated**".toList, []]
  | some reason => ["> **Deprecated**: ".toList ++ reason, []]

/-- The paragraphs of a description, an empty line after each. -/
def paragraphs (description : Text) : List Text :=
  if description.isEmpty then []
  else (splitParagraphs description).flatMap fun p => [p, []]

def paramTable (params : List Member) : List Text :=
  if params.isEmpty then []
  else "| Param | Type | Desc |".toList :: "| ----- | ---- | ---- |".toList ::
    params.map (fun p => row [cell p.name, code p.type.print, describe p.description]) ++ [[]]

def returnTable (returns : List ReturnValue) : List Text :=
  if returns.isEmpty then []
  else "| Returns | Desc |".toList :: "| ------- | ---- |".toList ::
    returns.map (fun r => row [code r.type.print, describe r.description]) ++ [[]]

/-- The lines of a note. -/
def noteLines : Option Text → List Text
  | none => []
  | some note =>
    "**Note:**".toList :: "<pre>".toList ::
      (lines note).map escapeHtml ++ ["</pre>".toList, []]

def functionBlock (f : FunctionDoc) : List Text :=
  ["### ".toList ++ f.call (·.name), [],
    "\x60\x60\x60lua".toList, usage f, "\x60\x60\x60".toList, []] ++
  deprecation f.deprecated ++ paragraphs f.description ++ paramTable f.params ++
  returnTable f.returns ++ noteLines f.note

/-! ### Types -/

/-- A name, a type and a description, which may be missing, as part of a table cell. -/
def entry (name : Text) (type : TypeExpr) (description : Option Text) : Text :=
  cell name ++ ' ' :: code type.print ++
    match description with
    | some d => ' ' :: cell d
    | none => []

/-- A value and its description, which may be missing, as part of a table cell. -/
def variantEntry (v : Variant) : Text :=
  code v.value ++
    match v.description with
    | some d => ' ' :: cell d
    | none => []

/-- The entries for the contents of a declaration. -/
def kindEntries : TypeKind → List Text
  | .record parents fields =>
    (if parents.isEmpty then []
      else ["extends ".toList ++ join ", ".toList (parents.map (code ·.print))]) ++
    fields.map fun f => entry f.fieldName f.type f.description
  | .enumeration variants => variants.map variantEntry
  | .typeAlias type => [code type.print]

def typeRow (t : TypeDoc) : Text :=
  row [code t.name, t.kind.label, join "<br>".toList (kindEntries t.kind)]

def typeTable (types : List TypeDoc) : List Text :=
  if types.isEmpty then []
  else "### Types".toList :: [] :: "| Type | Kind | Fields |".toList ::
    "| ---- | ---- | ------ |".toList :: types.map typeRow ++ [[]]

/-- The documentation of some functions. It has no empty lines at its end; who frames it adds
them. -/
def render (functions : List FunctionDoc) (registry : Registry) : List Text :=
  dropTrailingEmpty
    (functions.flatMap functionBlock ++ typeTable (registry.referencedTypes functions))

end LuaDocs.Markdown
