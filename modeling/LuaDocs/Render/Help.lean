import LuaDocs.Render.Call
import LuaDocs.Render.Reachable
import LuaDocs.Text.Fill

/-!
# Help text

The section of a help file that documents an interface. Every function and type opens with its tag at
the right margin; below it stand its description and lists, filled to the width of the layout. In a
help file a star opens a tag, a bar opens a link and a line that ends in `>` opens an example, so each
of these is escaped wherever text from doc comments brings it in.
-/

namespace LuaDocs

/-- The layout of help text. -/
structure Layout where
  /-- The width to which text is filled. -/
  wrapWidth : Nat
  /-- The left margin of text below a heading. -/
  indent : Nat
  deriving DecidableEq, Inhabited

namespace Layout

def standard : Layout :=
  ⟨80, 4⟩

end Layout

namespace Help

open Text

/-! ### Escaping -/

/-- Whether a text opens with what may follow the `>` that opens an example: the name of a language,
perhaps empty, up to white space or the end. -/
def opensExample (s : Text) : Bool :=
  (s.takeWhile (!isSpace ·)).all fun c => ('a' ≤ c && c ≤ 'z') || isDigit c

/-- Running text with its stars, bars and example openers escaped; `atWord` says that a word starts
here. -/
def escapeFrom (atWord : Bool) : Text → Text
  | [] => []
  | c :: s =>
    if c == '*' || c == '|' || (c == '>' && atWord && opensExample s) then
      '\\' :: c :: escapeFrom (isSpace c) s
    else c :: escapeFrom (isSpace c) s

def escape (s : Text) : Text :=
  escapeFrom true s

/-- Whether a character cannot stand inside a tag. -/
def needsCode (c : Char) : Bool :=
  c == '*' || c == '|' || c == '%' || isSpace c

/-- A name as part of a tag: characters that cannot stand there are written by their code. -/
def escapeTag (s : Text) : Text :=
  s.flatMap fun c => if needsCode c then '%' :: (ofNatHex c.toNat).map Char.toUpper else [c]

def tag (name : Text) : Text :=
  '*' :: escapeTag name ++ ['*']

def link (name : Text) : Text :=
  '|' :: escapeTag name ++ ['|']

def argument (name : Text) : Text :=
  '\x7b' :: escapeTag name ++ ['\x7d']

def code (s : Text) : Text :=
  '\x60' :: escape s ++ ['\x60']

/-! ### Parts of a block -/

/-- The left margin of text, `extra` columns further in than usual. -/
def margin (layout : Layout) (extra : Nat) : Text :=
  spaces (layout.indent + extra)

def paragraph (layout : Layout) (s : Text) : List Text :=
  wrap s layout.wrapWidth (margin layout 0) (margin layout 0)

def description (layout : Layout) (s : Text) : List Text :=
  if s.isEmpty then [] else wrapParagraphs (escape s) layout.wrapWidth (margin layout 0)

/-- An entry of a list, with its further lines indented. -/
def entry (layout : Layout) (head : Text) (description : Option Text) : List Text :=
  let text := match description with
    | some d => head ++ ' ' :: escape d
    | none => head
  wrap text layout.wrapWidth (margin layout 2) (margin layout 6)

/-- The title of a list and its lines, after an empty line. -/
def titled (layout : Layout) (title : Text) (body : List Text) : List Text :=
  [] :: (margin layout 0 ++ title) :: body

/-- A list of parameters or fields, each under the name that `name` gives it. -/
def members (layout : Layout) (title : Text) (name : Member → Text) (ms : List Member) :
    List Text :=
  if ms.isEmpty then []
  else titled layout title <| ms.flatMap fun m =>
    entry layout (argument (name m) ++ ' ' :: code m.type.print) m.description

/-! ### Functions -/

/-- The paragraph that says that a function is deprecated, and why. -/
def deprecation (layout : Layout) : Option Text → List Text
  | none => []
  | some [] => paragraph layout (escape "Deprecated".toList)
  | some reason => paragraph layout (escape ("Deprecated: ".toList ++ reason))

def returnList (layout : Layout) (returns : List ReturnValue) : List Text :=
  if returns.isEmpty then []
  else titled layout "Returns:".toList <| returns.flatMap fun r =>
    entry layout (code r.type.print) r.description

/-- The lines of a note. They are preformatted, so they are not filled. -/
def noteLines (layout : Layout) : Option Text → List Text
  | none => []
  | some note =>
    let margin := margin layout 2
    titled layout "Note:".toList <| (margin ++ "<pre>".toList) ::
      (lines note).map (fun line => trimEnd (margin ++ escape line)) ++
        [margin ++ "</pre>".toList]

def functionBlock (layout : Layout) (moduleName : Text) (f : FunctionDoc) : List Text :=
  leftRight (escape (f.call fun p => argument p.name)) (tag (moduleName ++ '.' :: f.name))
    layout.wrapWidth ++
  deprecation layout f.deprecated ++ description layout f.description ++
  members layout "Parameters:".toList (·.name) f.params ++ returnList layout f.returns ++
  noteLines layout f.note

/-! ### Types -/

/-- The contents of a declaration. -/
def kindLines (layout : Layout) : TypeKind → List Text
  | .record parents fields =>
    (if parents.isEmpty then []
      else paragraph layout
        ("Extends: ".toList ++ join ", ".toList (parents.map (code ·.print)))) ++
    members layout "Fields:".toList Member.fieldName fields
  | .enumeration variants =>
    titled layout "Values:".toList <| variants.flatMap fun v =>
      entry layout (code v.value) v.description
  | .typeAlias type => paragraph layout ("Type: ".toList ++ code type.print)

def typeBlock (layout : Layout) (t : TypeDoc) : List Text :=
  leftRight (escape t.name) (tag t.name) layout.wrapWidth ++
  paragraph layout ('(' :: t.kind.label ++ [')']) ++
  description layout t.description ++ kindLines layout t.kind

/-- The blocks of the types that the functions refer to. -/
def typeBlocks (layout : Layout) (types : List TypeDoc) : List Text :=
  if types.isEmpty then []
  else "Types:".toList :: [] :: types.flatMap fun t => typeBlock layout t ++ [[]]

/-- The documentation of some functions of a module. It has no empty lines at its end; who frames it
adds them. -/
def render (layout : Layout) (moduleName : Text) (functions : List FunctionDoc)
    (registry : Registry) : List Text :=
  dropTrailingEmpty
    (functions.flatMap (fun f => functionBlock layout moduleName f ++ [[]]) ++
      typeBlocks layout (registry.referencedTypes functions))

end Help

end LuaDocs
