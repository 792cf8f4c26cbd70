import LuaDocs.Text.Basic

/-!
# Lines of doc comments

A doc comment is a line that opens with three dashes. What it carries is a tag such as
`@param name string`, a variant such as `| "value"`, or prose. A rule of four or more dashes only
separates parts of a file and documents nothing.
-/

namespace LuaDocs

/-- What a tag is about. -/
inductive Directive where
  /-- A parameter of a function. -/
  | param
  /-- Return values of a function. -/
  | returns
  /-- A field of a class. -/
  | field
  /-- The declaration of a class. -/
  | record
  /-- The declaration of an alias. -/
  | typeAlias
  /-- Type parameters of a function. -/
  | generic
  /-- A function that is not for users. -/
  | hidden
  /-- A function that is to be avoided. -/
  | deprecated
  /-- A note in preformatted text. -/
  | note
  /-- Any other tag, which documents nothing here. -/
  | other (keyword : Text)
  deriving DecidableEq

namespace Directive

/-- The directives that have a meaning here. -/
def known : List Directive :=
  [param, returns, field, record, typeAlias, generic, hidden, deprecated, note]

def keyword : Directive → Text
  | param => "param".toList
  | returns => "return".toList
  | field => "field".toList
  | record => "class".toList
  | typeAlias => "alias".toList
  | generic => "generic".toList
  | hidden => "private".toList
  | deprecated => "deprecated".toList
  | note => "note".toList
  | other keyword => keyword

def ofKeyword (keyword : Text) : Directive :=
  (known.find? (·.keyword == keyword)).getD (other keyword)

def isKnown : Directive → Bool
  | other _ => false
  | _ => true

end Directive

/-- What a single doc comment carries. -/
inductive LineContent where
  /-- A tag and the text after its keyword. -/
  | tag (directive : Directive) (body : Text)
  /-- An alternative, written after a `|`. -/
  | variant (text : Text)
  /-- Running text. -/
  | prose (text : Text)
  deriving DecidableEq

namespace LineContent

open Text

/-- A tag is an `@` and a keyword of letters and underscores. -/
def tag? (text : Text) : Option LineContent :=
  match after? ['@'] (skipBlanks text) with
  | none => none
  | some s =>
    match s.takeWhile isNameStart with
    | [] => none
    | keyword => some (tag (.ofKeyword keyword) (trim (s.dropWhile isNameStart)))

/-- A variant is what follows a `|`. -/
def variant? (text : Text) : Option LineContent :=
  (after? ['|'] (skipBlanks text)).map fun s => variant (trim s)

/-- Prose loses one separating space in front; deeper indentation is content. -/
def ofProse (text : Text) : LineContent :=
  prose (trimEnd ((after? [' '] text).getD text))

/-- What the text of a doc comment carries. A tag and a variant are single lines, so a text with a
line feed in it is prose. -/
def classify (text : Text) : LineContent :=
  if text.contains '\n' then ofProse text
  else ((tag? text).or (variant? text)).getD (ofProse text)

end LineContent

namespace Comment

open Text

/-- A rule is four or more dashes and nothing else; this looks at what follows the first three. -/
def closesRule : Text → Bool
  | [] => false
  | c :: s => c == '-' && (s.dropWhile (· == '-')).all isBlank

/-- The text after the three dashes of a doc comment; `none` for any other line. -/
def docText? (line : Text) : Option Text :=
  match after? "---".toList (skipBlanks line) with
  | none => none
  | some text => if closesRule text || text.contains '\n' then none else some text

def isDoc (line : Text) : Bool :=
  (docText? line).isSome

end Comment

end LuaDocs
