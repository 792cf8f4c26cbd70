import LuaDocs.Text.Basic

/-!
# Function signatures

How a line of code declares a function: as a statement, `function M.name(a, b)`, or by assignment,
`M.name = function(a, b)`, either of them perhaps `local`. A parameter list may go on over several
lines; `Signature.source` joins them before the line is read.
-/

namespace LuaDocs

structure Signature where
  declaredName : Text
  isLocal : Bool
  /-- An indented assignment to a plain name: a key of some table. -/
  tableKey : Bool
  params : List Text
  deriving DecidableEq

namespace Signature

open Text

/-- A declaration up to the parenthesis that opens its parameters. -/
structure Head where
  name : Text
  isLocal : Bool
  /-- Declared by assignment. -/
  assigned : Bool
  deriving DecidableEq

/-- A character that may stand inside the name of a function statement. -/
def isMethodChar (c : Char) : Bool :=
  isDottedChar c || c == ':'

/-- The name in `function name(` and the text after the parenthesis. -/
def statement? (s : Text) : Option (Text × Text) := do
  let s ← after? "function".toList s
  let s ← someBlanks? s
  let (name, s) ← name? isMethodChar s
  let s ← after? ['('] (skipBlanks s)
  return (name, s)

/-- The name in `name = function(` and the text after the parenthesis. -/
def assignment? (s : Text) : Option (Text × Text) := do
  let (name, s) ← name? isDottedChar s
  let s ← after? ['='] (skipBlanks s)
  let s ← after? "function".toList (skipBlanks s)
  let s ← after? ['('] (skipBlanks s)
  return (name, s)

def afterLocal? (s : Text) : Option Text :=
  (after? "local".toList s).bind someBlanks?

/-- The declaration that a line opens and the text after its parenthesis. `local` is read as a word
of its own where a declaration follows it, and as a name otherwise. -/
def head? (line : Text) : Option (Head × Text) :=
  let s := skipBlanks line
  let form (isLocal assigned : Bool) : Text × Text → Head × Text :=
    fun (name, rest) => (⟨name, isLocal, assigned⟩, rest)
  (((afterLocal? s).bind statement?).map (form true false)).or <|
  ((statement? s).map (form false false)).or <|
  (((afterLocal? s).bind assignment?).map (form true true)).or <|
  (assignment? s).map (form false true)

def paramNames (inside : Text) : List Text :=
  ((splitOn ',' inside).map trim).filter (!·.isEmpty)

/-- The declaration on a line, when the line declares a function. -/
def parse? (line : Text) : Option Signature :=
  match head? line with
  | none => none
  | some (head, rest) =>
    if rest.contains ')' then
      some {
        declaredName := head.name
        isLocal := head.isLocal
        tableKey := head.assigned && !head.isLocal && !head.name.contains '.' &&
          (line.head?.map isBlank).getD false
        params := paramNames (rest.takeWhile (· != ')')) }
    else none

def stripComment : Text → Text
  | '-' :: '-' :: _ => []
  | c :: s => c :: stripComment s
  | [] => []

/-- What an open parameter list has on the lines after its head, up to the line that closes it, in one
piece; `none` when no line does. -/
def closeParams : List Text → Option Text
  | [] => none
  | line :: rest =>
    let part := ' ' :: trim (stripComment line)
    if part.contains ')' then some part else (closeParams rest).map (part ++ ·)

/-- The text in which to look for a declaration: the line itself, or the line joined with those
after it when it leaves its parameter list open. -/
def source (line : Text) (following : List Text) : Text :=
  let code := stripComment line
  match head? code with
  | some (_, rest) =>
    if rest.contains ')' then line
    else ((closeParams following).map (trimEnd code ++ ·)).getD line
  | none => line

def lastPart (declaredName : Text) : Text :=
  ((splitWhere (fun c => c == '.' || c == ':') declaredName).getLast?).getD declaredName

end Signature

end LuaDocs
