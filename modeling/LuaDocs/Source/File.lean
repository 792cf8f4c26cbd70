import LuaDocs.Declaration.Type

/-!
# Source files

What one file documents. A declaration is looked for at every line that ends a doc block and at every
line that declares a function. An indented assignment such as `key = function()` counts only when it
is a key of the table that the file returns; any other is a callback inside some expression.
-/

namespace LuaDocs.Source

open Text

/-! ### The returned table -/

/-- Whether a line opens the table that a file returns. -/
def opensReturnedTable (line : Text) : Bool :=
  match after? "return".toList line with
  | none => false
  | some s =>
    match skipBlanks s with
    | '{' :: rest => rest.all isBlank
    | _ => false

/-- The lines after the last line that opens a returned table, and the index of the first of them;
`start` is the index of the first line given. -/
def returnedTable? (start : Nat) : List Text → Option (Nat × List Text)
  | [] => none
  | line :: rest =>
    (returnedTable? (start + 1) rest).or
      (if opensReturnedTable line then some (start + 1, rest) else none)

/-- The width of the white space in front of a line, in bytes of its encoding. -/
def indentation (line : Text) : Nat :=
  (line.takeWhile isSpace).foldl (fun n c => n + c.utf8Size) 0

def isIdle (line : Text) : Bool :=
  let s := trimStart line
  s.isEmpty || "--".toList.isPrefixOf s

/-- The indexes of the keys among the lines of a table, up to the brace that closes it. A key is a
line of code with the indentation of the first such line. -/
def tableKeys (indent : Option Nat) (start : Nat) : List Text → List Nat
  | [] => []
  | line :: rest =>
    if ['}'].isPrefixOf line then []
    else if isIdle line then tableKeys indent (start + 1) rest
    else if indent.getD (indentation line) == indentation line then
      start :: tableKeys (some (indentation line)) (start + 1) rest
    else tableKeys indent (start + 1) rest

def returnedKeys (lines : List Text) : List Nat :=
  match returnedTable? 0 lines with
  | none => []
  | some (start, rest) => tableKeys none start rest

/-! ### The scan -/

/-- The code at the line with a given index, with an open parameter list joined to one line. -/
def codeAt? (lines : List Text) (idx : Nat) : Option Text :=
  lines[idx]?.map fun line => Signature.source line (lines.drop (idx + 1))

/-- Whether the line with a given index declares a function that counts. -/
def declaresAt (lines : List Text) (keys : List Nat) (idx : Nat) : Bool :=
  match (codeAt? lines idx).bind Signature.parse? with
  | none => false
  | some signature => !signature.tableKey || keys.contains idx

/-- Whether the line with a given index directly follows a doc block. -/
def followsBlock (lines : List Text) : Nat → Bool
  | 0 => false
  | idx + 1 => (lines[idx]?.map Comment.isDoc).getD false

/-- Whether a declaration is looked for at an index. The end of the file counts as a line. -/
def isDeclarationPoint (lines : List Text) (keys : List Nat) (idx : Nat) : Bool :=
  !(lines[idx]?.map Comment.isDoc).getD false &&
    (followsBlock lines idx || declaresAt lines keys idx)

def declarationPoints (lines : List Text) : List Nat :=
  let keys := returnedKeys lines
  (List.range (lines.length + 1)).filter (isDeclarationPoint lines keys)

/-- What is declared at an index, and the faults found in its block. -/
def declarationAt (file : Text) (lines : List Text) (idx : Nat) : FileDocs × List Diagnostic :=
  FileDocs.ofBlock (Block.above lines idx) (codeAt? lines idx) file idx

end LuaDocs.Source

namespace LuaDocs

/-- A file that has been read. -/
structure ParsedFile where
  docs : FileDocs
  diagnostics : List Diagnostic
  deriving Inhabited

namespace ParsedFile

def ofLines (file : Text) (lines : List Text) : ParsedFile :=
  let found := (Source.declarationPoints lines).map (Source.declarationAt file lines)
  { docs := ⟨found.flatMap (·.1.functions), found.flatMap (·.1.types)⟩
    diagnostics := found.flatMap (·.2) }

/-- What the content of a file documents. The label of the file goes into every location. -/
def ofContent (file content : Text) : ParsedFile :=
  ofLines file (Text.lines content)

end ParsedFile

end LuaDocs
