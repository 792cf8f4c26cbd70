import LuaDocs.Declaration.Tag
import LuaDocs.Proofs.TypeExpr.Reading

/-!
# Reading type expressions with one position

The grammar once more, read by functions that share a single position in a text and move it as they
go. Nothing bounds their recursion: a reader is the least solution of its equation, and one that went
on for ever would have no outcome. A reader that finds nothing may have moved the position all the
same. Four of them put it back: `primary` and `eatSpaced` where they find nothing, `alternatives` and
`result` where no type follows their mark.
-/

namespace LuaDocs.TypeExpr

open Text

/-- A text that is read with one position in it. -/
abbrev Cursor :=
  Text

namespace Cursor

/-- A step of reading: from a position to an outcome and a position, or to nothing if it never
ends. -/
abbrev Step (α : Type) :=
  StateT ℕ Option α

section

variable (src : Cursor)

/-! ### Characters -/

def ahead : Step Text := do
  return src.drop (← get)

def eat (c : Char) : Step Bool := do
  if (← ahead src).head? == some c then
    modify (· + 1)
    return true
  else
    return false

def eatText (w : Text) : Step Bool := do
  if w.isPrefixOf (← ahead src) then
    modify (· + w.length)
    return true
  else
    return false

def skipSpace : Step Unit := do
  let s ← ahead src
  set (src.length - (trimStart s).length)

/-- Move past a character with the white space around it. -/
def eatSpaced (c : Char) : Step Bool := do
  let start ← get
  skipSpace src
  if ← eat src c then
    skipSpace src
    return true
  else
    set start
    return false

/-! ### Words -/

def since (start : ℕ) : Step Text := do
  return (src.drop start).take ((← get) - start)

def ident : Step (Option Text) := do
  let s ← ahead src
  if s.head?.any isNameStart then
    let name := dropEndWhile (· == '.') (s.takeWhile isDottedChar)
    modify (· + name.length)
    return some name
  else
    return none

def string : Step (Option TypeExpr) := do
  let start ← get
  match (← ahead src).head? with
  | none => return none
  | some q =>
    let _ ← eat src q
    match (← ahead src).findIdx? (· == q) with
    | none => return none
    | some n =>
      modify (· + (n + 1))
      return some (literal (← since src start))

def digitsSince (start : ℕ) : Step (Option TypeExpr) := do
  let digits := (← ahead src).takeWhile isNumeral
  if digits.isEmpty then
    return none
  else
    modify (· + digits.length)
    return some (literal (← since src start))

def number : Step (Option TypeExpr) := do
  let start ← get
  let _ ← eat src '-'
  digitsSince src start

def paramName : Step (Option Text) := do
  if ← eatText src "...".toList then
    return some "...".toList
  else
    match ← ident src with
    | none => return none
    | some name =>
      if ← eat src '?' then
        return some (name ++ ['?'])
      else
        return some name

/-! ### Lists -/

/-- After an item of a list: whether a comma announces another one. -/
def goesOn (close : Char) : Step (Option Bool) := do
  if ← eatSpaced src ',' then
    return some true
  else
    skipSpace src
    if ← eat src close then
      return some false
    else
      return none

/-- Another round of the loop that reads a list, or its end, after an item: `as` has all items up to
that one. -/
@[reducible] def afterItem {α : Type} (close : Char) (again : List α → Step (Option (List α)))
    (as : List α) : Step (Option (List α)) := do
  match ← goesOn src close with
  | none => return none
  | some true => again as
  | some false => return some as

/-- One round of the loop that reads a list, with the items that were read before. -/
@[reducible] def round {α : Type} (item : Step (Option α)) (close : Char)
    (again : List α → Step (Option (List α))) (as : List α) : Step (Option (List α)) := do
  skipSpace src
  match ← item with
  | none => return none
  | some a => afterItem src close again (as ++ [a])

end

/-! ### The grammar -/

/-- The type with the `[]` and `?` that come next. -/
def suffixes (src : Cursor) (t : TypeExpr) : Step TypeExpr := do
  if ← eatText src "[]".toList then
    src |>.suffixes (array t)
  else if ← eat src '?' then
    src |>.suffixes (optional t)
  else
    return t
partial_fixpoint

mutual

def union (src : Cursor) : Step (Option TypeExpr) := do
  match ← src |>.suffixed with
  | none => return none
  | some t => return some (ofAlternatives (← src |>.alternatives [t]))
partial_fixpoint

def alternatives (src : Cursor) (ts : List TypeExpr) : Step (List TypeExpr) := do
  let start ← get
  if ← eatSpaced src '|' then
    match ← src |>.suffixed with
    | some t => src |>.alternatives (ts ++ [t])
    | none =>
      set start
      return ts
  else
    return ts
partial_fixpoint

def suffixed (src : Cursor) : Step (Option TypeExpr) := do
  match ← src |>.primary with
  | none => return none
  | some t => return some (← suffixes src t)
partial_fixpoint

def primary (src : Cursor) : Step (Option TypeExpr) := do
  let start ← get
  match (← ahead src).head? with
  | none => return none
  | some c =>
    match ← src |>.form c with
    | some t => return some t
    | none =>
      set start
      return none
partial_fixpoint

/-- The form of a primary type that a character opens. -/
def form (src : Cursor) (c : Char) : Step (Option TypeExpr) := do
  if c == '(' then src |>.group
  else if isQuote c then string src
  else if c == '{' then src |>.table
  else if isDigit c || c == '-' then number src
  else if isNameStart c then src |>.named
  else return none
partial_fixpoint

def group (src : Cursor) : Step (Option TypeExpr) := do
  let _ ← eat src '('
  skipSpace src
  match ← src |>.union with
  | none => return none
  | some t =>
    skipSpace src
    if ← eat src ')' then
      return some t
    else
      return none
partial_fixpoint

def named (src : Cursor) : Step (Option TypeExpr) := do
  match ← ident src with
  | none => return none
  | some name =>
    if name == "fun".toList && (← ahead src).head? == some '(' then
      src |>.function
    else if ← eat src '<' then
      match ← src |>.args [] with
      | none => return none
      | some ts => return some (container name ts)
    else
      return some (ofName name)
partial_fixpoint

def function (src : Cursor) : Step (Option TypeExpr) := do
  let _ ← eat src '('
  skipSpace src
  if ← eat src ')' then
    return some (.function [] (← src |>.result))
  else
    match ← src |>.params [] with
    | none => return none
    | some ps => return some (.function ps (← src |>.result))
partial_fixpoint

def result (src : Cursor) : Step (List TypeExpr) := do
  let start ← get
  if ← eatSpaced src ':' then
    match ← src |>.union with
    | some t => return [t]
    | none =>
      set start
      return []
  else
    return []
partial_fixpoint

def table (src : Cursor) : Step (Option TypeExpr) := do
  let _ ← eat src '{'
  skipSpace src
  if ← eat src '}' then
    return some (.table [])
  else
    match ← src |>.fields [] with
    | none => return none
    | some fs => return some (.table fs)
partial_fixpoint

def args (src : Cursor) (ts : List TypeExpr) : Step (Option (List TypeExpr)) :=
  round src (src |>.union) '>' (fun ts => src |>.args ts) ts
partial_fixpoint

def params (src : Cursor) (ps : List (Text × TypeExpr)) : Step (Option (List (Text × TypeExpr))) :=
  round src (src |>.param) ')' (fun ps => src |>.params ps) ps
partial_fixpoint

def fields (src : Cursor) (fs : List (Text × TypeExpr)) : Step (Option (List (Text × TypeExpr))) :=
  round src (src |>.field) '}' (fun fs => src |>.fields fs) fs
partial_fixpoint

def param (src : Cursor) : Step (Option (Text × TypeExpr)) := do
  match ← paramName src with
  | none => return none
  | some name =>
    if ← eatSpaced src ':' then
      match ← src |>.union with
      | none => return none
      | some t => return some (name, t)
    else
      return some (name, any)
partial_fixpoint

def field (src : Cursor) : Step (Option (Text × TypeExpr)) := do
  match ← src |>.key with
  | none => return none
  | some k =>
    if ← eatSpaced src ':' then
      match ← src |>.union with
      | none => return none
      | some t => return some (k, t)
    else
      return none
partial_fixpoint

def key (src : Cursor) : Step (Option Text) := do
  if ← eat src '[' then
    match ← src |>.union with
    | none => return none
    | some t =>
      if ← eat src ']' then
        return some (bracketed t)
      else
        return none
  else
    ident src
partial_fixpoint

end

/-! ### Types in a text -/

/-- The type that opens a text and what follows it, or the first word. -/
def leading (s : Text) : Option (Option TypeExpr × Text) := do
  let src := trimStart s
  if src.isEmpty then
    return (none, src)
  else
    let (type, p) ← (union src).run 0
    match type with
    | some t => return (some t, src.drop p)
    | none =>
      return (some (.named (src.takeWhile (!isSpace ·))), src.dropWhile (!isSpace ·))

/-- The loop over the types of a list with commas between them, with those that were read before. -/
def typeList (s : Cursor) (ts : List TypeExpr) : Option (Except TagFault (List TypeExpr × Text)) := do
  let (type, rest) ← leading s
  match type with
  | none => return .error .missingType
  | some t =>
    match after? [','] (trimStart rest) with
    | some (s : Cursor) => s |>.typeList (ts ++ [t])
    | none => return .ok (ts ++ [t], rest)
partial_fixpoint

end Cursor

end LuaDocs.TypeExpr
