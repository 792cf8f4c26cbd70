import LuaDocs.Text.Reader
import LuaDocs.Toml.Table

/-!
# Reading configuration files

A configuration file is read line by line: headers, and keys with their values. Values are strings in
four forms, integers, truth values, lists and inline tables. A text outside of this has no meaning here;
`ofText?` then answers `none`.
-/

namespace LuaDocs.Toml

open Text

/-! ### Lines -/

/-- Whether a character may stand in a comment or a string on one line. -/
def isPrintable (c : Char) : Bool :=
  c == '\t' || (0x20 ≤ c.toNat && c.toNat != 0x7f)

def blankTail (s : Text) : Tail s :=
  .skip isBlank s

def lineEnd? : (s : Text) → Option (Rest s)
  | '\n' :: s => some (.afterFirst '\n' s)
  | '\r' :: '\n' :: s => some (.under '\r' (.afterFirst '\n' s))
  | _ => none

def skipComment : (s : Text) → Tail s
  | '#' :: s => .under '#' (.skip isPrintable s)
  | s => .whole s

def skipLines (s : Text) : Tail s :=
  let r := (blankTail s).trans (skipComment (blankTail s).1)
  match lineEnd? r.1 with
  | none => r
  | some r' => r.trans (r'.followedBy (skipLines r'.1)).toTail
termination_by s.length
decreasing_by
  exact Nat.lt_of_lt_of_le r'.2 r.2

/-! ### Strings -/

def hexDigit? (c : Char) : Option Nat :=
  if isDigit c then some (c.toNat - 48)
  else if 'a' ≤ c && c ≤ 'f' then some (c.toNat - 87)
  else if 'A' ≤ c && c ≤ 'F' then some (c.toNat - 55)
  else none

def codedChar? (n : Nat) (s : Text) : Option (Char × Text) := do
  let digits := s.take n
  if digits.length < n then none
  let code := (← digits.mapM hexDigit?).foldl (fun n d => 16 * n + d) 0
  if code.isValidChar then return (Char.ofNat code, s.drop n) else none

/-- The character that an escape stands for, after the backslash. -/
def escape? : Text → Option (Char × Text)
  | 'b' :: s => some ('\x08', s)
  | 't' :: s => some ('\t', s)
  | 'n' :: s => some ('\n', s)
  | 'f' :: s => some ('\x0c', s)
  | 'r' :: s => some ('\r', s)
  | '"' :: s => some ('"', s)
  | '\\' :: s => some ('\\', s)
  | 'u' :: s => codedChar? 4 s
  | 'U' :: s => codedChar? 8 s
  | _ => none

def skipFolded : Text → Text
  | ' ' :: s => skipFolded s
  | '\t' :: s => skipFolded s
  | '\n' :: s => skipFolded s
  | '\r' :: '\n' :: s => skipFolded s
  | s => s

def endsLine (s : Text) : Bool :=
  (lineEnd? (skipBlanks s)).isSome

/-- The rest of a string in double quotes on one line; `fuel` bounds its length. -/
def basicString? : (fuel : Nat) → Text → Option (Text × Text)
  | 0, _ => none
  | _, [] => none
  | _, '"' :: s => some ([], s)
  | fuel + 1, '\\' :: s => do
    let (c, s) ← escape? s
    let (t, s) ← basicString? fuel s
    return (c :: t, s)
  | fuel + 1, c :: s =>
    if isPrintable c then (basicString? fuel s).map fun (t, s) => (c :: t, s) else none

def literalString? : Text → Option (Text × Text)
  | [] => none
  | '\'' :: s => some ([], s)
  | c :: s =>
    if isPrintable c then (literalString? s).map fun (t, s) => (c :: t, s) else none

/-- The end of a string over several lines: three quotes, of which up to two more in front belong to
the string. -/
def closeQuotes? (quote : Char) (s : Text) : Option (Text × Text) :=
  let count := (s.takeWhile (· == quote)).length
  if 3 ≤ count then
    let kept := min 2 (count - 3)
    some (List.replicate kept quote, s.drop (kept + 3))
  else none

/-- The rest of a string over several lines; `escapes` says whether a backslash has a meaning in it,
and `fuel` bounds its length. -/
def linesString? (quote : Char) (escapes : Bool) : (fuel : Nat) → Text → Option (Text × Text)
  | 0, _ => none
  | fuel + 1, s =>
    match closeQuotes? quote s with
    | some found => some found
    | none =>
      match s with
      | [] => none
      | '\n' :: s => (linesString? quote escapes fuel s).map fun (t, s) => ('\n' :: t, s)
      | '\r' :: '\n' :: s => (linesString? quote escapes fuel s).map fun (t, s) => ('\n' :: t, s)
      | c :: s =>
        if c == '\\' && escapes then
          if endsLine s then linesString? quote escapes fuel (skipFolded s)
          else do
            let (c, s) ← escape? s
            let (t, s) ← linesString? quote escapes fuel s
            return (c :: t, s)
        else if isPrintable c then
          (linesString? quote escapes fuel s).map fun (t, s) => (c :: t, s)
        else none

/-- A string over several lines after its opening quotes. A line end right after them is dropped. -/
def afterOpening? (quote : Char) (escapes : Bool) (s : Text) : Option (Text × Text) :=
  let s := match lineEnd? s with
    | some r => r.1
    | none => s
  linesString? quote escapes (s.length + 1) s

def shortString? : Text → Option (Text × Text)
  | '"' :: s => basicString? (s.length + 1) s
  | '\'' :: s => literalString? s
  | _ => none

/-- A string in any of its four forms. -/
def string? : Text → Option (Text × Text)
  | '"' :: '"' :: '"' :: s => afterOpening? '"' true s
  | '\'' :: '\'' :: '\'' :: s => afterOpening? '\'' false s
  | s => shortString? s

/-! ### Keys -/

def isKeyChar (c : Char) : Bool :=
  isLatinLetter c || isDigit c || c == '_' || c == '-'

def keyPart? (s : Text) : Option (Text × Text) :=
  match s.takeWhile isKeyChar with
  | [] => shortString? s
  | part => some (part, s.dropWhile isKeyChar)

/-- A key: one or more parts with dots between them, and the text after it and any blanks. -/
def key? : (fuel : Nat) → Text → Option (List Text × Text)
  | 0, _ => none
  | fuel + 1, s => do
    let (part, s) ← keyPart? (skipBlanks s)
    match skipBlanks s with
    | '.' :: s =>
      let (parts, s) ← key? fuel s
      return (part :: parts, s)
    | s => return ([part], s)

/-! ### Values -/

/-- The digits of a number with single underscores between them; `isDigit` says what is a digit. -/
def digits? (isDigit : Char → Bool) : Text → Option (Text × Text)
  | [] => none
  | c :: s =>
    if isDigit c then
      match s with
      | '_' :: s => (digits? isDigit s).map fun (t, s) => (c :: t, s)
      | d :: s =>
        if isDigit d then (digits? isDigit (d :: s)).map fun (t, s) => (c :: t, s)
        else some ([c], d :: s)
      | [] => some ([c], [])
    else none

def valueIn (base : Nat) (digits : Text) : Nat :=
  digits.foldl (fun n c => base * n + (hexDigit? c).getD 0) 0

/-- A number without sign in a base other than ten, after its mark. -/
def based? (base : Nat) (s : Text) : Option (Nat × Text) :=
  (digits? (fun c => (hexDigit? c).any (· < base)) s).map fun (t, s) => (valueIn base t, s)

def decimal? (s : Text) : Option (Nat × Text) :=
  match digits? isDigit s with
  | some (['0'], s) => some (0, s)
  | some ('0' :: _, _) => none
  | some (t, s) => some (valueIn 10 t, s)
  | none => none

/-- An integer that fits in 64 bits. -/
def integer? (s : Text) : Option (Int × Text) := do
  let (n, s) ← match s with
    | '0' :: 'x' :: s => (based? 16 s).map fun (n, s) => ((n : Int), s)
    | '0' :: 'o' :: s => (based? 8 s).map fun (n, s) => ((n : Int), s)
    | '0' :: 'b' :: s => (based? 2 s).map fun (n, s) => ((n : Int), s)
    | '+' :: s => (decimal? s).map fun (n, s) => ((n : Int), s)
    | '-' :: s => (decimal? s).map fun (n, s) => (-(n : Int), s)
    | s => (decimal? s).map fun (n, s) => ((n : Int), s)
  if -9223372036854775808 ≤ n && n ≤ 9223372036854775807 then return (n, s) else none

mutual

/-- A value at the front of a text; `fuel` bounds how deep values are nested and how many they are. -/
def value? : (fuel : Nat) → Text → Option (Value × Text)
  | 0, _ => none
  | fuel + 1, s =>
    match s with
    | '[' :: s => (items? fuel (skipLines s).1).map fun (vs, s) => (.list vs, s)
    | '\x7b' :: s =>
      match skipBlanks s with
      | '\x7d' :: s => some (.table .inline [], s)
      | s => (pairs? fuel [] s).map fun (t, s) => (.table .inline t, s)
    | 't' :: 'r' :: 'u' :: 'e' :: s => some (.boolean true, s)
    | 'f' :: 'a' :: 'l' :: 's' :: 'e' :: s => some (.boolean false, s)
    | s =>
      ((string? s).map fun (t, s) => (.text t, s)).or
        ((integer? s).map fun (n, s) => (.integer n, s))

/-- The items of a list up to the bracket that closes it. A comma may follow the last. -/
def items? : (fuel : Nat) → Text → Option (List Value × Text)
  | 0, _ => none
  | fuel + 1, s =>
    match s with
    | ']' :: s => some ([], s)
    | s => do
      let (v, s) ← value? fuel s
      match (skipLines s).1 with
      | ',' :: s =>
        let (vs, s) ← items? fuel (skipLines s).1
        return (v :: vs, s)
      | ']' :: s => return ([v], s)
      | _ => none

/-- The keys and values of an inline table up to the brace that closes it, added to those before. -/
def pairs? : (fuel : Nat) → Table → Text → Option (Table × Text)
  | 0, _, _ => none
  | fuel + 1, t, s => do
    let (path, s) ← key? (s.length + 1) s
    let s ← after? ['='] s
    let (v, s) ← value? fuel (skipBlanks s)
    let t ← t.assign v path
    match skipBlanks s with
    | ',' :: s => pairs? fuel t s
    | '\x7d' :: s => return (t, s)
    | _ => none

end

/-! ### Documents -/

/-- A document that is being read: its table, and the header that the lines now read are under. -/
structure Document where
  table : Table
  header : List Text

namespace Document

def enter (d : Document) (openLast : Text → Table → Option Table) (path : List Text) :
    Option Document := do
  let last ← path.getLast?
  let table ← Table.atHeader (openLast last) path.dropLast d.table
  return ⟨table, path⟩

def assign (d : Document) (path : List Text) (value : Value) : Option Document :=
  (Table.atHeader (Table.assign value path) d.header d.table).map fun table => { d with table }

/-- The document after a header or a key with its value, and the text after it. -/
def statement? (d : Document) (s : Text) : Option (Document × Text) := do
  match s with
  | '[' :: '[' :: s =>
    let (path, s) ← key? (s.length + 1) s
    let s ← after? "]]".toList s
    return (← d.enter Table.openRow path, s)
  | '[' :: s =>
    let (path, s) ← key? (s.length + 1) s
    let s ← after? [']'] s
    return (← d.enter Table.openTable path, s)
  | s =>
    let (path, s) ← key? (s.length + 1) s
    let s ← after? ['='] s
    let (v, s) ← value? (s.length + 1) (skipBlanks s)
    return (← d.assign path v, s)

/-- The document after all lines of a text; `fuel` bounds their number. -/
def read? : (fuel : Nat) → Document → Text → Option Document
  | 0, _, _ => none
  | fuel + 1, d, s => do
    let s := (blankTail s).1
    let (d, s) ←
      if s.isEmpty || ['#'].isPrefixOf s || (lineEnd? s).isSome then some (d, s)
      else d.statement? s
    let s := (skipComment (blankTail s).1).1
    if s.isEmpty then return d
    let s ← lineEnd? s
    read? fuel d s.1

end Document

/-- The table that a configuration file describes. A byte-order mark in front is no part of it. -/
def ofText? (s : Text) : Option Table :=
  let s := (after? [Char.ofNat 0xfeff] s).getD s
  (Document.read? (s.length + 1) ⟨[], []⟩ s).map (·.table)

end LuaDocs.Toml

namespace LuaDocs.Standard

def tableFault : Text :=
  "TOML parse error".toList

scoped instance tables : Toml.Reader where
  read s :=
    match Toml.ofText? s with
    | some table => .ok table
    | none => .error tableFault
  rejection _ := tableFault

end LuaDocs.Standard
