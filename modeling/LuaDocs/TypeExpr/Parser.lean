import LuaDocs.Text.Reader
import LuaDocs.TypeExpr.Printer

/-!
# Reading type expressions

A type expression is read from the front of a text. The grammar has three levels: alternatives
joined by `|`, a primary type with its `[]` and `?`, and the primary types themselves. Every reader
either takes at least one character, and says so in its result, or leaves the text alone, so reading
ends on every text.

`leading?` reads the type that opens a text, and keeps the first word whole where the grammar does
not match; `parse` wants the whole text and keeps all of it whole otherwise.
-/

namespace LuaDocs

namespace TypeExpr

open Text

/-! ### Words -/

/-- The longest name at the front of a text. A name has no trailing dots, so that a full stop after
it stays outside. -/
def ident? : (s : Text) → Option (Text × Rest s)
  | [] => none
  | c :: s =>
    if isNameStart c then
      let inside := dropEndWhile (· == '.') (s.takeWhile isDottedChar)
      some (c :: inside, .ofTail c (.drop inside.length s))
    else none

def isQuote (c : Char) : Bool :=
  c == '"' || c == '\'' || c == '\x60'

/-- A string in one of the three quotes, up to the next quote of the same kind. -/
def string? : (s : Text) → Option (TypeExpr × Rest s)
  | [] => none
  | q :: s =>
    match s.dropWhile (· != q), length_dropWhile_le (· != q) s with
    | [], _ => none
    | _ :: r, h =>
      some (literal (q :: s.takeWhile (· != q) ++ [q]),
        ⟨r, Nat.lt_succ_of_le (Nat.le_of_succ_le h)⟩)

def isNumeral (c : Char) : Bool :=
  isDigit c || c == '.'

/-- The digits and points at the front of a text, at least one. -/
def numeral? (s : Text) : Option (Text × Rest s) :=
  match h : s.takeWhile isNumeral with
  | [] => none
  | c :: digits => some (c :: digits, ⟨s.dropWhile isNumeral, by
      have := congrArg List.length (List.takeWhile_append_dropWhile (p := isNumeral) (l := s))
      simp [h] at this
      omega⟩)

def number? (s : Text) : Option (TypeExpr × Rest s) :=
  match mark? '-' s with
  | some r => (numeral? r.1).map fun (digits, r') => (literal ('-' :: digits), r.trans r')
  | none => (numeral? s).map fun (digits, r) => (literal digits, r)

def ofName (name : Text) : TypeExpr :=
  if name == "true".toList || name == "false".toList then literal name
  else match Builtin.ofName? name with
    | some b => builtin b
    | none => named name

/-- The name of a parameter of a function type: `...`, or a name that may be followed by `?`. -/
def paramName? (s : Text) : Option (Text × Rest s) :=
  match s with
  | '.' :: '.' :: '.' :: r => some ("...".toList, .under '.' (.under '.' (.afterFirst '.' r)))
  | s =>
    match ident? s with
    | none => none
    | some (name, r) =>
      match mark? '?' r.1 with
      | some r' => some (name ++ ['?'], r.trans r')
      | none => some (name, r)

def suffixes (t : TypeExpr) : (s : Text) → TypeExpr × Tail s
  | '[' :: ']' :: s =>
    let (u, r) := suffixes (array t) s
    (u, .under '[' (.under ']' r))
  | '?' :: s =>
    let (u, r) := suffixes (optional t) s
    (u, .under '?' r)
  | s => (t, .whole s)

/-! ### The grammar -/

mutual

/-- One type, or several joined by `|`. -/
def union? (s : Text) : Option (TypeExpr × Rest s) :=
  match suffixed? s with
  | none => none
  | some (t, r) =>
    let (ts, r') := alternatives r.1
    some (ofAlternatives (t :: ts), r.followedBy r')
termination_by (s.length, 2)
decreasing_by
  · exact Prod.Lex.right _ (by omega)
  · exact Prod.Lex.left _ _ r.2

/-- The further alternatives after a type. A `|` that no type follows is left alone. -/
def alternatives (s : Text) : List TypeExpr × Tail s :=
  match between? '|' s with
  | none => ([], .whole s)
  | some r =>
    match suffixed? r.1 with
    | none => ([], .whole s)
    | some (t, r') =>
      let (ts, r'') := alternatives r'.1
      (t :: ts, ((r.trans r').followedBy r'').toTail)
termination_by (s.length, 0)
decreasing_by
  · exact Prod.Lex.left _ _ r.2
  · exact Prod.Lex.left _ _ (r.trans r').2

/-- A primary type with its `[]` and `?`. -/
def suffixed? (s : Text) : Option (TypeExpr × Rest s) :=
  match primary? s with
  | none => none
  | some (t, r) =>
    let (u, r') := suffixes t r.1
    some (u, r.followedBy r')
termination_by (s.length, 1)
decreasing_by
  exact Prod.Lex.right _ (by omega)

/-- A group in parentheses, a table, a string, a number, a function, a container or a name. -/
def primary? (s : Text) : Option (TypeExpr × Rest s) :=
  match mark? '(' s with
  | some r =>
    match union? (trimStart r.1) with
    | none => none
    | some (t, r') =>
      (closing? ')' r'.1).map fun r'' =>
        (t, r.trans ((r'.trans r'').ofLe (length_trimStart_le r.1)))
  | none =>
  match mark? '{' s with
  | some r =>
    match closing? '}' r.1 with
    | some r' => some (table [], r.trans r')
    | none => (fields? r.1).map fun (fs, r') => (table fs, r.trans r')
  | none =>
  match s with
  | [] => none
  | c :: s' =>
    if isQuote c then string? (c :: s')
    else if isDigit c || c == '-' then number? (c :: s')
    else
      match ident? (c :: s') with
      | none => none
      | some (name, r) =>
        match mark? '(' r.1 with
        | some r' =>
          if name == "fun".toList then
            match closing? ')' r'.1 with
            | some r'' =>
              let (rs, rest) := result r''.1
              some (function [] rs,
                ⟨rest.1, Nat.lt_of_le_of_lt rest.2 (r.trans (r'.trans r'')).2⟩)
            | none =>
              match params? r'.1 with
              | none => none
              | some (ps, r'') =>
                let (rs, rest) := result r''.1
                some (function ps rs,
                  ⟨rest.1, Nat.lt_of_le_of_lt rest.2 (r.trans (r'.trans r'')).2⟩)
          else some (ofName name, r)
        | none =>
          match mark? '<' r.1 with
          | some r' => (args? r'.1).map fun (ts, r'') => (container name ts, r.trans (r'.trans r''))
          | none => some (ofName name, r)
termination_by (s.length, 0)
decreasing_by
  · exact Prod.Lex.left _ _ (Nat.lt_of_le_of_lt (length_trimStart_le r.1) r.2)
  · exact Prod.Lex.left _ _ r.2
  · exact Prod.Lex.left _ _ (r.trans (r'.trans r'')).2
  · exact Prod.Lex.left _ _ (r.trans r').2
  · exact Prod.Lex.left _ _ (r.trans (r'.trans r'')).2
  · exact Prod.Lex.left _ _ (r.trans r').2

/-- The result after the parameters of a function type. A colon that no type follows is left
alone. -/
def result (s : Text) : List TypeExpr × Tail s :=
  match between? ':' s with
  | none => ([], .whole s)
  | some r =>
    match union? r.1 with
    | none => ([], .whole s)
    | some (t, r') => ([t], (r.trans r').toTail)
termination_by (s.length, 0)
decreasing_by
  exact Prod.Lex.left _ _ r.2

/-- The arguments of a container and the `>` that closes them. -/
def args? (s : Text) : Option (List TypeExpr × Rest s) :=
  match union? (trimStart s) with
  | none => none
  | some (t, r₀) =>
    let r := r₀.ofLe (length_trimStart_le s)
    match between? ',' r.1 with
    | some r' => (args? r'.1).map fun (ts, r'') => (t :: ts, r.trans (r'.trans r''))
    | none => (closing? '>' r.1).map fun r' => ([t], r.trans r')
termination_by (s.length, 3)
decreasing_by
  · rcases Nat.lt_or_eq_of_le (length_trimStart_le s) with h | h
    · exact Prod.Lex.left _ _ h
    · rw [h]; exact Prod.Lex.right _ (by omega)
  · exact Prod.Lex.left _ _ (r.trans r').2

/-- The parameters of a function type and the `)` that closes them. A parameter without a type can
be anything. -/
def params? (s : Text) : Option (List (Text × TypeExpr) × Rest s) :=
  match paramName? (trimStart s) with
  | none => none
  | some (name, r₀) =>
    let r := r₀.ofLe (length_trimStart_le s)
    let typed : Option (TypeExpr × Rest s) :=
      match between? ':' r.1 with
      | some r' => (union? r'.1).map fun (t, r'') => (t, r.trans (r'.trans r''))
      | none => some (any, r)
    match typed with
    | none => none
    | some (t, r) =>
      match between? ',' r.1 with
      | some r' => (params? r'.1).map fun (ps, r'') => ((name, t) :: ps, r.trans (r'.trans r''))
      | none => (closing? ')' r.1).map fun r' => ([(name, t)], r.trans r')
termination_by (s.length, 3)
decreasing_by
  · exact Prod.Lex.left _ _ (r.trans r').2
  · exact Prod.Lex.left _ _ (r.trans r').2

/-- The fields of a table and the `}` that closes them. A key in brackets is kept as it prints. -/
def fields? (s : Text) : Option (List (Text × TypeExpr) × Rest s) :=
  let keyed : Option (Text × Rest (trimStart s)) :=
    match mark? '[' (trimStart s) with
    | some r =>
      match union? r.1 with
      | none => none
      | some (k, r') =>
        (mark? ']' r'.1).map fun r'' => ('[' :: k.print ++ [']'], r.trans (r'.trans r''))
    | none => ident? (trimStart s)
  match keyed with
  | none => none
  | some (key, r₀) =>
    let r := r₀.ofLe (length_trimStart_le s)
    match between? ':' r.1 with
    | none => none
    | some r' =>
      match union? r'.1 with
      | none => none
      | some (t, r'') =>
        let r₁ := r.trans (r'.trans r'')
        match between? ',' r₁.1 with
        | some r₂ => (fields? r₂.1).map fun (fs, r₃) => ((key, t) :: fs, r₁.trans (r₂.trans r₃))
        | none => (closing? '}' r₁.1).map fun r₂ => ([(key, t)], r₁.trans r₂)
termination_by (s.length, 3)
decreasing_by
  · exact Prod.Lex.left _ _ (Nat.lt_of_lt_of_le r.2 (length_trimStart_le s))
  · exact Prod.Lex.left _ _ (r.trans r').2
  · exact Prod.Lex.left _ _ (r₁.trans r₂).2

end

/-! ### Types in a text -/

/-- The type at the front of a text and what follows it; `none` only for a blank text. Where the
grammar does not match, the first word is kept whole as a name. -/
def leading? (s : Text) : Option (TypeExpr × Rest s) :=
  match union? (trimStart s) with
  | some (type, r) => some (type, r.ofLe (length_trimStart_le s))
  | none =>
    match trimStart s, length_trimStart_le s with
    | [], _ => none
    | c :: t, h =>
      let word := t.takeWhile (!isSpace ·)
      some (named (c :: word), .ofLe h (.ofTail c (.drop word.length t)))

/-- The type that a whole text is. A text with anything more than a type is kept whole as a
name. -/
def parse (s : Text) : TypeExpr :=
  match leading? (trim s) with
  | some (type, rest) => if rest.1.all isSpace then type else named (trim s)
  | none => named (trim s)

end TypeExpr

end LuaDocs
