import LuaDocs.Text.Basic

/-!
# Configuration tables

The values of a configuration file and the rules by which its lines build up a table: a key is given
once, a table has one header, and a table written inline is closed. A table remembers how it came to
be, because that decides what may still be added to it.
-/

namespace LuaDocs.Toml

/-- How a table came to be. -/
inductive Origin where
  /-- Named on the way to a header. -/
  | implied
  /-- By a header of its own. -/
  | header
  /-- Named on the way to a dotted key. -/
  | dotted
  /-- Written as a value. -/
  | inline
  deriving DecidableEq

inductive Value where
  | text (t : Text)
  | integer (n : Int)
  | boolean (b : Bool)
  | list (items : List Value)
  | table (origin : Origin) (entries : List (Text × Value))
  /-- A list of tables, each with a header of its own. -/
  | tables (rows : List (List (Text × Value)))
  /-- A value of a kind that no setting has: a date, or a number with a fraction. -/
  | other
  deriving Inhabited

/-- A table: its keys and their values, in the order in which the keys first came up. -/
abbrev Table := List (Text × Value)

namespace Table

def put (t : Table) (key : Text) (value : Value) : Table :=
  if t.any (·.1 == key) then t.map fun e => if e.1 == key then (key, value) else e
  else t ++ [(key, value)]

def changeLast (f : Table → Option Table) (rows : List Table) : Option (List Table) :=
  match rows.getLast? with
  | none => none
  | some row => (f row).map fun row => rows.dropLast ++ [row]

/-- The table with the table that a header path names changed by `f`. Tables on the way come to be if
they are missing; of a list of tables the last is meant. -/
def atHeader (f : Table → Option Table) : List Text → Table → Option Table
  | [], t => f t
  | key :: path, t =>
    match t.lookup key with
    | none => (atHeader f path []).map fun u => t.put key (.table .implied u)
    | some (.table .inline _) => none
    | some (.table origin u) => (atHeader f path u).map fun u => t.put key (.table origin u)
    | some (.tables rows) => (changeLast (atHeader f path) rows).map fun rows => t.put key (.tables rows)
    | some _ => none

/-- The table with a value for a dotted key. The last part of the key must be new, and the parts before
it name tables that came to be in this way. -/
def assign (value : Value) : List Text → Table → Option Table
  | [], _ => none
  | [key], t => if t.any (·.1 == key) then none else some (t.put key value)
  | key :: next :: path, t =>
    match t.lookup key with
    | none => (assign value (next :: path) []).map fun u => t.put key (.table .dotted u)
    | some (.table .dotted u) =>
      (assign value (next :: path) u).map fun u => t.put key (.table .dotted u)
    | some (.table .implied u) =>
      if path.isEmpty then none
      else (assign value (next :: path) u).map fun u => t.put key (.table .implied u)
    | some _ => none

/-- The table with the table that a header opens. A table that was only named on the way to others may
still get its header. -/
def openTable (key : Text) (t : Table) : Option Table :=
  match t.lookup key with
  | none => some (t.put key (.table .header []))
  | some (.table .implied u) => some (t.put key (.table .header u))
  | some _ => none

/-- The table with one more row in the list of tables that a header names. -/
def openRow (key : Text) (t : Table) : Option Table :=
  match t.lookup key with
  | none => some (t.put key (.tables [[]]))
  | some (.tables rows) => some (t.put key (.tables (rows ++ [[]])))
  | some _ => none

end Table

/-- A way to read configuration files. -/
class Reader where
  /-- The table that a text is, or the words for why it is none. -/
  read (text : Text) : Except Text Table
  /-- The words for a text whose table has a setting that does not exist or is of another kind. -/
  rejection (text : Text) : Text

end LuaDocs.Toml
