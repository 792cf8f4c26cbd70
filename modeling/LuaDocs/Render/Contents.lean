import LuaDocs.Text.Case

/-!
# Tables of contents

The headings of a Markdown text as a nested list of links. Headings of the levels two to six count,
unless they stand in a fenced block of code. The anchor of a heading is its text in lower case with
hyphens for spaces; an anchor that has been given before gets a number.
-/

namespace LuaDocs.Contents

open Text

/-- A heading and the anchor that leads to it. -/
structure Entry where
  /-- The number of hash signs in front of the heading. -/
  level : Nat
  title : Text
  anchor : Text
  deriving DecidableEq

def isFence (line : Text) : Bool :=
  let s := skipBlanks line
  "\x60\x60\x60".toList.isPrefixOf s || "~~~".toList.isPrefixOf s

/-- The level and the title of a heading. Blanks and hash signs at the end of the line are not part of
the title, and a heading without a title is none. -/
def heading? (line : Text) : Option (Nat × Text) :=
  let level := (line.takeWhile (· == '#')).length
  if 2 ≤ level && level ≤ 6 && !line.contains '\n' then
    match someBlanks? (line.drop level) with
    | none => none
    | some s =>
      match dropEndWhile (fun c => isBlank c || c == '#') s with
      | [] => none
      | title => some (level, title)
  else none

def slug (title : Text) : Text :=
  replaceChar ' ' ['-']
    ((lower title).filter fun c => isAlphanumeric c || c == ' ' || c == '-' || c == '_')

/-- The anchor of a heading whose slug has come up `count` times before. -/
def anchor (slug : Text) (count : Nat) : Text :=
  if count = 0 then slug else slug ++ '-' :: ofNat count

/-- The headings of some lines; `fenced` says that a block of code is open in front of them, and
`slugs` are those of the headings so far. -/
def entriesFrom (fenced : Bool) (slugs : List Text) : List Text → List Entry
  | [] => []
  | line :: rest =>
    if isFence line then entriesFrom (!fenced) slugs rest
    else if fenced then entriesFrom fenced slugs rest
    else match heading? line with
      | none => entriesFrom fenced slugs rest
      | some (level, title) =>
        let s := slug title
        ⟨level, title, anchor s (slugs.count s)⟩ :: entriesFrom fenced (slugs ++ [s]) rest

def entries (lines : List Text) : List Entry :=
  entriesFrom false [] lines

/-- The line of a heading in the table of contents, two spaces further in for every level below the
second. -/
def Entry.line (e : Entry) : Text :=
  spaces (2 * (e.level - 2)) ++ "- [".toList ++ e.title ++ "](#".toList ++ e.anchor ++ [')']

def generate (lines : List Text) : List Text :=
  (entries lines).map Entry.line

end LuaDocs.Contents
