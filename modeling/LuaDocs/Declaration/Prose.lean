import LuaDocs.Text.Basic

/-!
# Prose of doc blocks

Running text reaches a description line by line. A description of a declaration has paragraphs; the
description of a tag is a single line; a note keeps the lines it was written in.
-/

namespace LuaDocs

open Text

/-- Paragraphs that are being collected: lines join with a space, and a blank line ends the current
paragraph. -/
structure Paragraphs where
  finished : List Text
  current : Text
  deriving DecidableEq

namespace Paragraphs

def empty : Paragraphs :=
  ⟨[], []⟩

def close (p : Paragraphs) : Paragraphs :=
  if p.current.isEmpty then p else ⟨p.finished ++ [p.current], []⟩

def push (p : Paragraphs) (line : Text) : Paragraphs :=
  let line := trim line
  if line.isEmpty then p.close
  else if p.current.isEmpty then ⟨p.finished, line⟩
  else ⟨p.finished, p.current ++ ' ' :: line⟩

/-- The paragraphs with an empty line between each and the next. -/
def text (p : Paragraphs) : Text :=
  join "\n\n".toList p.close.finished

end Paragraphs

namespace Prose

/-- A description with one more line of prose, after a single space. -/
def append (description : Option Text) (line : Text) : Option Text :=
  let line := trim line
  if line.isEmpty then description
  else match description with
    | some (c :: s) => some (c :: s ++ ' ' :: line)
    | _ => some line

/-- A note with one more line. Blank lines in front of the first line with text are dropped. -/
def appendLine (note : Option Text) (line : Text) : Option Text :=
  match note with
  | some (c :: s) => some (c :: s ++ '\n' :: trimEnd line)
  | _ => if (trim line).isEmpty then note else some (trimEnd line)

end Prose

end LuaDocs
