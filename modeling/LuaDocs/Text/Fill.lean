import LuaDocs.Text.Basic

/-!
# Filling lines

Layout of plain text in lines of a given width. Filling is greedy: a piece goes on the current line if
it fits and opens the next line otherwise. A word is one piece, unless it is longer than a line after
its indentation; such a word is cut into pieces.
-/

namespace LuaDocs.Text

/-- A word cut from the left into pieces of `size` characters, the last perhaps shorter. -/
def chunks (size : Nat) (word : Text) : List Text :=
  if size = 0 ∨ word.length ≤ size then [word]
  else word.take size :: chunks size (word.drop size)
termination_by word.length
decreasing_by
  simp only [List.length_drop]
  omega

/-- The pieces of a text for lines of a given width whose indentation has `indent` characters. -/
def pieces (width indent : Nat) (s : Text) : List Text :=
  (words s).flatMap (chunks (max 1 (width - indent)))

/-- The lines of pieces that go on after the line `current`, which holds a piece already. -/
def fillFrom (width : Nat) (subsequent : Text) (current : Text) : List Text → List Text
  | [] => [trimEnd current]
  | piece :: rest =>
    if current.length + 1 + piece.length > width then
      current :: fillFrom width subsequent (subsequent ++ piece) rest
    else fillFrom width subsequent (current ++ ' ' :: piece) rest

/-- The text in lines of at most `width` characters. The first line opens with `indent`, each further
line with `subsequent`. A text without words is a single line. -/
def wrap (s : Text) (width : Nat) (indent subsequent : Text) : List Text :=
  match pieces width subsequent.length s with
  | [] => [trimEnd indent]
  | piece :: rest => fillFrom width subsequent (indent ++ piece) rest

def spaced : List (List Text) → List Text
  | [] => []
  | [group] => group
  | group :: rest => group ++ [] :: spaced rest

def wrapParagraphs (s : Text) (width : Nat) (indent : Text) : List Text :=
  spaced (((splitParagraphs s).filter fun p => !(trim p).isEmpty).map (wrap · width indent indent))

/-- Two texts at the two ends of one line of a given width, or on two lines when they do not fit with
a space between them. -/
def leftRight (left right : Text) (width : Nat) : List Text :=
  if left.length + 1 + right.length ≤ width then
    [left ++ spaces (width - left.length - right.length) ++ right]
  else [left, spaces (width - right.length) ++ right]

end LuaDocs.Text
