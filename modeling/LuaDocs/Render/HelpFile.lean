import LuaDocs.Render.Help
import LuaDocs.Text.Case

/-!
# Help files

A complete help file: its own tag, a table of contents with a link to each section, the sections, and
the line that sets up the editor.
-/

namespace LuaDocs

structure HelpSection where
  name : Text
  tag : Text
  body : List Text

/-- A help file. -/
structure HelpFile where
  filename : Text
  /-- The name of what the file documents. -/
  subject : Text
  sections : List HelpSection

namespace HelpFile

open Text

def rule (c : Char) (width : Nat) : Text :=
  List.replicate width c

/-- The line of a section in the table of contents: its number and title, and at the right margin the
link to it, with at least one dot in between. -/
def contentsLine (width number : Nat) (s : HelpSection) : Text :=
  let left := "  ".toList ++ ofNat number ++ ". ".toList ++ capitalize s.name
  let right := Help.link s.tag
  left ++ List.replicate (max 1 (width - (left.length + right.length))) '.' ++ right

def sectionLines (width : Nat) (s : HelpSection) : List Text :=
  rule '-' width :: leftRight (Help.escape (upper s.name)) (Help.tag s.tag) width ++
    s.body ++ [[]]

/-- The last line of a help file, which sets up the editor. -/
def modeline (width : Nat) : Text :=
  "vim:tw=".toList ++ ofNat width ++ ":ts=2:ft=help:norl:syntax=help:".toList

/-- The lines of a help file of a given width. -/
def render (file : HelpFile) (width : Nat) : List Text :=
  [Help.tag file.filename, [], rule '-' width] ++
  leftRight "CONTENTS".toList (Help.tag (file.subject ++ "-contents".toList)) width ++ [[]] ++
  (file.sections.zipIdx 1).map (fun (s, number) => contentsLine width number s) ++ [[]] ++
  file.sections.flatMap (sectionLines width) ++ [rule '=' width, modeline width]

end HelpFile

end LuaDocs
