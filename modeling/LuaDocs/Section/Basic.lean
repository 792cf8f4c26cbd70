import LuaDocs.Marker.Basic

/-!
# Sections

A section of a text is the run of lines between the first line that matches a start marker and the
next line that matches an end marker. Splicing puts other lines in its place and leaves every other
line as it is.
-/

namespace LuaDocs

inductive SectionFault where
  /-- The text is no marker, in the words of the language of markers. -/
  | invalidMarker (marker fault : Text)
  | missingStart (marker : Text)
  /-- No line after the start marker matches the end marker. -/
  | missingEnd (marker : Text)
  deriving DecidableEq

namespace SectionFault

def message : SectionFault → Text
  | invalidMarker m fault =>
    "invalid marker \x60".toList ++ m ++ "\x60: ".toList ++ fault
  | missingStart m => "no line matches start marker \x60".toList ++ m ++ "\x60".toList
  | missingEnd m =>
    "no line after the start marker matches end marker \x60".toList ++ m ++ "\x60".toList

end SectionFault

/-- The two markers of a section. -/
structure Markers where
  start : Text
  stop : Text
  deriving DecidableEq

namespace Markers

/-- What lines match a marker. -/
def compile [MarkerLanguage] (marker : Text) : Except SectionFault (Text → Bool) :=
  (MarkerLanguage.compile marker).mapError (.invalidMarker marker)

end Markers

structure SectionSplit where
  /-- The lines up to and including the start marker. -/
  upTo : List Text
  /-- The lines between the markers. -/
  body : List Text
  /-- The lines from the end marker on. -/
  fromEnd : List Text
  deriving DecidableEq

namespace SectionSplit

open Text

/-- Some lines cut at the first that satisfies `p`: those before it, that line and those after it. -/
def cutAt? (p : Text → Bool) (ls : List Text) : Option (List Text × Text × List Text) :=
  match ls.dropWhile (!p ·) with
  | [] => none
  | line :: rest => some (ls.takeWhile (!p ·), line, rest)

/-- Lines cut at the section between two markers. Both have to be markers, and the start is looked at
first. -/
def ofLines [MarkerLanguage] (markers : Markers) (ls : List Text) : Except SectionFault SectionSplit := do
  let start ← Markers.compile markers.start
  let stop ← Markers.compile markers.stop
  match cutAt? start ls with
  | none => throw (.missingStart markers.start)
  | some (before, line, rest) =>
    match cutAt? stop rest with
    | none => throw (.missingEnd markers.stop)
    | some (body, last, after) => return ⟨before ++ [line], body, last :: after⟩

def withBody (s : SectionSplit) (body : List Text) : List Text :=
  s.upTo ++ body ++ s.fromEnd

end SectionSplit

namespace Markers

open Text

variable [MarkerLanguage]

/-- The text with other lines in its section. The text ends in a line feed if it did before. -/
def splice (markers : Markers) (text : Text) (body : List Text) : Except SectionFault Text := do
  let split ← SectionSplit.ofLines markers (lines text)
  let spliced := unlines (split.withBody body)
  return if endsWith ['\n'] text then spliced ++ ['\n'] else spliced

def bodyOf (markers : Markers) (text : Text) : Except SectionFault (List Text) :=
  return (← SectionSplit.ofLines markers (lines text)).body

def occurs (marker : Text) (text : Text) : Except SectionFault Bool :=
  return (lines text).any (← compile marker)

end Markers

end LuaDocs
