import LuaDocs.Project.Basic
import LuaDocs.Render.Contents
import LuaDocs.Render.Format
import LuaDocs.Render.HelpFile

/-!
# Artifacts of a project

What is generated for a project: three sections of its README, and its help file. The README is updated
section by section; the table of contents comes last, because it lists the headings that the other two
sections bring in.
-/

namespace LuaDocs.Project

open Text

/-! ### Markers in the README -/

def setupMarkers : Markers :=
  ⟨"^<!-- Setup -->$".toList, "^<!-- /Setup -->$".toList⟩

def apiMarkers : Markers :=
  ⟨"^<!-- API -->$".toList, "^<!-- /API -->$".toList⟩

def contentsMarkers : Markers :=
  ⟨"^<!-- TOC -->$".toList, "^<!-- /TOC -->$".toList⟩

/-! ### Parts -/

def apiFunctions (p : Project) (registry : Registry) : List FunctionDoc :=
  registry.exposedFunctions p.apiFile

/-- The code that calls the set-up function of a module, up to its options. -/
def setupCall (p : Project) : Text :=
  "require(\"".toList ++ p.moduleName ++ "\").setup(\x7b".toList

def framed (body : List Text) : List Text :=
  [] :: body ++ [[]]

/-- The section of the README that shows how to set up the module, with its default options. -/
def readmeSetup (p : Project) (options : List Text) : List Text :=
  framed ("\x60\x60\x60lua".toList :: p.setupCall :: options ++
    ["\x7d)".toList, "\x60\x60\x60".toList])

def readmeApi (p : Project) (registry : Registry) : List Text :=
  framed (Markdown.render (p.apiFunctions registry) registry)

def readmeContents (text : Text) : List Text :=
  framed (Contents.generate (lines text))

/-! ### The README -/

section

variable {σ : Type} [SectionStore σ] [MarkerLanguage]

/-- The lines with the default options, if the project has any. -/
def optionLines (p : Project) : Editing σ (Option (List Text)) := do
  match p.options with
  | none => return none
  | some source => return some (← Editing.readSection source.file source.markers)

/-- Update the section that shows how to set up the module, if there are default options and the README
has the section. -/
def updateSetup (p : Project) : Editing σ Bool := do
  match ← p.optionLines with
  | none => return false
  | some options =>
    if ← Editing.hasMarker setupMarkers.start (← Editing.readText p.readme) then
      Editing.replace p.readme setupMarkers (p.readmeSetup options)
    else return false

def updateApi (p : Project) (registry : Registry) : Editing σ Bool :=
  Editing.replace p.readme apiMarkers (p.readmeApi registry)

/-- Update the section with the table of contents, if the README has it. -/
def updateContents (p : Project) : Editing σ Bool := do
  let text ← Editing.readText p.readme
  if ← Editing.hasMarker contentsMarkers.start text then
    Editing.replace p.readme contentsMarkers (readmeContents text)
  else return false

/-- Update the README. The answer tells whether any section has changed. -/
def updateReadme (p : Project) (registry : Registry) : Editing σ Bool := do
  let setup ← p.updateSetup
  let api ← p.updateApi registry
  let contents ← p.updateContents
  return setup || api || contents

end

/-! ### The help file -/

/-- The section of the help file with the default options, as an example. -/
def optionsSection (p : Project) (options : List Text) : HelpSection :=
  let pad := spaces p.layout.indent
  let indented := fun (line : Text) => if line.isEmpty then [] else pad ++ line
  { name := "options".toList
    tag := p.moduleName ++ "-options".toList
    body := [[], ">".toList, pad ++ p.setupCall] ++ options.map indented ++
      [pad ++ "\x7d)".toList, "<".toList] }

def apiSection (p : Project) (registry : Registry) : HelpSection :=
  { name := "API".toList
    tag := p.moduleName ++ "-api".toList
    body := [] :: Help.render p.layout p.moduleName (p.apiFunctions registry) registry }

def helpLines (p : Project) (registry : Registry) (options : Option (List Text)) : List Text :=
  let file : HelpFile := {
    filename := p.helpName
    subject := p.moduleName
    sections := (options.map p.optionsSection).toList ++ [p.apiSection registry] }
  file.render p.layout.wrapWidth

/-- The text of the help file. -/
def helpText (p : Project) (registry : Registry) (options : Option (List Text)) : Text :=
  unlines (p.helpLines registry options) ++ ['\n']

end LuaDocs.Project
