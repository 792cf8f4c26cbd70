import LuaDocs.Render.Help
import LuaDocs.Section.Basic
import LuaDocs.Toml.Table

/-!
# Configuration

The settings of a project file. Every setting is optional; one that the file does not know, or a value
of another kind, makes the whole file invalid.
-/

namespace LuaDocs

/-- Where the default options of a module are written. -/
structure OptionsConfig where
  /-- The file, below the source directory. -/
  file : Text
  markers : Markers
  deriving DecidableEq

namespace OptionsConfig

/-- The markers around the default options where nothing else is said. -/
def defaultMarkers : Markers :=
  ⟨"^local default_config =".toList, "^\x7d$".toList⟩

end OptionsConfig

/-- The settings of a project file. -/
structure Config where
  moduleName : Option Text
  sourceDir : Option Text
  /-- The file that holds the interface, below the source directory. -/
  apiFile : Option Text
  readme : Option Text
  helpFile : Option Text
  options : Option OptionsConfig
  /-- File patterns below the source directory. -/
  exclude : List Text
  denyWarnings : Bool
  layout : Layout
  deriving DecidableEq

namespace Config

open Toml

def empty : Config :=
  ⟨none, none, none, none, none, none, [], false, .standard⟩

/-- The name of the project file in the root of a project. -/
def fileName : Text :=
  "nvimdoc.toml".toList

/-! ### Values of settings -/

def text? : Value → Option Text
  | .text t => some t
  | _ => none

def boolean? : Value → Option Bool
  | .boolean b => some b
  | _ => none

def size? : Value → Option Nat
  | .integer n => n.toNat?
  | _ => none

def texts? : Value → Option (List Text)
  | .list items => items.mapM text?
  | _ => none

/-- Settings in a table, or in a list that gives them in order. -/
def settings? (keys : List Text) : Value → Option Table
  | .table _ entries => if entries.all (keys.contains ·.1) then some entries else none
  | .list items => some (keys.zip items)
  | _ => none

/-- A setting by its key; `missing` stands for one that is not given. -/
def get? {α : Type} (read : Value → Option α) (missing : Option α) (key : Text)
    (entries : Table) : Option α :=
  match entries.lookup key with
  | some v => read v
  | none => missing

/-- The settings of the default options. The file has to be given. -/
def options? (v : Value) : Option OptionsConfig := do
  let file := "file".toList
  let start := "start".toList
  let stop := "end".toList
  let entries ← settings? [file, start, stop] v
  return {
    file := ← get? text? none file entries
    markers := {
      start := ← get? text? (some OptionsConfig.defaultMarkers.start) start entries
      stop := ← get? text? (some OptionsConfig.defaultMarkers.stop) stop entries } }

def layout? (v : Value) : Option Layout := do
  let width := "wrap_width".toList
  let indent := "indent".toList
  let entries ← settings? [width, indent] v
  return {
    wrapWidth := ← get? size? (some Layout.standard.wrapWidth) width entries
    indent := ← get? size? (some Layout.standard.indent) indent entries }

/-! ### Files -/

def keys : List Text :=
  ["module", "lua_dir", "api_file", "readme", "vimdoc", "options", "exclude", "deny_warnings",
    "render"].map (·.toList)

def ofTable? (t : Table) : Option Config := do
  if !t.all (keys.contains ·.1) then none
  let optional (key : Text) : Option (Option Text) :=
    get? (fun v => (text? v).map some) (some none) key t
  return {
    moduleName := ← optional "module".toList
    sourceDir := ← optional "lua_dir".toList
    apiFile := ← optional "api_file".toList
    readme := ← optional "readme".toList
    helpFile := ← optional "vimdoc".toList
    options := ← get? (fun v => (options? v).map some) (some none) "options".toList t
    exclude := ← get? texts? (some []) "exclude".toList t
    denyWarnings := ← get? boolean? (some false) "deny_warnings".toList t
    layout := ← get? layout? (some .standard) "render".toList t }

/-- The settings in the text of a project file, or the words for why it is invalid. -/
def ofText [Toml.Reader] (s : Text) : Except Text Config :=
  match Toml.Reader.read s with
  | .error fault => .error fault
  | .ok table =>
    match ofTable? table with
    | some config => .ok config
    | none => .error (Toml.Reader.rejection s)

end Config

end LuaDocs
