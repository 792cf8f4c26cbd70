import LuaDocs.Render.Help
import LuaDocs.Render.Markdown

/-!
# Output formats

The forms of documentation that can be asked for by name.
-/

namespace LuaDocs

inductive Format where
  | markdown
  | help
  deriving DecidableEq

structure UnknownFormat where
  name : Text

namespace UnknownFormat

def message (e : UnknownFormat) : Text :=
  "unknown format: ".toList ++ e.name ++ ". Use markdown or vimdoc".toList

end UnknownFormat

namespace Format

/-- The format of a name. Every format has a full name and short ones. -/
def ofName (name : Text) : Except UnknownFormat Format :=
  if ["markdown".toList, "md".toList].contains name then .ok markdown
  else if ["vimdoc".toList, "vim".toList, "help".toList].contains name then .ok help
  else .error ⟨name⟩

def name : Format → Text
  | markdown => "markdown".toList
  | help => "vimdoc".toList

/-- The documentation of some functions of a module, in a format. -/
def render (format : Format) (layout : Layout) (moduleName : Text)
    (functions : List FunctionDoc) (registry : Registry) : List Text :=
  match format with
  | markdown => Markdown.render functions registry
  | help => Help.render layout moduleName functions registry

end Format

end LuaDocs
