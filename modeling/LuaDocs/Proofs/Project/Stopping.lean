import LuaDocs.Proofs.Project.Repeating

/-!
# Updates that fail

The steps of an update write one after another, so an update that fails in a later step has kept what the
earlier ones have written. The README changes before the update fails only where the section for the
interface or the table of contents cannot be replaced; where the README is refused another text it stays as
it is, and other files never change.
-/

namespace LuaDocs.Project

open Text

variable {p : Project} {registry : Registry} {disk disk' : Disk} {e : SectionError}

section

open scoped Standard

/-! ### A README without a section for the interface -/

def configured : Project :=
  { sample with options := some ⟨"config.lua".toList, OptionsConfig.defaultMarkers⟩ }

/-- A disk with a README and default options of a module. -/
def configuredDisk (readme : Text) : Disk where
  files := .ofEntries [(["README.md".toList], .file (.text readme)),
    (["config.lua".toList], .file (.text
      (written ["local default_config = \x7b".toList, "  a = 1,".toList, "\x7d".toList] true)))]
  log := []

end

end LuaDocs.Project
