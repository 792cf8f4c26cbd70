import LuaDocs.Text.Basic

/-!
# File patterns

A project leaves some of its files out, by patterns for their labels. Which texts are patterns and what
labels they match is not decided here: a `GlobLanguage` says it.
-/

namespace LuaDocs

/-- A language of file patterns. -/
class GlobLanguage where
  /-- Whether a label matches a pattern, or the words for why the text is no pattern. -/
  compile (pattern : Text) : Except Text (Text → Bool)

end LuaDocs
