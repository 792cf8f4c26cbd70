import LuaDocs.Text.Basic

/-!
# Markers

A marker is a text that stands for some lines. Which texts are markers and what lines they match is not
decided here: a `MarkerLanguage` says it.
-/

namespace LuaDocs

/-- A language of markers. -/
class MarkerLanguage where
  /-- Whether a line matches a marker, or the words for why the text is no marker. -/
  compile (marker : Text) : Except Text (Text → Bool)

end LuaDocs
