import LuaDocs.Proofs.Section.Splicing
import LuaDocs.Proofs.Text.Endings

/-!
# What stands around a section

A splice leaves the text around its section as it is: in front of it up to the end of the line that matches
the start marker, and behind it from the line on that matches the end marker. The one thing that it changes
there is a line that ends in a carriage return and a line feed, which ends in the line feed alone afterwards.
-/

namespace LuaDocs

open Text

variable {markers : Markers} {text new result : Text} {split : SectionSplit}

namespace SectionSplit

/-- The text up to and including the line that opens a section, with its ending. -/
def front (split : SectionSplit) (text : Text) : Text :=
  firstLines split.upTo.length text

/-- The text from the line on that closes a section. -/
def back (split : SectionSplit) (text : Text) : Text :=
  afterLines (split.upTo.length + split.body.length) text

variable [MarkerLanguage]

theorem upTo_ne_nil {ls : List Text} (h : ofLines markers ls = .ok split) : split.upTo ≠ [] := by
  obtain ⟨start, stop, -, -, hbetween, -⟩ := ofLines_eq_ok_iff.1 h
  obtain ⟨before, x, hupTo, -⟩ := hbetween.first
  simp [hupTo]

theorem dropReturns_front (h : ofLines markers (lines text) = .ok split) :
    dropReturns (split.front text) = split.upTo.flatMap (· ++ ['\n']) := by
  have hrest : split.body ++ split.fromEnd ≠ [] := by simp [fromEnd_ne_nil h]
  have hlines : lines text = split.upTo ++ (split.body ++ split.fromEnd) := by
    rw [← withBody_body h, withBody, List.append_assoc]
  exact (lines_afterLines hrest hlines).1

theorem dropReturns_back (h : ofLines markers (lines text) = .ok split) :
    dropReturns (split.back text) = written split.fromEnd (endsWith ['\n'] text) := by
  have hlines : lines text = split.upTo ++ split.body ++ split.fromEnd := (withBody_body h).symm
  obtain ⟨-, hback, hclosed⟩ := lines_afterLines (fromEnd_ne_nil h) hlines
  rw [List.length_append] at hback hclosed
  rw [back, dropReturns_eq, hback, hclosed]

end SectionSplit

open SectionSplit

namespace Markers

variable {new : List Text}

/-- A spliced text is the text in front of the section, the new lines and the text behind the section,
but for carriage returns at the ends of lines. So it begins and ends as the text did if and only if there
were none. -/
theorem splice_surroundings [MarkerLanguage] (h : markers.splice text new = .ok result) :
    ∃ split, ofLines markers (lines text) = .ok split ∧
      result = dropReturns (split.front text) ++ new.flatMap (· ++ ['\n']) ++
        dropReturns (split.back text) ∧
      (split.front text <+: result ↔ ¬"\r\n".toList <:+: split.front text) ∧
      (split.back text <:+ result ↔ ¬"\r\n".toList <:+: split.back text) := by
  obtain ⟨split, hsplit⟩ : ∃ split, ofLines markers (lines text) = .ok split := by
    cases hsplit : ofLines markers (lines text) with
    | error fault => simp [splice, hsplit, bind, Except.bind] at h
    | ok split => exact ⟨split, rfl⟩
  have hresult : result = dropReturns (split.front text) ++ new.flatMap (· ++ ['\n']) ++
      dropReturns (split.back text) := by
    rw [splice_eq hsplit, Except.ok.injEq] at h
    rw [dropReturns_front hsplit, dropReturns_back hsplit, ← h, withBody,
      written_append (fromEnd_ne_nil hsplit), List.flatMap_append]
  refine ⟨split, hsplit, hresult, ?_, ?_⟩
  · rw [hresult, List.append_assoc, prefix_dropReturns_append_iff, dropReturns_eq_self_iff]
  · -- The line in front of the one that closes the section is ended by a line feed.
    obtain ⟨before, x, hfront⟩ : ∃ before x, split.upTo ++ new = before ++ [x] :=
      (List.eq_nil_or_concat' _).resolve_left (by simp [upTo_ne_nil hsplit])
    have hline : result = (before.flatMap (· ++ ['\n']) ++ x) ++ '\n' :: dropReturns (split.back text) := by
      rw [hresult, dropReturns_front hsplit, ← List.flatMap_append, hfront]
      simp
    rw [hline, suffix_append_dropReturns_iff, dropReturns_eq_self_iff]

open scoped Standard

/-- A section in a text with line endings of both kinds. -/
theorem splice_surroundings_mixed :
    let markers : Markers := ⟨"^S$".toList, "^E$".toList⟩
    let text := "a\r\nS\nx\r\nE\nz".toList
    let result := "a\nS\ny\nE\nz".toList
    markers.splice text ["y".toList] = .ok result ∧
      ∃ split, ofLines markers (lines text) = .ok split ∧
        result = dropReturns (split.front text) ++ ["y".toList].flatMap (· ++ ['\n']) ++
          dropReturns (split.back text) ∧
        (split.front text <+: result ↔ ¬"\r\n".toList <:+: split.front text) ∧
        (split.back text <:+ result ↔ ¬"\r\n".toList <:+: split.back text) := by
  intro markers text result
  have hsplice : markers.splice text ["y".toList] = .ok result := by decide +kernel
  exact ⟨hsplice, splice_surroundings hsplice⟩

/-- The carriage return of the line that opens a section is lost. -/
theorem splice_surroundings_return :
    let markers : Markers := ⟨"^S$".toList, "^E$".toList⟩
    let text := "S\r\nE\n".toList
    ∃ split result, ofLines markers (lines text) = .ok split ∧ markers.splice text [] = .ok result ∧
      split.front text = "S\r\n".toList ∧ ¬split.front text <+: result :=
  ⟨⟨["S".toList], [], ["E".toList]⟩, "S\nE\n".toList, by decide +kernel⟩

end Markers

end LuaDocs
