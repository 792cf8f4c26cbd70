import LuaDocs.Marker.Reader
import LuaDocs.Proofs.Section.Document
import Mathlib.Data.List.TakeWhile

/-!
# Sections as views

The body of a section is a view of its text that can be written as well as read. Writing back what has
been read changes nothing, what is read next is what has been written, and of two bodies written one after
the other the second is all that remains. None of this needs the two markers to be unlike each other: the
first line that matches the start stays the first, whatever stands below it, and the next one that matches
the end stays the next as long as no line of the body matches.
-/

namespace LuaDocs

open Text

variable {markers : Markers} {ls new : List Text} {text : Text} {split : SectionSplit}
  {start stop : Text → Bool} {closed : Bool}

instance [MarkerLanguage] (marker line : Text) : Decidable (Matches marker line) :=
  match h : Markers.compile marker with
  | .ok isMatch => decidable_of_iff (isMatch line = true) (by simp [Matches, h])
  | .error _ => .isFalse (by simp [Matches, h])

namespace SectionSplit

theorem cutAt?_eq_some_iff {p : Text → Bool} {before after : List Text} {x : Text} :
    cutAt? p ls = some (before, x, after) ↔
      ls = before ++ x :: after ∧ (∀ l ∈ before, p l = false) ∧ p x = true := by
  constructor
  · intro h
    rw [cutAt?] at h
    split at h
    · cases h
    · next line rest hrest =>
      cases h
      refine ⟨?_, fun l hl => by simpa using List.mem_takeWhile_imp hl, ?_⟩
      · rw [← hrest, List.takeWhile_append_dropWhile]
      · have hhead := List.head?_dropWhile_not (!p ·) ls
        simpa [hrest] using hhead
  · rintro ⟨rfl, hbefore, hx⟩
    exact cutAt?_eq hbefore hx

/-- The lines of a section between the first that matches a marker and the next that matches another. -/
structure Between (start stop : Text → Bool) (split : SectionSplit) : Prop where
  first : ∃ before x, split.upTo = before ++ [x] ∧
    (∀ l ∈ before, start l = false) ∧ start x = true
  inside : ∀ l ∈ split.body, stop l = false
  next : ∃ y after, split.fromEnd = y :: after ∧ stop y = true

/-- The section stays where it is when it gets a body none of whose lines matches the end. -/
theorem Between.withBody (h : Between start stop split)
    (hnew : ∀ l ∈ new, stop l = false) : Between start stop { split with body := new } :=
  ⟨h.first, hnew, h.next⟩

variable [MarkerLanguage]

theorem ofLines_of_compile (hstart : Markers.compile markers.start = .ok start)
    (hstop : Markers.compile markers.stop = .ok stop) :
    ofLines markers ls = .ok split ↔ Between start stop split ∧ split.withBody split.body = ls := by
  simp only [ofLines, hstart, hstop, bind, Except.bind, withBody]
  constructor
  · intro h
    split at h
    · cases h
    · next before x rest hfirst =>
      obtain ⟨rfl, hbefore, hx⟩ := cutAt?_eq_some_iff.1 hfirst
      split at h
      · cases h
      · next body y after hnext =>
        obtain ⟨rfl, hbody, hy⟩ := cutAt?_eq_some_iff.1 hnext
        cases h
        exact ⟨⟨⟨before, x, rfl, hbefore, hx⟩, hbody, ⟨y, after, rfl, hy⟩⟩, by simp⟩
  · rintro ⟨⟨⟨before, x, hupTo, hbefore, hx⟩, hbody, ⟨y, after, hfromEnd, hy⟩⟩, rfl⟩
    have hlines : split.upTo ++ split.body ++ split.fromEnd =
        before ++ x :: (split.body ++ y :: after) := by
      simp [hupTo, hfromEnd]
    simp only [hlines, cutAt?_eq hbefore hx, cutAt?_eq hbody hy]
    rw [← hupTo, ← hfromEnd]
    rfl

theorem ofLines_eq_ok_iff : ofLines markers ls = .ok split ↔
    ∃ start stop, Markers.compile markers.start = .ok start ∧
      Markers.compile markers.stop = .ok stop ∧ Between start stop split ∧
      split.withBody split.body = ls := by
  constructor
  · intro h
    cases hstart : Markers.compile markers.start with
    | error fault => simp [ofLines, hstart, bind, Except.bind] at h
    | ok start =>
      cases hstop : Markers.compile markers.stop with
      | error fault => simp [ofLines, hstart, hstop, bind, Except.bind] at h
      | ok stop => exact ⟨start, stop, rfl, rfl, (ofLines_of_compile hstart hstop).1 h⟩
  · rintro ⟨start, stop, hstart, hstop, h⟩
    exact (ofLines_of_compile hstart hstop).2 h

theorem withBody_body (h : ofLines markers ls = .ok split) : split.withBody split.body = ls := by
  obtain ⟨start, stop, -, -, -, hls⟩ := ofLines_eq_ok_iff.1 h
  exact hls

theorem fromEnd_ne_nil (h : ofLines markers ls = .ok split) : split.fromEnd ≠ [] := by
  obtain ⟨start, stop, -, -, hbetween, -⟩ := ofLines_eq_ok_iff.1 h
  obtain ⟨y, after, hfromEnd, -⟩ := hbetween.next
  simp [hfromEnd]

/-- A section that gets another body is found again, with this body. -/
theorem ofLines_refilled (h : ofLines markers ls = .ok split)
    (hnew : ∀ l ∈ new, ¬Matches markers.stop l) :
    ofLines markers (split.withBody new) = .ok { split with body := new } := by
  obtain ⟨start, stop, hstart, hstop, hbetween, -⟩ := ofLines_eq_ok_iff.1 h
  refine ofLines_eq_ok_iff.2 ⟨start, stop, hstart, hstop, hbetween.withBody ?_, rfl⟩
  intro l hl
  by_contra hmatch
  exact hnew l hl ⟨stop, hstop, by simpa using hmatch⟩

theorem lined_withBody (h : ofLines markers ls = .ok split) (hls : Lined ls closed)
    (hnew : ∀ l ∈ new, IsLine l) : Lined (split.withBody new) closed := by
  have hne := fromEnd_ne_nil h
  obtain rfl := withBody_body h
  exact hls.replace hne hnew

end SectionSplit

open SectionSplit

namespace Markers

section

variable [MarkerLanguage] {split : SectionSplit}

theorem bodyOf_eq (h : ofLines markers (lines text) = .ok split) :
    markers.bodyOf text = .ok split.body := by
  simp only [bodyOf, h, bind, Except.bind]
  rfl

theorem splice_eq (h : ofLines markers (lines text) = .ok split) (new : List Text) :
    markers.splice text new =
      .ok (written (split.withBody new) (endsWith ['\n'] text)) := by
  simp only [splice, h, bind, Except.bind, written]
  rfl

/-- A section is found in the text that a splice has made, with the body that was put there. -/
theorem ofLines_spliced (hreturn : '\r' ∉ text) (h : ofLines markers (lines text) = .ok split)
    (hnew : ∀ l ∈ new, IsLine l ∧ ¬Matches markers.stop l) :
    let spliced := written (split.withBody new) (endsWith ['\n'] text)
    ofLines markers (lines spliced) = .ok { split with body := new } ∧
      endsWith ['\n'] spliced = endsWith ['\n'] text := by
  intro spliced
  have hlined := lined_withBody h (written_lines hreturn).1 fun l hl => (hnew l hl).1
  constructor
  · rw [lines_written hlined]
    exact ofLines_refilled h fun l hl => (hnew l hl).2
  · exact endsWith_written hlined

/-- A section can be read and written as a view of its text. Its own body written back leaves the text as
it is, a body that has been written is read again, and another one written after it leaves nothing of it,
whatever the lines of that one are. -/
theorem splice_lawful {a : List Text} (b : List Text) (hreturn : '\r' ∉ text)
    (hfound : ∃ split, ofLines markers (lines text) = .ok split)
    (ha : ∀ l ∈ a, IsLine l ∧ ¬Matches markers.stop l) :
    (∃ own, markers.bodyOf text = .ok own ∧ markers.splice text own = .ok text) ∧
      ∃ first second, markers.splice text a = .ok first ∧ markers.splice text b = .ok second ∧
        markers.bodyOf first = .ok a ∧ markers.splice first b = .ok second := by
  obtain ⟨split, hsplit⟩ := hfound
  obtain ⟨hagain, hclosed⟩ := ofLines_spliced hreturn hsplit ha
  refine ⟨⟨split.body, bodyOf_eq hsplit, ?_⟩, _, _, splice_eq hsplit a, splice_eq hsplit b,
    bodyOf_eq hagain, ?_⟩
  · rw [splice_eq hsplit, withBody_body hsplit, (written_lines hreturn).2]
  · rw [splice_eq hagain, hclosed]
    rfl

end

open scoped Standard

/-- Markers that match each other's lines, and a body with a line that matches the start. -/
theorem splice_lawful_alike :
    let markers : Markers := ⟨"-".toList, "^-+$".toList⟩
    let text := "a\n-b\n\nx -\n---\n-".toList
    '\r' ∉ text ∧ (∃ split, ofLines markers (lines text) = .ok split) ∧
      (∀ l ∈ ["- y".toList], IsLine l ∧ ¬Matches markers.stop l) ∧
      (∃ own, markers.bodyOf text = .ok own ∧ markers.splice text own = .ok text) ∧
      ∃ first second, markers.splice text ["- y".toList] = .ok first ∧
        markers.splice text ["z".toList] = .ok second ∧
        markers.bodyOf first = .ok ["- y".toList] ∧
        markers.splice first ["z".toList] = .ok second := by
  intro markers text
  have hreturn : '\r' ∉ text := by decide
  have hfound : ∃ split, ofLines markers (lines text) = .ok split :=
    ⟨⟨["a".toList, "-b".toList], ["".toList, "x -".toList], ["---".toList, "-".toList]⟩,
      by decide +kernel⟩
  have hbody : ∀ l ∈ ["- y".toList], IsLine l ∧ ¬Matches markers.stop l := by decide +kernel
  exact ⟨hreturn, hfound, hbody, splice_lawful ["z".toList] hreturn hfound hbody⟩

end Markers

end LuaDocs
