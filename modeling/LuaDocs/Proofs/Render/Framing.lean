import LuaDocs.Proofs.Text.Lines
import LuaDocs.Render.Markdown

/-!
# What the lines of Markdown open with

Most lines of a block are told by their first character: tables open with bars, a deprecation is a
quotation. Only the paragraphs of a description and the lines of a note are as somebody wrote them, the
latter with their angle brackets and ampersands escaped.
-/

namespace LuaDocs.Markdown

open Text

variable {description l : Text} {note : Option Text} {ls : List Text} {c : Char}

/-- Every line is empty or opens with a character. -/
def Opened (c : Char) (ls : List Text) : Prop :=
  ∀ l ∈ ls, l = [] ∨ ∃ s, l = c :: s

theorem opened_nil (c : Char) : Opened c [] :=
  nofun

theorem opened_cons {s : Text} (h : Opened c ls) : Opened c ((c :: s) :: ls) :=
  List.forall_mem_cons.2 ⟨.inr ⟨s, rfl⟩, h⟩

theorem opened_blank (c : Char) : Opened c [[]] :=
  List.forall_mem_singleton.2 (.inl rfl)

theorem opened_rows {α : Type} (xs : List α) (cells : α → List Text) :
    Opened '|' (xs.map (fun x => row (cells x)) ++ [[]]) := by
  refine List.forall_mem_append.2 ⟨List.forall_mem_map.2 fun x _ => .inr ?_, opened_blank '|'⟩
  exact ⟨_, rfl⟩

theorem opened_paramTable (params : List Member) : Opened '|' (paramTable params) := by
  rw [paramTable]
  split
  · exact opened_nil '|'
  · exact opened_cons (opened_cons (opened_rows params _))

theorem opened_returnTable (returns : List ReturnValue) : Opened '|' (returnTable returns) := by
  rw [returnTable]
  split
  · exact opened_nil '|'
  · exact opened_cons (opened_cons (opened_rows returns _))

theorem opened_deprecation (reason : Option Text) : Opened '>' (deprecation reason) := by
  match reason with
  | none => exact opened_nil '>'
  | some [] => exact opened_cons (opened_blank '>')
  | some (_ :: _) => exact opened_cons (opened_blank '>')

theorem typeTable_eq (types : List TypeDoc) :
    typeTable types = [] ∨ ∃ rows, typeTable types = "### Types".toList :: rows ∧ Opened '|' rows := by
  rw [typeTable]
  split
  · exact .inl rfl
  · refine .inr ⟨_, rfl, List.forall_mem_cons.2 ⟨.inl rfl, ?_⟩⟩
    exact opened_cons (opened_cons (opened_rows types _))

theorem mem_dropTrailingEmpty (h : l ≠ []) : l ∈ dropTrailingEmpty ls ↔ l ∈ ls := by
  obtain ⟨empties, hempties, hls⟩ := exists_append_dropTrailingEmpty ls
  have hnone : l ∉ empties := fun hmem => h (hempties l hmem)
  calc l ∈ dropTrailingEmpty ls ↔ l ∈ dropTrailingEmpty ls ++ empties := by simp [hnone]
    _ ↔ l ∈ ls := by rw [← hls]

theorem mem_paragraphs (h : l ≠ []) :
    l ∈ paragraphs description ↔ l ∈ splitParagraphs description := by
  rw [paragraphs]
  split
  · next hempty =>
    rw [List.isEmpty_iff.1 hempty, splitParagraphs, List.mem_singleton]
    exact iff_of_false List.not_mem_nil h
  · simp [h]

/-! ### Notes -/

theorem mem_replaceChar {old : Char} {new s : Text} (h : c ∈ replaceChar old new s) :
    c ∈ new ∨ c ∈ s ∧ c ≠ old := by
  obtain ⟨d, hd, hc⟩ := List.mem_flatMap.1 h
  split at hc
  · exact .inl hc
  · next hne =>
    obtain rfl := List.mem_singleton.1 hc
    exact .inr ⟨hd, by simpa using hne⟩

theorem not_mem_escapeHtml (s : Text) : '<' ∉ escapeHtml s := by
  intro h
  rcases mem_replaceChar h with h | ⟨h, -⟩
  · exact absurd h (by decide)
  rcases mem_replaceChar h with h | ⟨-, hne⟩
  · exact absurd h (by decide)
  · exact hne rfl

/-- The only lines of a note with a tag are those that frame it. -/
theorem mem_noteLines (h : l ∈ noteLines note) (htag : '<' ∈ l) :
    l = "<pre>".toList ∨ l = "</pre>".toList := by
  cases note with
  | none => exact absurd h List.not_mem_nil
  | some text =>
    simp only [noteLines, List.cons_append, List.mem_cons, List.mem_append, List.mem_map,
      List.not_mem_nil, or_false] at h
    rcases h with rfl | rfl | ⟨line, -, rfl⟩ | rfl | rfl
    · exact absurd htag (by decide)
    · exact .inl rfl
    · exact absurd htag (not_mem_escapeHtml line)
    · exact .inr rfl
    · exact absurd htag List.not_mem_nil

end LuaDocs.Markdown
