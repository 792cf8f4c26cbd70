import LuaDocs.Proofs.Registry.Matching
import LuaDocs.Proofs.Source.Places
import LuaDocs.Proofs.Text.Reading
import LuaDocs.Proofs.Text.Words

/-!
# Descriptions

A description is collected from lines without white space at their ends, and a blank line only closes a
paragraph that has text. So every paragraph has text at both ends, and so has a description that is not
empty; in particular its last paragraph is not empty, which the text before a final line feed would be.
Reading a block keeps this line by line, and matching names does not touch it.
-/

namespace LuaDocs

open Text

/-! ### Paragraphs of a text -/

namespace Text

variable {s : Text}

/-- Only a line feed at the end of a text leaves an empty paragraph there. -/
theorem Solid.getLast?_paragraphs (h : Solid s) : (splitParagraphs s).getLast? ≠ some [] := by
  intro hlast
  obtain ⟨parts, hparts⟩ := List.getLast?_eq_some_iff.1 hlast
  have hs := join_splitParagraphs s
  rw [hparts] at hs
  by_cases hne : parts = []
  · rw [hne, List.nil_append, join_singleton] at hs
    exact h.ne_nil hs.symm
  · obtain ⟨-, c, hc, hspace⟩ := h
    rw [← hs, join_append hne (List.cons_ne_nil _ _), join_singleton, List.append_nil,
      List.getLast?_append] at hc
    obtain rfl : '\n' = c := Option.some.inj hc
    cases hspace

end Text

/-! ### Collecting a description -/

namespace Paragraphs

variable {p : Paragraphs}

/-- Every paragraph has text at both ends, and so has the current one if there is any. -/
structure Trimmed (p : Paragraphs) : Prop where
  finished : ∀ s ∈ p.finished, Solid s
  current : p.current = [] ∨ Solid p.current

theorem trimmed_empty : Trimmed .empty :=
  ⟨nofun, .inl rfl⟩

theorem Trimmed.close (h : p.Trimmed) : p.close.Trimmed := by
  rw [Paragraphs.close]
  split
  · exact h
  · next hopen =>
    have hcurrent : Solid p.current := h.current.resolve_left (by simpa using hopen)
    exact ⟨List.forall_mem_append.2 ⟨h.finished, List.forall_mem_singleton.2 hcurrent⟩, .inl rfl⟩

theorem Trimmed.push (h : p.Trimmed) (line : Text) : (p.push line).Trimmed := by
  rw [Paragraphs.push]
  rcases trim_eq_nil_or_solid line with hline | hline
  · rw [hline]
    exact h.close
  · rw [if_neg (by simpa using hline.ne_nil)]
    split
    · exact ⟨h.finished, .inr hline⟩
    · next hopen =>
      have hcurrent : Solid p.current := h.current.resolve_left (by simpa using hopen)
      refine ⟨h.finished, .inr ?_⟩
      simpa using hcurrent.append [' '] hline

theorem Trimmed.text (h : p.Trimmed) : p.text = [] ∨ Solid p.text := by
  rw [Paragraphs.text]
  by_cases hne : p.close.finished = []
  · rw [hne]
    exact .inl rfl
  · exact .inr (solid_join _ h.close.finished hne)

end Paragraphs

namespace FunctionDraft

theorem trimmed_addProse {d : FunctionDraft} (h : d.description.Trimmed) (text : Text) :
    (d.addProse text).description.Trimmed := by
  rw [addProse]
  cases d.target with
  | description => exact h.push text
  | _ => exact h

theorem description_addTag (d : FunctionDraft) (here : Location) (directive : Directive) (body : Text)
    (variants : Option TypeExpr) :
    (d.addTag here directive body variants).description = d.description := by
  cases directive with
  | param =>
    rw [addTag]
    cases Tag.member body variants <;> rfl
  | returns =>
    rw [addTag]
    cases Tag.returnValues body variants <;> rfl
  | generic =>
    rw [addTag]
    cases Tag.genericNames body <;> rfl
  | _ => rfl

theorem trimmed_read (file : Text) {d : FunctionDraft} (h : d.description.Trimmed) (block : Block) :
    (d.read file block).description.Trimmed := by
  induction block generalizing d with
  | nil => exact h
  | cons l block ih =>
    rw [read]
    cases l.content with
    | prose text => exact ih (trimmed_addProse h text)
    | variant text => exact ih h
    | tag directive body =>
      refine ih ?_
      rwa [description_addTag]

end FunctionDraft

/-! ### Functions -/

namespace FunctionDoc

/-- A function is undescribed or its description has text at both ends. -/
def Trimmed (f : FunctionDoc) : Prop :=
  f.description = [] ∨ Solid f.description

theorem trimmed_ofBlock (block : Block) (signature : Signature) (location : Location) :
    (ofBlock block signature location).1.Trimmed :=
  (FunctionDraft.trimmed_read location.file Paragraphs.trimmed_empty block).text

end FunctionDoc

theorem ParsedFile.trimmed_of_mem_ofContent {file content : Text} {f : FunctionDoc}
    (hf : f ∈ (ofContent file content).docs.functions) : f.Trimmed := by
  obtain ⟨decl, signature, -, rfl⟩ := exists_of_mem_ofContent hf
  exact FunctionDoc.trimmed_ofBlock _ _ _

theorem Registry.trimmed_of_mem_functions {sources : List (Text × Text)} {f : FunctionDoc}
    (hf : f ∈ (ofSources sources).functions) : f.Trimmed := by
  obtain ⟨source, -, g, hg, rfl⟩ := exists_matched_of_mem_functions hf
  have htrimmed : g.Trimmed := ParsedFile.trimmed_of_mem_ofContent hg
  exact htrimmed

end LuaDocs
