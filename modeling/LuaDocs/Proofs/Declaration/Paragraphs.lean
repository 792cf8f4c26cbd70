import LuaDocs.Proofs.Declaration.OneLine
import LuaDocs.Proofs.Declaration.Prose
import LuaDocs.Proofs.Declaration.Segments

/-!
# Paragraphs of a description

The prose in front of the first tag falls into runs of lines that are not blank, and every run is one
paragraph: its lines, trimmed, with single spaces between them. The description joins the paragraphs with
empty lines. Since no line holds a line feed, no paragraph does, so the description falls into the same
paragraphs again.
-/

namespace LuaDocs

open Text

variable {l : Text} {run prose rest : List Text}

/-! ### Runs -/

namespace Prose

def isBlankLine (l : Text) : Bool :=
  (trim l).isEmpty

/-- The longest runs of lines that are not blank, in order. -/
def runs (prose : List Text) : List (List Text) :=
  (prose.splitOnP isBlankLine).filter (!·.isEmpty)

def paragraph (run : List Text) : Text :=
  join [' '] (run.map trim)

/-- The paragraphs that some prose falls into. -/
def paragraphs (prose : List Text) : List Text :=
  (runs prose).map paragraph

theorem runs_cons_blank (h : isBlankLine l = true) (prose : List Text) : runs (l :: prose) = runs prose := by
  rw [runs, List.splitOnP_cons_eq_if_modifyHead, if_pos h, List.filter_cons_of_neg (by simp)]
  rfl

/-- A run ends at a blank line or with the prose. -/
theorem runs_append (hne : run ≠ []) (hrun : ∀ l ∈ run, isBlankLine l = false)
    (hrest : ∀ l ∈ rest.head?, isBlankLine l = true) : runs (run ++ rest) = run :: runs rest := by
  have hkept : ∀ parts : List (List Text), (run :: parts).filter (!·.isEmpty) =
      run :: parts.filter (!·.isEmpty) := fun _ => List.filter_cons_of_pos (by simpa using hne)
  cases rest with
  | nil =>
    rw [List.append_nil, runs, List.splitOnP_eq_singleton hrun, hkept]
    rfl
  | cons l rest =>
    have hl : isBlankLine l = true := hrest l rfl
    rw [runs_cons_blank hl, runs, List.splitOnP_append_cons_of_forall_mem hrun l hl, hkept]
    rfl

theorem paragraphs_cons_blank (h : isBlankLine l = true) (prose : List Text) :
    paragraphs (l :: prose) = paragraphs prose :=
  congrArg (List.map paragraph) (runs_cons_blank h prose)

theorem paragraphs_append (hne : run ≠ []) (hrun : ∀ l ∈ run, isBlankLine l = false)
    (hrest : ∀ l ∈ rest.head?, isBlankLine l = true) :
    paragraphs (run ++ rest) = paragraph run :: paragraphs rest :=
  congrArg (List.map paragraph) (runs_append hne hrun hrest)

theorem of_mem_runs (hrun : run ∈ runs prose) :
    run ≠ [] ∧ ∀ l ∈ run, l ∈ prose ∧ isBlankLine l = false := by
  obtain ⟨hmem, hne⟩ := List.mem_filter.1 hrun
  exact ⟨by simpa using hne, fun l hl => mem_of_mem_splitOnP hmem hl⟩

theorem solid_trim_of_not_blank (h : isBlankLine l = false) : Solid (trim l) := by
  refine (trim_eq_nil_or_solid l).resolve_left fun hnil => ?_
  rw [isBlankLine, hnil] at h
  cases h

theorem solid_paragraph (hne : run ≠ []) (hrun : ∀ l ∈ run, isBlankLine l = false) :
    Solid (paragraph run) :=
  solid_join _ (List.forall_mem_map.2 fun l hl => solid_trim_of_not_blank (hrun l hl)) (by simpa using hne)

/-- A paragraph has text, and it is a single line if the lines of the prose are. -/
theorem of_mem_paragraphs {p : Text} (h : p ∈ paragraphs prose) :
    Solid p ∧ ((∀ l ∈ prose, '\n' ∉ l) → '\n' ∉ p) := by
  obtain ⟨run, hrun, rfl⟩ := List.mem_map.1 h
  obtain ⟨hne, hlines⟩ := of_mem_runs hrun
  refine ⟨solid_paragraph hne fun l hl => (hlines l hl).2, fun hprose => ?_⟩
  refine not_mem_join (by decide) (List.forall_mem_map.2 fun l hl hmem => ?_)
  exact hprose l (hlines l hl).1 ((trim_sublist l).mem hmem)

end Prose

/-! ### Collecting -/

namespace Paragraphs

open Prose

theorem isEmpty_paragraph (hne : run ≠ []) (hrun : ∀ l ∈ run, isBlankLine l = false) :
    (paragraph run).isEmpty = false := by
  simpa using (solid_paragraph hne hrun).ne_nil

theorem close_paragraph (done : List Text) (hne : run ≠ []) (hrun : ∀ l ∈ run, isBlankLine l = false) :
    close ⟨done, paragraph run⟩ = ⟨done ++ [paragraph run], paragraph []⟩ := by
  rw [close, isEmpty_paragraph hne hrun]
  rfl

theorem push_blank (h : isBlankLine l = true) (p : Paragraphs) : p.push l = p.close :=
  if_pos h

theorem push_line (h : isBlankLine l = false) (done : List Text)
    (hrun : ∀ l ∈ run, isBlankLine l = false) :
    push ⟨done, paragraph run⟩ l = ⟨done, paragraph (run ++ [l])⟩ := by
  have hline : (trim l).isEmpty = false := h
  by_cases hne : run = []
  · subst hne
    have hone : paragraph [l] = trim l := join_singleton _
    rw [List.nil_append, hone]
    simp [push, hline, paragraph, join]
  · have hgrown : paragraph (run ++ [l]) = paragraph run ++ ' ' :: trim l := by
      rw [paragraph, List.map_append, List.map_singleton,
        join_append (by simpa using hne) (List.cons_ne_nil _ _), join_singleton]
      rfl
    rw [hgrown]
    simp [push, hline, isEmpty_paragraph hne hrun]

/-- When the lines `run` have been collected and `prose` follows, the paragraphs to come are those of both
together. -/
theorem finished_foldl_push (done : List Text) (hrun : ∀ l ∈ run, isBlankLine l = false) :
    (prose.foldl push ⟨done, paragraph run⟩).close.finished = done ++ paragraphs (run ++ prose) := by
  induction prose generalizing done run with
  | nil =>
    rw [List.foldl_nil]
    by_cases hne : run = []
    · subst hne
      exact (List.append_nil done).symm
    · have hnone : ∀ l ∈ ([] : List Text).head?, isBlankLine l = true := nofun
      rw [close_paragraph done hne hrun, paragraphs_append hne hrun hnone]
      rfl
  | cons l prose ih =>
    rw [List.foldl_cons]
    cases hl : isBlankLine l with
    | true =>
      rw [push_blank hl]
      by_cases hne : run = []
      · subst hne
        rw [List.nil_append, paragraphs_cons_blank hl]
        exact ih done (List.forall_mem_nil _)
      · have hhead : ∀ k ∈ (l :: prose).head?, isBlankLine k = true := by
          intro k hk
          obtain rfl := Option.some.inj hk
          exact hl
        rw [close_paragraph done hne hrun, paragraphs_append hne hrun hhead, paragraphs_cons_blank hl,
          List.append_cons done (paragraph run) (paragraphs prose)]
        exact ih (done ++ [paragraph run]) (List.forall_mem_nil _)
    | false =>
      have hgrown : ∀ k ∈ run ++ [l], isBlankLine k = false :=
        List.forall_mem_append.2 ⟨hrun, List.forall_mem_singleton.2 hl⟩
      have hrest := ih done hgrown
      rw [List.append_assoc] at hrest
      rw [push_line hl done hrun]
      exact hrest

theorem text_foldl_push (prose : List Text) :
    (prose.foldl push .empty).text = join "\n\n".toList (paragraphs prose) := by
  have hfinished : (prose.foldl push ⟨[], paragraph []⟩).close.finished = [] ++ paragraphs ([] ++ prose) :=
    finished_foldl_push [] (List.forall_mem_nil _)
  exact congrArg (join "\n\n".toList) hfinished

end Paragraphs

namespace FunctionDoc

variable {block : Block}

def leadingProse (block : Block) : List Text :=
  (Block.front Directive.tags block).prose

theorem description_ofBlock (block : Block) (signature : Signature) (location : Location) :
    (ofBlock block signature location).1.description =
      join "\n\n".toList (Prose.paragraphs (leadingProse block)) := by
  obtain ⟨target, hread⟩ := FunctionDraft.read_eq location.file .empty block
  rw [← Paragraphs.text_foldl_push, ofBlock, hread, FunctionDraft.foldl_addProse]
  rfl

theorem not_feed_leadingProse (h : block.OneLine) : ∀ l ∈ leadingProse block, '\n' ∉ l := by
  intro text htext
  obtain ⟨l, hl, hprose⟩ := List.mem_filterMap.1 htext
  have hline := h l ((List.takeWhile_sublist _).mem hl)
  obtain ⟨content, n⟩ := l
  cases content with
  | prose s =>
    obtain rfl := Option.some.inj hprose
    exact hline
  | _ => cases hprose

end FunctionDoc

end LuaDocs
