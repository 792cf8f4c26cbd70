import LuaDocs.Proofs.Text.Lines
import LuaDocs.Render.Help

/-!
# Blocks of help text

What the lines of help text come from. The block of a function or type is a heading with its tag, passages
of filled text under titles, and perhaps a note. What is to hold of every line is shown for each kind of
line once, and then for the passages of each kind of block.
-/

namespace LuaDocs.Help

open Text

variable {layout : Layout} {moduleName s title line : Text} {f : FunctionDoc} {t : TypeDoc}
  {registry : Registry} {functions : List FunctionDoc}

/-! ### Passages -/

/-- A text that is filled. Its first line and its further lines start so many columns further in than
usual. -/
structure Passage where
  text : Text
  first : ℕ
  further : ℕ

namespace Passage

def lines (layout : Layout) (p : Passage) : List Text :=
  wrap p.text layout.wrapWidth (margin layout p.first) (margin layout p.further)

def plain (s : Text) : Passage :=
  ⟨s, 0, 0⟩

def entry (head : Text) (description : Option Text) : Passage :=
  ⟨description.elim head fun d => head ++ ' ' :: escape d, 2, 6⟩

def member (name : Member → Text) (m : Member) : Passage :=
  entry (argument (name m) ++ ' ' :: code m.type.print) m.description

def paragraphs (s : Text) : List Passage :=
  ((splitParagraphs (escape s)).filter fun p => !(trim p).isEmpty).map plain

def deprecation : Option Text → List Passage
  | none => []
  | some [] => [plain (escape "Deprecated".toList)]
  | some reason => [plain (escape ("Deprecated: ".toList ++ reason))]

def ofKind : TypeKind → List Passage
  | .record parents fields =>
    (if parents.isEmpty then []
      else [plain ("Extends: ".toList ++ join ", ".toList (parents.map (code ·.print)))]) ++
    fields.map (member Member.fieldName)
  | .enumeration variants => variants.map fun v => entry (code v.value) v.description
  | .typeAlias type => [plain ("Type: ".toList ++ code type.print)]

end Passage

theorem entry_eq (layout : Layout) (head : Text) (d : Option Text) :
    entry layout head d = (Passage.entry head d).lines layout := by
  cases d <;> rfl

theorem mem_spaced {groups : List (List Text)} (h : line ∈ spaced groups) :
    line = [] ∨ ∃ group ∈ groups, line ∈ group := by
  fun_induction spaced groups with
  | case1 => exact absurd h List.not_mem_nil
  | case2 group => exact .inr ⟨group, List.mem_cons_self, h⟩
  | case3 group rest _ ih =>
    rw [List.mem_append, List.mem_cons] at h
    rcases h with h | h | h
    · exact .inr ⟨group, List.mem_cons_self, h⟩
    · exact .inl h
    · refine (ih h).imp_right ?_
      rintro ⟨g, hg, hline⟩
      exact ⟨g, List.mem_cons_of_mem group hg, hline⟩

theorem mem_description (h : line ∈ description layout s) :
    line = [] ∨ ∃ p ∈ Passage.paragraphs s, line ∈ p.lines layout := by
  rw [description] at h
  split at h
  · exact absurd h List.not_mem_nil
  · refine (mem_spaced h).imp_right ?_
    rintro ⟨group, hgroup, hline⟩
    obtain ⟨p, hp, rfl⟩ := List.mem_map.1 hgroup
    exact ⟨.plain p, List.mem_map_of_mem hp, hline⟩

theorem deprecation_eq (layout : Layout) (reason : Option Text) :
    deprecation layout reason = (Passage.deprecation reason).flatMap (·.lines layout) := by
  match reason with
  | none => rfl
  | some [] => exact (List.flatMap_singleton _ _).symm
  | some (_ :: _) => exact (List.flatMap_singleton _ _).symm

/-! ### Blocks -/

structure Block where
  /-- The text at the left of its heading. -/
  left : Text
  /-- The name in the tag of its heading. -/
  name : Text
  passages : List Passage
  note : Option Text

def Block.ofFunction (moduleName : Text) (f : FunctionDoc) : Block where
  left := escape (f.call fun p => argument p.name)
  name := moduleName ++ '.' :: f.name
  passages := Passage.deprecation f.deprecated ++ Passage.paragraphs f.description ++
    f.params.map (Passage.member (·.name)) ++
    f.returns.map fun r => .entry (code r.type.print) r.description
  note := f.note

def Block.ofType (t : TypeDoc) : Block where
  left := escape t.name
  name := t.name
  passages := .plain ('(' :: t.kind.label ++ [')']) :: Passage.paragraphs t.description ++
    Passage.ofKind t.kind
  note := none

def blocks (moduleName : Text) (functions : List FunctionDoc) (registry : Registry) : List Block :=
  functions.map (Block.ofFunction moduleName) ++ (registry.referencedTypes functions).map .ofType

def titles : List Text :=
  ["Parameters:".toList, "Returns:".toList, "Note:".toList, "Fields:".toList, "Values:".toList]

def frames : List Text :=
  ["<pre>".toList, "</pre>".toList]

/-- What a line of a block can be. -/
inductive Block.Line (layout : Layout) (b : Block) : Text → Prop
  | blank : Line layout b []
  | heading {line : Text} (h : line ∈ leftRight b.left (tag b.name) layout.wrapWidth) :
    Line layout b line
  | filled {p : Passage} {line : Text} (hp : p ∈ b.passages) (h : line ∈ p.lines layout) :
    Line layout b line
  | title {s : Text} (h : s ∈ titles) : Line layout b (margin layout 0 ++ s)
  | frame {s : Text} (h : s ∈ frames) : Line layout b (margin layout 2 ++ s)
  | noted {note s : Text} (hnote : note ∈ b.note) (h : s ∈ Text.lines note) :
    Line layout b (trimEnd (margin layout 2 ++ escape s))

namespace Block

variable {b : Block} {ps : List Passage} {note : Option Text}

theorem line_of_mem_flatMap (hps : ps ⊆ b.passages) (h : line ∈ ps.flatMap (·.lines layout)) :
    b.Line layout line := by
  obtain ⟨p, hp, hline⟩ := List.mem_flatMap.1 h
  exact .filled (hps hp) hline

theorem line_of_mem_description (hps : Passage.paragraphs s ⊆ b.passages)
    (h : line ∈ description layout s) : b.Line layout line := by
  rcases mem_description h with rfl | ⟨p, hp, hline⟩
  · exact .blank
  · exact .filled (hps hp) hline

theorem line_of_mem_titled {body : List Text} (htitle : title ∈ titles)
    (hbody : ∀ line ∈ body, b.Line layout line) (h : line ∈ titled layout title body) :
    b.Line layout line := by
  rw [titled, List.mem_cons, List.mem_cons] at h
  rcases h with rfl | rfl | h
  · exact .blank
  · exact .title htitle
  · exact hbody line h

theorem line_of_mem_list {α : Type} {xs : List α} {head : α → Text} {description : α → Option Text}
    (htitle : title ∈ titles)
    (hps : (xs.map fun x => Passage.entry (head x) (description x)) ⊆ b.passages)
    (h : line ∈ titled layout title (xs.flatMap fun x => Help.entry layout (head x) (description x))) :
    b.Line layout line := by
  refine line_of_mem_titled htitle (fun l hl => ?_) h
  obtain ⟨x, hx, hl⟩ := List.mem_flatMap.1 hl
  rw [entry_eq] at hl
  exact .filled (hps (List.mem_map_of_mem hx)) hl

theorem line_of_mem_members {name : Member → Text} {ms : List Member} (htitle : title ∈ titles)
    (hps : ms.map (Passage.member name) ⊆ b.passages) (h : line ∈ members layout title name ms) :
    b.Line layout line := by
  rw [members] at h
  split at h
  · exact absurd h List.not_mem_nil
  · exact line_of_mem_list htitle hps h

theorem line_of_mem_noteLines (h : line ∈ noteLines layout b.note) : b.Line layout line := by
  cases hnote : b.note with
  | none =>
    rw [hnote] at h
    exact absurd h List.not_mem_nil
  | some note =>
    rw [hnote] at h
    refine line_of_mem_titled (by decide) (fun l hl => ?_) h
    rw [List.cons_append, List.mem_cons, List.mem_append, List.mem_map, List.mem_singleton] at hl
    rcases hl with rfl | ⟨s, hs, rfl⟩ | rfl
    · exact .frame (by decide)
    · exact .noted hnote hs
    · exact .frame (by decide)

theorem line_of_mem_kindLines {kind : TypeKind} (hps : Passage.ofKind kind ⊆ b.passages)
    (h : line ∈ kindLines layout kind) : b.Line layout line := by
  cases kind with
  | record parents fields =>
    obtain ⟨hparents, hfields⟩ := List.append_subset.1 hps
    rcases List.mem_append.1 h with h | h
    · split at h
      · exact absurd h List.not_mem_nil
      · next hne =>
        rw [if_neg hne] at hparents
        exact .filled (hparents List.mem_cons_self) h
    · exact line_of_mem_members (by decide) hfields h
  | enumeration variants => exact line_of_mem_list (by decide) hps h
  | typeAlias type => exact .filled (hps List.mem_cons_self) h

end Block

theorem line_of_mem_functionBlock (h : line ∈ functionBlock layout moduleName f) :
    (Block.ofFunction moduleName f).Line layout line := by
  simp only [functionBlock, List.mem_append] at h
  rcases h with ((((h | h) | h) | h) | h) | h
  · exact .heading h
  · rw [deprecation_eq] at h
    refine Block.line_of_mem_flatMap (fun p hp => ?_) h
    exact List.mem_append_left _ (List.mem_append_left _ (List.mem_append_left _ hp))
  · refine Block.line_of_mem_description (fun p hp => ?_) h
    exact List.mem_append_left _ (List.mem_append_left _ (List.mem_append_right _ hp))
  · refine Block.line_of_mem_members (by decide) (fun p hp => ?_) h
    exact List.mem_append_left _ (List.mem_append_right _ hp)
  · rw [returnList] at h
    split at h
    · exact absurd h List.not_mem_nil
    · exact Block.line_of_mem_list (by decide) (fun p hp => List.mem_append_right _ hp) h
  · exact Block.line_of_mem_noteLines h

theorem line_of_mem_typeBlock (h : line ∈ typeBlock layout t) :
    (Block.ofType t).Line layout line := by
  simp only [typeBlock, List.mem_append] at h
  rcases h with ((h | h) | h) | h
  · exact .heading h
  · exact .filled List.mem_cons_self h
  · refine Block.line_of_mem_description (fun p hp => ?_) h
    exact List.mem_cons_of_mem _ (List.mem_append_left _ hp)
  · refine Block.line_of_mem_kindLines (fun p hp => ?_) h
    exact List.mem_cons_of_mem _ (List.mem_append_right _ hp)

/-- Every line of help text is empty, the title of the types, or a line of a block. -/
theorem line_of_mem_render (h : line ∈ render layout moduleName functions registry) :
    line = [] ∨ line = "Types:".toList ∨
      ∃ b ∈ blocks moduleName functions registry, b.Line layout line := by
  have hmem : line ∈ functions.flatMap (fun f => functionBlock layout moduleName f ++ [[]]) ++
      typeBlocks layout (registry.referencedTypes functions) :=
    List.mem_reverse.1 ((List.dropWhile_sublist _).mem (List.mem_reverse.1 h))
  rcases List.mem_append.1 hmem with h | h
  · obtain ⟨f, hf, h⟩ := List.mem_flatMap.1 h
    rw [List.mem_append, List.mem_singleton] at h
    rcases h with h | rfl
    · refine .inr (.inr ⟨.ofFunction moduleName f, ?_, line_of_mem_functionBlock h⟩)
      exact List.mem_append_left _ (List.mem_map_of_mem hf)
    · exact .inl rfl
  · rw [typeBlocks] at h
    split at h
    · exact absurd h List.not_mem_nil
    · rw [List.mem_cons, List.mem_cons] at h
      rcases h with rfl | rfl | h
      · exact .inr (.inl rfl)
      · exact .inl rfl
      · obtain ⟨t, ht, h⟩ := List.mem_flatMap.1 h
        rw [List.mem_append, List.mem_singleton] at h
        rcases h with h | rfl
        · refine .inr (.inr ⟨.ofType t, ?_, line_of_mem_typeBlock h⟩)
          exact List.mem_append_right _ (List.mem_map_of_mem ht)
        · exact .inl rfl

end LuaDocs.Help
