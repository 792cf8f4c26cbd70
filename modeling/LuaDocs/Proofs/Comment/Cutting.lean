import LuaDocs.Comment.Block
import Mathlib.Data.List.Basic

/-!
# Blocks cut at tags

A block is cut in front of its tags: some lines without any, and then one segment for each tag, which is the
tag with the lines up to the next one. Cut only in front of the tags that declare a type, it falls into the
sections that own the fields and variants of one type each. `starts` says at which directives a block is cut.
-/

namespace LuaDocs

/-- A tag and the lines behind it, up to where the block is cut again. -/
structure Segment where
  directive : Directive
  body : Text
  line : Nat
  lines : Block

def Segment.block (s : Segment) : Block :=
  ⟨.tag s.directive s.body, s.line⟩ :: s.lines

def Directive.tags : Directive → Bool :=
  fun _ => true

/-- A tag that declares a type starts a section. -/
def Directive.declares : Directive → Bool
  | .record | .typeAlias => true
  | _ => false

namespace Block

variable {starts : Directive → Bool} {l : DocLine} {rest : Block}

def opens (starts : Directive → Bool) (l : DocLine) : Bool :=
  match l.content with
  | .tag directive _ => starts directive
  | _ => false

/-- The lines in front of the first cut. -/
def front (starts : Directive → Bool) (block : Block) : Block :=
  block.takeWhile (!opens starts ·)

/-- The segment that starts at a line, if one does; `rest` are the lines after it. -/
def segmentAt? (starts : Directive → Bool) (l : DocLine) (rest : Block) : Option Segment :=
  match l.content with
  | .tag directive body =>
    if starts directive then some ⟨directive, body, l.line, front starts rest⟩ else none
  | _ => none

def segments (starts : Directive → Bool) : Block → List Segment
  | [] => []
  | l :: rest => (segmentAt? starts l rest).toList ++ segments starts rest

def prose (lines : Block) : List Text :=
  lines.filterMap fun l => match l.content with
    | .prose text => some text
    | _ => none

/-- A front and some segments make up a block, which is cut in front of each segment and nowhere else. -/
structure IsCut (starts : Directive → Bool) (block front : Block) (segments : List Segment) : Prop where
  whole : block = front ++ segments.flatMap Segment.block
  heads : ∀ s ∈ segments, starts s.directive = true
  front : ∀ l ∈ front, opens starts l = false
  lines : ∀ s ∈ segments, ∀ l ∈ s.lines, opens starts l = false

theorem front_cons_of_opens (h : opens starts l = true) : front starts (l :: rest) = [] := by
  simp [front, h]

theorem front_cons (h : opens starts l = false) :
    front starts (l :: rest) = l :: front starts rest := by
  simp [front, h]

theorem segments_cons (h : opens starts l = false) :
    segments starts (l :: rest) = segments starts rest := by
  obtain ⟨content, n⟩ := l
  cases content with
  | tag directive body =>
    have hstarts : starts directive = false := h
    simp [segments, segmentAt?, hstarts]
  | variant text => rfl
  | prose text => rfl

theorem segments_cons_tag {directive : Directive} {body : Text} {n : Nat} (h : starts directive = true) :
    segments starts (⟨.tag directive body, n⟩ :: rest) =
      ⟨directive, body, n, front starts rest⟩ :: segments starts rest := by
  simp [segments, segmentAt?, h]

/-- Where a block is cut, a segment starts; everywhere else a line goes to what is in front of it. -/
theorem isCut (starts : Directive → Bool) (block : Block) :
    IsCut starts block (front starts block) (segments starts block) := by
  induction block with
  | nil => exact ⟨rfl, nofun, nofun, nofun⟩
  | cons l rest ih =>
    obtain ⟨hwhole, hheads, hfront, hlines⟩ := ih
    cases hl : opens starts l with
    | false =>
      rw [front_cons hl, segments_cons hl]
      refine ⟨?_, hheads, List.forall_mem_cons.2 ⟨hl, hfront⟩, hlines⟩
      rw [List.cons_append, ← hwhole]
    | true =>
      obtain ⟨content, n⟩ := l
      cases content with
      | tag directive body =>
        have hdirective : starts directive = true := hl
        rw [front_cons_of_opens hl, segments_cons_tag hdirective]
        refine ⟨?_, List.forall_mem_cons.2 ⟨hdirective, hheads⟩, nofun,
          List.forall_mem_cons.2 ⟨hfront, hlines⟩⟩
        rw [List.nil_append, List.flatMap_cons, Segment.block, List.cons_append, ← hwhole]
      | variant text => cases hl
      | prose text => cases hl

theorem front_append {lines behind : Block}
    (h : ∀ l ∈ behind.head?, opens starts l = true) : front starts (lines ++ behind) = front starts lines := by
  induction lines with
  | nil =>
    cases behind with
    | nil => rfl
    | cons l rest => exact front_cons_of_opens (h l rfl)
  | cons l rest ih =>
    rw [List.cons_append]
    cases hl : opens starts l with
    | true => rw [front_cons_of_opens hl, front_cons_of_opens hl]
    | false => rw [front_cons hl, front_cons hl, ih]

/-- What segments make up is empty or starts with a tag. -/
theorem opens_of_mem_head? (segments : List Segment) :
    ∀ l ∈ (segments.flatMap Segment.block).head?, opens Directive.tags l = true := by
  cases segments with
  | nil => exact nofun
  | cons s segments =>
    intro l hl
    cases hl
    rfl

end Block

end LuaDocs
