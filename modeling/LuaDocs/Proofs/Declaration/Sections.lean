import LuaDocs.Proofs.Declaration.Owned

/-!
# Types from the sections of a block

A block with class and alias tags falls into sections, one for each such tag, and each section says of its
type all there is to say, apart from the prose in front of all tags. Nothing is carried from one section to
the next: whatever a malformed tag is followed by is lost with it, and what a class or an alias has no use for
is passed over. The first type takes the prose in front, so that alone goes through the list of sections.
-/

namespace LuaDocs

open Text

/-! ### Sections -/

namespace Segment

variable (s : Segment)

/-- The type that a section declares, located at its tag; `leading` is prose in front of it. -/
def typeDoc? (file : Text) (leading : List Text) : Option TypeDoc :=
  match s.directive with
  | .record =>
    (Tag.classHead? s.body).map fun head =>
      { name := head.name
        generics := head.generics
        kind := .record head.parents ((Block.segments Directive.tags s.lines).filterMap field?)
        description := ((leading ++ (Block.front Directive.tags s.lines).prose).foldl Paragraphs.push .empty).text
        location := ⟨file, s.line⟩ }
  | .typeAlias =>
    (Tag.aliasHead? s.body).map fun head =>
      { name := head.name
        generics := []
        kind := (KindDraft.typeAlias head.type (Block.alternatives s.lines)).finish
        description := ((leading ++ (head.description.toList ++ (Block.continuing s.lines).prose)).foldl
          Paragraphs.push .empty).text
        location := ⟨file, s.line⟩ }
  | _ => none

/-- The reports on a section: on its tag, or on the fields of its class. -/
def typeReports (file : Text) : List Diagnostic :=
  match s.directive with
  | .record =>
    match Tag.classHead? s.body with
    | none => [.malformedTag ⟨file, s.line⟩ .record .missingClassName]
    | some _ => (Block.segments Directive.tags s.lines).filterMap (·.fieldReport? file)
  | .typeAlias =>
    match Tag.aliasHead? s.body with
    | none => [.malformedTag ⟨file, s.line⟩ .typeAlias .missingAliasName]
    | some _ => []
  | _ => []

end Segment

/-- The types of some sections. Only the first of them takes the prose in front of all tags. -/
def TypeDoc.ofSections (file : Text) (leading : List Text) : List Segment → List TypeDoc
  | [] => []
  | s :: sections =>
    match s.typeDoc? file leading with
    | some t => t :: ofSections file [] sections
    | none => ofSections file leading sections

/-! ### Reading section by section -/

/-- Whatever a tag starts is not asked about by what stands in front of it. -/
theorem Tag.variantUnion?_append {lines behind : Block}
    (h : ∀ l ∈ behind.head?, Block.opens Directive.tags l = true) :
    variantUnion? (lines ++ behind) = variantUnion? lines := by
  rw [← variantUnion?_front, Block.front_append h, variantUnion?_front]

namespace TypesDraft

variable {file : Text} {d : TypesDraft} {types : List TypeDoc} {leading : List Text}
  {reports : List Diagnostic}

theorem read_append (d : TypesDraft) {lines behind : Block}
    (h : ∀ l ∈ behind.head?, Block.opens Directive.tags l = true) :
    d.read file (lines ++ behind) = (d.read file lines).read file behind := by
  induction lines generalizing d with
  | nil => rfl
  | cons l rest ih =>
    obtain ⟨content, n⟩ := l
    cases content with
    | prose text => exact ih (d.addProse text)
    | variant text => exact ih (d.addVariant text)
    | tag directive body =>
      rw [List.cons_append, read_tag, read_tag, Tag.variantUnion?_append h]
      exact ih _

/-- What a draft amounts to so far: some types, prose that no type has taken yet, and some reports. -/
structure Yields (d : TypesDraft) (types : List TypeDoc) (leading : List Text) (reports : List Diagnostic) :
    Prop where
  types : d.types = types
  leading : d.leading = leading.foldl Paragraphs.push .empty
  reports : d.diagnostics = reports

/-- A section whose tag is malformed closes the type in front of it and leaves nothing but its report. -/
theorem Yields.malformed (h : d.Yields types leading reports) (here : Location) (directive : Directive)
    (fault : TagFault) {lines : Block} (hlines : ∀ l ∈ lines, Block.opens Directive.declares l = false) :
    ((d.close.report here directive fault).read file lines).Yields types leading
      (reports ++ [.malformedTag here directive fault]) := by
  obtain ⟨target, hread⟩ := read_unopened file (d := d.close.report here directive fault) rfl hlines
  rw [hread, foldl_addProse_nowhere rfl]
  refine ⟨?_, h.leading, congrArg (· ++ _) h.reports⟩
  rw [← h.types]
  exact List.append_nil d.types

/-- A class takes the prose in front of it and its own lines, and is finished where they end. -/
theorem Yields.record (h : d.Yields types leading reports) {s : Segment} (hs : s.directive = .record)
    {head : Tag.ClassHead} (hhead : Tag.classHead? s.body = some head)
    (hlines : ∀ l ∈ s.lines, Block.opens Directive.declares l = false) :
    ((d.close.start ⟨file, s.line⟩ head.name head.generics (.record head.parents [])).read file s.lines).Yields
      (types ++ (s.typeDoc? file leading).toList) [] (reports ++ s.typeReports file) := by
  obtain ⟨target, hread⟩ := read_record file
    (d := d.close.start ⟨file, s.line⟩ head.name head.generics (.record head.parents []))
    ⟨_, head.parents, [], rfl, rfl⟩ hlines
  rw [hread, foldl_addProse_description rfl rfl]
  refine ⟨?_, rfl, ?_⟩
  · rw [← h.types]
    simp [withFields, start, close, TypesDraft.types, TypeDraft.addFields, TypeDraft.finish, KindDraft.finish,
      Segment.typeDoc?, hs, hhead, h.leading]
  · rw [← h.reports]
    simp [withFields, start, close, Segment.typeReports, hs, hhead]

/-- An alias takes the prose in front of it and its own lines, and is finished where they end. -/
theorem Yields.typeAlias (h : d.Yields types leading reports) {s : Segment} (hs : s.directive = .typeAlias)
    {head : Tag.AliasHead} (hhead : Tag.aliasHead? s.body = some head)
    (hlines : ∀ l ∈ s.lines, Block.opens Directive.declares l = false) :
    ((d.addTag ⟨file, s.line⟩ .typeAlias s.body s.variants).read file s.lines).Yields
      (types ++ (s.typeDoc? file leading).toList) [] (reports ++ s.typeReports file) := by
  have hopen : d.addTag ⟨file, s.line⟩ .typeAlias s.body s.variants =
      head.description.toList.foldl TypesDraft.addProse
        (d.close.start ⟨file, s.line⟩ head.name [] (.typeAlias head.type [])) := by
    rw [addTag, hhead]
    dsimp only
    cases head.description <;> rfl
  rw [foldl_addProse_description rfl rfl] at hopen
  obtain ⟨target, hread⟩ := read_alias file (d := d.addTag ⟨file, s.line⟩ .typeAlias s.body s.variants)
    ⟨_, head.type, [], by rw [hopen], rfl⟩ hlines
  rw [hread, hopen, foldl_addProse_description rfl rfl]
  refine ⟨?_, rfl, ?_⟩
  · rw [← h.types]
    simp [withAlternatives, start, close, TypesDraft.types, TypeDraft.addAlternatives, TypeDraft.finish,
      Segment.typeDoc?, hs, hhead, h.leading]
  · rw [← h.reports]
    simp [withAlternatives, start, close, Segment.typeReports, hs, hhead]

/-- Reading a section adds the type that it declares or the report on its tag. -/
theorem Yields.section (h : d.Yields types leading reports) {s : Segment} (hs : s.directive.declares = true)
    (hlines : ∀ l ∈ s.lines, Block.opens Directive.declares l = false) :
    (d.read file s.block).Yields (types ++ (s.typeDoc? file leading).toList)
      (if (s.typeDoc? file leading).isSome then [] else leading) (reports ++ s.typeReports file) := by
  have hvariants : Tag.variantUnion? s.lines = s.variants := rfl
  rw [Segment.block, read_tag, hvariants]
  cases hdirective : s.directive with
  | record =>
    cases hhead : Tag.classHead? s.body with
    | none =>
      have htype : s.typeDoc? file leading = none := by rw [Segment.typeDoc?, hdirective, hhead]; rfl
      have hreport : s.typeReports file = [.malformedTag ⟨file, s.line⟩ .record .missingClassName] := by
        rw [Segment.typeReports, hdirective, hhead]
      rw [addTag, hhead, htype, hreport, Option.toList_none, List.append_nil]
      exact h.malformed ⟨file, s.line⟩ .record .missingClassName hlines
    | some head =>
      have htype : (s.typeDoc? file leading).isSome = true := by rw [Segment.typeDoc?, hdirective, hhead]; rfl
      rw [addTag, hhead, if_pos htype]
      exact h.record hdirective hhead hlines
  | typeAlias =>
    cases hhead : Tag.aliasHead? s.body with
    | none =>
      have htype : s.typeDoc? file leading = none := by rw [Segment.typeDoc?, hdirective, hhead]; rfl
      have hreport : s.typeReports file = [.malformedTag ⟨file, s.line⟩ .typeAlias .missingAliasName] := by
        rw [Segment.typeReports, hdirective, hhead]
      rw [addTag, hhead, htype, hreport, Option.toList_none, List.append_nil]
      exact h.malformed ⟨file, s.line⟩ .typeAlias .missingAliasName hlines
    | some head =>
      have htype : (s.typeDoc? file leading).isSome = true := by rw [Segment.typeDoc?, hdirective, hhead]; rfl
      rw [if_pos htype]
      exact h.typeAlias hdirective hhead hlines
  | _ =>
    rw [hdirective] at hs
    cases hs

/-- Reading some sections adds the types that they declare. -/
theorem Yields.sections (file : Text) {sections : List Segment} (h : d.Yields types leading reports)
    (hs : ∀ s ∈ sections, s.directive.declares = true)
    (hlines : ∀ s ∈ sections, ∀ l ∈ s.lines, Block.opens Directive.declares l = false) :
    ∃ left, (d.read file (sections.flatMap Segment.block)).Yields (types ++ TypeDoc.ofSections file leading sections)
      left (reports ++ sections.flatMap (·.typeReports file)) := by
  induction sections generalizing d types leading reports with
  | nil =>
    refine ⟨leading, ?_⟩
    rw [List.flatMap_nil, List.flatMap_nil, TypeDoc.ofSections, List.append_nil, List.append_nil]
    exact h
  | cons s sections ih =>
    obtain ⟨hdeclares, hs⟩ := List.forall_mem_cons.1 hs
    obtain ⟨howned, hlines⟩ := List.forall_mem_cons.1 hlines
    have hfirst : (d.read file s.block).Yields _ _ _ := h.section hdeclares howned
    obtain ⟨left, hleft⟩ := ih hfirst hs hlines
    refine ⟨left, ?_⟩
    rw [List.flatMap_cons, List.flatMap_cons, read_append d (Block.opens_of_mem_head? sections), TypeDoc.ofSections,
      ← List.append_assoc]
    cases htype : s.typeDoc? file leading with
    | none => simpa [htype] using hleft
    | some t => simpa [htype] using hleft

end TypesDraft

/-- A block, cut in front of its class and alias tags, declares what its sections declare one by one: a type for
each tag that has the form of its kind, at the line of the tag, and otherwise a report at that line. Prose in
front of all tags goes to the first of the types. -/
theorem TypeDoc.ofBlock_sections (block : Block) (file : Text) :
    Block.IsCut Directive.declares block (Block.front Directive.declares block)
        (Block.segments Directive.declares block) ∧
      ofBlock block file =
        (ofSections file (Block.prose (Block.front Directive.tags block)) (Block.segments Directive.declares block),
          (Block.segments Directive.declares block).flatMap (·.typeReports file)) := by
  have hcut := Block.isCut Directive.declares block
  have hfront : Block.front Directive.tags (Block.front Directive.declares block) =
      Block.front Directive.tags block := by
    apply Block.takeWhile_front
    rintro ⟨content, n⟩ hl
    cases content with
    | tag directive body => cases hl
    | _ => rfl
  obtain ⟨target, hopen⟩ := TypesDraft.read_unopened file (d := .empty) rfl hcut.front
  rw [hfront, TypesDraft.foldl_addProse_leading rfl rfl] at hopen
  have hyields : (TypesDraft.empty.read file (Block.front Directive.declares block)).Yields []
      (Block.prose (Block.front Directive.tags block)) [] := by
    rw [hopen]
    exact ⟨rfl, rfl, rfl⟩
  obtain ⟨left, hsections⟩ := hyields.sections file hcut.heads hcut.lines
  have hread : TypesDraft.empty.read file block = _ :=
    (congrArg _ hcut.whole).trans (TypesDraft.read_append _ (Block.opens_of_mem_head? _))
  refine ⟨hcut, ?_⟩
  rw [ofBlock, hread, hsections.types, hsections.reports]
  rfl

end LuaDocs
