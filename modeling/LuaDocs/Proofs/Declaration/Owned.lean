import LuaDocs.Declaration.Type
import LuaDocs.Proofs.Declaration.Segments

/-!
# What a class or an alias takes from its lines

Behind its tag a class takes prose, then a field for each field tag with the prose up to the next tag; an alias
takes prose, then its alternatives, each with the prose up to the next tag or alternative. Both pass over what
they have no use for. As long as no type has been opened, only the prose in front of all tags is kept. Reading
remembers where prose belongs at the moment, which is always the last field or alternative there is.
-/

namespace LuaDocs

open Text

/-! ### Fields and alternatives -/

/-- The alternative on a line, with the text behind it. -/
def DocLine.alternative? (l : DocLine) : Option (TypeExpr × Option Text) :=
  match l.content with
  | .variant text => (TypeExpr.leading? text).map fun (t, r) => (t, Tag.description? r.1)
  | _ => none

namespace Block

def continuing (lines : Block) : Block :=
  lines.takeWhile fun l => !opens Directive.tags l && l.alternative?.isNone

def alternatives : Block → List (TypeExpr × Option Text)
  | [] => []
  | l :: rest =>
    match l.alternative? with
    | some (t, own) => (t, Prose.joined own (prose (continuing rest))) :: alternatives rest
    | none => alternatives rest

end Block

namespace Segment

variable (s : Segment)

def entry? : Option (Except TagFault Member) :=
  match s.directive with
  | .field => some ((Tag.member (Tag.dropScope s.body) s.variants).map (Member.continued s.prose))
  | _ => none

def field? : Option Member :=
  match s.entry? with
  | some (.ok m) => some m
  | _ => none

/-- The report on a field tag without the form of its kind, at the line of the tag. -/
def fieldReport? (file : Text) : Option Diagnostic :=
  match s.entry? with
  | some (.error fault) => some (.malformedTag ⟨file, s.line⟩ .field fault)
  | _ => none

end Segment

/-! ### Prose -/

namespace TypesDraft

variable {file : Text}

theorem foldl_addProse_nowhere {d : TypesDraft} (h : d.target = .nowhere) (prose : List Text) :
    prose.foldl addProse d = d := by
  have hstep : ∀ p, d.addProse p = d := by
    intro p
    rw [addProse, h]
  induction prose with
  | nil => rfl
  | cons p prose ih => rw [List.foldl_cons, hstep, ih]

theorem foldl_addProse_leading {d : TypesDraft} (hcurrent : d.current = none) (htarget : d.target = .description)
    (prose : List Text) :
    prose.foldl addProse d = { d with leading := prose.foldl Paragraphs.push d.leading } := by
  refine List.foldl_hom (fun leading => { d with leading }) fun leading p => ?_
  rw [addProse, htarget, hcurrent]

theorem foldl_addProse_description {d : TypesDraft} {t : TypeDraft} (hcurrent : d.current = some t)
    (htarget : d.target = .description) (prose : List Text) :
    prose.foldl addProse d =
      { d with current := some { t with description := prose.foldl Paragraphs.push t.description } } := by
  have hd : { d with current := some { t with description := t.description } } = d := by rw [← hcurrent]
  conv_lhs => rw [← hd]
  refine List.foldl_hom (fun description => { d with current := some { t with description } }) fun description p => ?_
  rw [addProse, htarget]

/-- Prose behind a field goes to that field, the last of its class. -/
theorem foldl_addProse_field (d : TypesDraft) (t : TypeDraft) (parents : List TypeExpr) (fields : List Member)
    {m : Member} (hm : m.description ≠ some []) (prose : List Text) :
    prose.foldl addProse
        { d with
          current := some { t with kind := .record parents (fields ++ [m]) }
          target := .member fields.length } =
      { d with
        current := some { t with kind := .record parents (fields ++ [m.continued prose]) }
        target := .member fields.length } := by
  rw [← m.appendAll_eq hm]
  refine List.foldl_hom (fun m =>
    { d with
      current := some { t with kind := .record parents (fields ++ [m]) }
      target := .member fields.length }) fun m p => ?_
  simp only [addProse, TypeDraft.appendToField, modify_length_concat]

/-- Prose behind an alternative goes to that alternative, the last of its alias. -/
theorem foldl_addProse_alternative (d : TypesDraft) (t : TypeDraft) (type : Option TypeExpr)
    (alts : List (TypeExpr × Option Text)) (v : TypeExpr) {own : Option Text} (hown : own ≠ some [])
    (prose : List Text) :
    prose.foldl addProse
        { d with
          current := some { t with kind := .typeAlias type (alts ++ [(v, own)]) }
          target := .variant alts.length } =
      { d with
        current := some { t with kind := .typeAlias type (alts ++ [(v, Prose.joined own prose)]) }
        target := .variant alts.length } := by
  rw [← Prose.foldl_append hown]
  refine List.foldl_hom (fun own =>
    { d with
      current := some { t with kind := .typeAlias type (alts ++ [(v, own)]) }
      target := .variant alts.length }) fun own p => ?_
  simp only [addProse, TypeDraft.appendToVariant, modify_length_concat]

/-! ### Lines without tags of types -/

theorem read_variant (file : Text) (d : TypesDraft) (text : Text) (n : Nat) (rest : Block) :
    d.read file (⟨.variant text, n⟩ :: rest) = (d.addVariant text).read file rest :=
  rfl

theorem read_tag (file : Text) (d : TypesDraft) (directive : Directive) (body : Text) (n : Nat) (rest : Block) :
    d.read file (⟨.tag directive body, n⟩ :: rest) =
      (d.addTag ⟨file, n⟩ directive body (Tag.variantUnion? rest)).read file rest :=
  rfl

/-- The type that has been opened is a class. -/
def InRecord (d : TypesDraft) : Prop :=
  ∃ t parents fields, d.current = some t ∧ t.kind = .record parents fields

/-- A draft whose next prose goes elsewhere. -/
def toward (d : TypesDraft) (target : ProseTarget) : TypesDraft :=
  { d with target }

/-- A tag that neither declares a type nor a field of a class has no effect but to end what stands before. -/
theorem addTag_eq_toward {d : TypesDraft} {directive : Directive} (hdeclares : directive.declares = false)
    (hfield : directive = .field → ¬ d.InRecord) (here : Location) (body : Text)
    (variants : Option TypeExpr) : d.addTag here directive body variants = d.toward .nowhere := by
  cases directive with
  | record | typeAlias => cases hdeclares
  | field =>
    rw [addTag, addField]
    cases hcurrent : d.current with
    | none => simp only [toward, hcurrent]
    | some t =>
      cases hkind : t.kind with
      | record parents fields => exact absurd ⟨t, parents, fields, hcurrent, hkind⟩ (hfield rfl)
      | typeAlias type alts => simp only [hkind, toward, hcurrent]
  | _ => rfl

/-- Where no type has been opened, nothing is taken but the prose in front of all tags. -/
theorem read_unopened (file : Text) {d : TypesDraft} (h : d.current = none) {lines : Block}
    (hlines : ∀ l ∈ lines, Block.opens Directive.declares l = false) :
    ∃ target, d.read file lines =
      ((Block.front Directive.tags lines).prose.foldl addProse d).toward target := by
  induction lines generalizing d with
  | nil => exact ⟨d.target, rfl⟩
  | cons l rest ih =>
    obtain ⟨hl, hrest⟩ := List.forall_mem_cons.1 hlines
    obtain ⟨content, n⟩ := l
    cases content with
    | prose text =>
      have hcurrent : (d.addProse text).current = none := by
        rw [addProse, h]
        cases d.target <;> first | exact h | rfl
      exact ih hcurrent hrest
    | variant text =>
      have hstep : d.addVariant text = d := by rw [addVariant, h]
      rw [read_variant, hstep]
      exact ih h hrest
    | tag directive body =>
      have hnone : ¬ d.InRecord := by
        rintro ⟨t, parents, fields, hcurrent, -⟩
        rw [h] at hcurrent
        cases hcurrent
      obtain ⟨target, hread⟩ := ih (d := d.toward .nowhere) h hrest
      rw [foldl_addProse_nowhere rfl] at hread
      refine ⟨target, ?_⟩
      rw [read_tag, addTag_eq_toward hl (fun _ => hnone), hread, Block.front_cons_of_opens rfl]
      rfl

end TypesDraft

/-! ### Lines of a class -/

def TypeDraft.addFields (fields : List Member) (t : TypeDraft) : TypeDraft :=
  match t.kind with
  | .record parents before => { t with kind := .record parents (before ++ fields) }
  | .typeAlias _ _ => t

theorem TypeDraft.addFields_nil : addFields [] = id := by
  funext t
  obtain ⟨name, generics, kind, description, location⟩ := t
  cases kind <;> simp [addFields]

theorem TypeDraft.addFields_comp (fields fields' : List Member) :
    addFields fields' ∘ addFields fields = addFields (fields ++ fields') := by
  funext t
  obtain ⟨name, generics, kind, description, location⟩ := t
  cases kind <;> simp [addFields]

namespace TypesDraft

variable {file : Text} {d : TypesDraft}

/-- A draft that goes on with the fields of some segments. -/
def withFields (file : Text) (d : TypesDraft) (segments : List Segment) (target : ProseTarget) : TypesDraft :=
  { d with
    current := d.current.map (TypeDraft.addFields (segments.filterMap Segment.field?))
    target
    diagnostics := d.diagnostics ++ segments.filterMap (·.fieldReport? file) }

theorem InRecord.addProse (h : d.InRecord) (p : Text) : (d.addProse p).InRecord := by
  obtain ⟨t, parents, fields, hcurrent, hkind⟩ := h
  rw [TypesDraft.addProse, hcurrent]
  cases d.target with
  | description => exact ⟨_, parents, fields, rfl, hkind⟩
  | member i => exact ⟨_, parents, _, rfl, by rw [TypeDraft.appendToField, hkind]⟩
  | variant i => exact ⟨_, parents, fields, rfl, by rw [TypeDraft.appendToVariant, hkind]; exact hkind⟩
  | _ => exact ⟨t, parents, fields, hcurrent, hkind⟩

theorem InRecord.addVariant (h : d.InRecord) (text : Text) : d.addVariant text = d := by
  obtain ⟨t, parents, fields, hcurrent, hkind⟩ := h
  simp only [TypesDraft.addVariant, hcurrent, hkind]

theorem withFields_nil (d : TypesDraft) : d.withFields file [] d.target = d := by
  simp [withFields, TypeDraft.addFields_nil]

theorem withFields_cons (d : TypesDraft) (s : Segment) (segments : List Segment)
    (target target' : ProseTarget) :
    (d.withFields file [s] target).withFields file segments target' =
      d.withFields file (s :: segments) target' := by
  simp only [withFields, Option.map_map, TypeDraft.addFields_comp, List.append_assoc, ← List.filterMap_append,
    List.singleton_append]

/-- A tag under a class and the prose behind it add what the segment says of a field. -/
theorem foldl_addTag_record (file : Text) (h : d.InRecord) (s : Segment) (hs : s.directive.declares = false) :
    (d.addTag ⟨file, s.line⟩ s.directive s.body s.variants).InRecord ∧
      ∃ target, s.prose.foldl addProse (d.addTag ⟨file, s.line⟩ s.directive s.body s.variants) =
        d.withFields file [s] target := by
  obtain ⟨⟨name, generics, kind, description, location⟩, parents, fields, hcurrent, rfl⟩ := h
  by_cases hfield : s.directive = .field
  · rw [hfield, addTag, addField, hcurrent]
    cases hm : Tag.member (Tag.dropScope s.body) s.variants with
    | ok m =>
      have hentry : s.entry? = some (.ok (m.continued s.prose)) := by
        simp [Segment.entry?, hfield, hm, Except.map]
      refine ⟨⟨_, parents, _, rfl, rfl⟩, .member fields.length, ?_⟩
      simp only [foldl_addProse_field d ⟨name, generics, .record parents fields, description, location⟩ parents fields
        (Tag.description_of_member hm)]
      simp [withFields, Segment.field?, Segment.fieldReport?, hentry, hcurrent, TypeDraft.addFields]
    | error fault =>
      have hentry : s.entry? = some (.error fault) := by
        simp [Segment.entry?, hfield, hm, Except.map]
      refine ⟨⟨_, parents, _, hcurrent, rfl⟩, .nowhere, ?_⟩
      dsimp only
      rw [foldl_addProse_nowhere rfl]
      simp [withFields, report, Segment.field?, Segment.fieldReport?, hentry, hcurrent, TypeDraft.addFields]
  · have hstep := addTag_eq_toward hs (fun hf => absurd hf hfield) ⟨file, s.line⟩ s.body s.variants (d := d)
    have hentry : s.entry? = none := by
      rw [Segment.entry?]
      split
      · next hf => exact absurd hf hfield
      · rfl
    rw [hstep]
    refine ⟨⟨_, parents, fields, hcurrent, rfl⟩, .nowhere, ?_⟩
    rw [foldl_addProse_nowhere rfl]
    simp [withFields, toward, Segment.field?, Segment.fieldReport?, hentry, hcurrent, TypeDraft.addFields]

/-- The lines of a class describe it up to the first tag, and then each segment adds a field or nothing. -/
theorem read_record (file : Text) (h : d.InRecord) {lines : Block}
    (hlines : ∀ l ∈ lines, Block.opens Directive.declares l = false) :
    ∃ target, d.read file lines =
      ((Block.front Directive.tags lines).prose.foldl addProse d).withFields file
        (Block.segments Directive.tags lines) target := by
  induction lines generalizing d with
  | nil => exact ⟨d.target, (withFields_nil d).symm⟩
  | cons l rest ih =>
    obtain ⟨hl, hrest⟩ := List.forall_mem_cons.1 hlines
    obtain ⟨content, n⟩ := l
    cases content with
    | prose text => exact ih (h.addProse text) hrest
    | variant text =>
      rw [read_variant, h.addVariant]
      exact ih h hrest
    | tag directive body =>
      let s : Segment := ⟨directive, body, n, Block.front Directive.tags rest⟩
      have hsegments : Block.segments Directive.tags (⟨.tag directive body, n⟩ :: rest) =
          s :: Block.segments Directive.tags rest := Block.segments_cons_tag rfl
      have hvariants : s.variants = Tag.variantUnion? rest := Tag.variantUnion?_front rest
      obtain ⟨hrecord, between, hsegment⟩ := foldl_addTag_record file h s hl
      obtain ⟨target, hread⟩ := ih hrecord hrest
      have hbehind : (Block.front Directive.tags rest).prose.foldl addProse
          (d.addTag ⟨file, n⟩ directive body s.variants) = d.withFields file [s] between := hsegment
      refine ⟨target, ?_⟩
      rw [read_tag, ← hvariants, hread, hbehind, withFields_cons, hsegments, Block.front_cons_of_opens rfl]
      rfl

end TypesDraft

/-! ### Lines of an alias -/

def TypeDraft.addAlternatives (alts : List (TypeExpr × Option Text)) (t : TypeDraft) : TypeDraft :=
  match t.kind with
  | .record _ _ => t
  | .typeAlias type before => { t with kind := .typeAlias type (before ++ alts) }

theorem TypeDraft.addAlternatives_nil : addAlternatives [] = id := by
  funext t
  obtain ⟨name, generics, kind, description, location⟩ := t
  cases kind <;> simp [addAlternatives]

namespace TypesDraft

variable {file : Text} {d : TypesDraft}

/-- The type that has been opened is an alias. -/
def InAlias (d : TypesDraft) : Prop :=
  ∃ t type alts, d.current = some t ∧ t.kind = .typeAlias type alts

/-- A draft that goes on with some alternatives. -/
def withAlternatives (d : TypesDraft) (alts : List (TypeExpr × Option Text)) (target : ProseTarget) : TypesDraft :=
  { d with
    current := d.current.map (TypeDraft.addAlternatives alts)
    target }

theorem InAlias.addProse (h : d.InAlias) (p : Text) : (d.addProse p).InAlias := by
  obtain ⟨t, type, alts, hcurrent, hkind⟩ := h
  rw [TypesDraft.addProse, hcurrent]
  cases d.target with
  | description => exact ⟨_, type, alts, rfl, hkind⟩
  | member i => exact ⟨_, type, alts, rfl, by rw [TypeDraft.appendToField, hkind]; exact hkind⟩
  | variant i => exact ⟨_, type, _, rfl, by rw [TypeDraft.appendToVariant, hkind]⟩
  | _ => exact ⟨t, type, alts, hcurrent, hkind⟩

theorem withAlternatives_nil (d : TypesDraft) : d.withAlternatives [] d.target = d := by
  simp [withAlternatives, TypeDraft.addAlternatives_nil]

/-- The lines of an alias describe it up to the first tag or alternative; each alternative is then described up
to the next tag or alternative. -/
theorem read_alias (file : Text) (h : d.InAlias) {lines : Block}
    (hlines : ∀ l ∈ lines, Block.opens Directive.declares l = false) :
    ∃ target, d.read file lines =
      ((Block.continuing lines).prose.foldl addProse d).withAlternatives (Block.alternatives lines) target := by
  induction lines generalizing d with
  | nil => exact ⟨d.target, (withAlternatives_nil d).symm⟩
  | cons l rest ih =>
    obtain ⟨hl, hrest⟩ := List.forall_mem_cons.1 hlines
    obtain ⟨content, n⟩ := l
    cases content with
    | prose text => exact ih (h.addProse text) hrest
    | variant text =>
      obtain ⟨⟨name, generics, kind, description, location⟩, type, alts, hcurrent, rfl⟩ := h
      cases hv : TypeExpr.leading? text with
      | none =>
        have hnone : DocLine.alternative? ⟨.variant text, n⟩ = none := by
          simp only [DocLine.alternative?, hv, Option.map_none]
        have hstep : d.addVariant text = d := by simp only [addVariant, hcurrent, hv]
        have hcontinuing : Block.continuing (⟨.variant text, n⟩ :: rest) =
            ⟨.variant text, n⟩ :: Block.continuing rest :=
          List.takeWhile_cons_of_pos (by rw [hnone]; rfl)
        obtain ⟨target, hread⟩ := ih ⟨_, type, alts, hcurrent, rfl⟩ hrest
        refine ⟨target, ?_⟩
        rw [read_variant, hstep, hread, hcontinuing, Block.alternatives, hnone]
        rfl
      | some vr =>
        obtain ⟨v, r⟩ := vr
        let own := Tag.description? r.1
        have hsome : DocLine.alternative? ⟨.variant text, n⟩ = some (v, own) := by
          simp only [DocLine.alternative?, hv, Option.map_some, own]
        have hstep : d.addVariant text =
            { d with
              current := some ⟨name, generics, .typeAlias type (alts ++ [(v, own)]), description, location⟩
              target := .variant alts.length } := by
          simp only [addVariant, hcurrent, hv, own]
        have hcontinuing : Block.continuing (⟨.variant text, n⟩ :: rest) = [] :=
          List.takeWhile_cons_of_neg (by rw [hsome]; exact nofun)
        obtain ⟨target, hread⟩ := ih (d := d.addVariant text)
          (by rw [hstep]; exact ⟨_, type, _, rfl, rfl⟩) hrest
        refine ⟨target, ?_⟩
        rw [read_variant, hread, hstep, hcontinuing, Block.alternatives, hsome,
          foldl_addProse_alternative d ⟨name, generics, .typeAlias type alts, description, location⟩ type alts v
            (Tag.description?_ne r.1)]
        simp [withAlternatives, hcurrent, TypeDraft.addAlternatives, Block.prose, own]
    | tag directive body =>
      have hrecord : ¬ d.InRecord := by
        obtain ⟨t, type, alts, hcurrent, hkind⟩ := h
        rintro ⟨t', parents, fields, hcurrent', hkind'⟩
        cases hcurrent.symm.trans hcurrent'
        cases hkind.symm.trans hkind'
      obtain ⟨target, hread⟩ := ih (d := d.toward .nowhere) h hrest
      rw [foldl_addProse_nowhere rfl] at hread
      refine ⟨target, ?_⟩
      rw [read_tag, addTag_eq_toward hl (fun _ => hrecord), hread]
      rfl

end TypesDraft

end LuaDocs
