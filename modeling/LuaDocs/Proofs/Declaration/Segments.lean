import LuaDocs.Declaration.Function
import LuaDocs.Proofs.Comment.Cutting
import LuaDocs.Proofs.Declaration.Joining
import Mathlib.Data.List.ModifyLast
import Mathlib.Data.List.TakeWhile

/-!
# Functions from the segments of a block

A block says of a function what its segments say, each taken by itself: a tag together with the variants and
the prose up to the next tag. Reading goes over the lines once and keeps in mind where prose belongs at the
moment; `ofSegments` has no such memory. The two agree because prose between two tags always goes to what the
first of them has added, which is the last of its list at that time.
-/

namespace LuaDocs

open Text

/-! ### What tags yield -/

namespace Tag

variable {body s rest : Text} {variants : Option TypeExpr} {m : Member} {ts : List TypeExpr}
  {values : List ReturnValue}

theorem description?_ne (s : Text) : description? s ≠ some [] := by
  rw [description?]
  split
  · exact nofun
  · next h =>
    intro hs
    rw [Option.some.inj hs] at h
    exact h rfl

theorem description_of_member (h : member body variants = .ok m) : m.description ≠ some [] := by
  rw [member] at h
  split at h
  · cases h
  · dsimp only at h
    split at h
    · cases h
    · split at h
      · cases h
      · cases h
        apply description?_ne

theorem typeList_ne_nil (h : typeList s = .ok (ts, rest)) : ts ≠ [] := by
  rw [typeList] at h
  split at h
  · cases h
  · split at h
    · cases h
      exact List.cons_ne_nil _ _
    · next r hcomma =>
      cases hlist : typeList r.1 with
      | error fault =>
        rw [hlist] at h
        cases h
      | ok p =>
        rw [hlist] at h
        cases h
        exact List.cons_ne_nil _ _

theorem describeLast_concat (ts : List TypeExpr) (t : TypeExpr) (d : Option Text) :
    describeLast (ts ++ [t]) d = ts.map (⟨·, none⟩) ++ [⟨t, d⟩] := by
  induction ts with
  | nil => rfl
  | cons u us ih =>
    obtain ⟨v, vs, hvs⟩ := List.exists_cons_of_ne_nil (List.append_ne_nil_of_right_ne_nil us
      (List.cons_ne_nil t []))
    rw [hvs] at ih
    rw [List.cons_append, hvs, describeLast, ih]
    · rfl
    · exact nofun

/-- A return tag yields at least one value, and only the last has a description. -/
theorem exists_of_returnValues (h : returnValues body variants = .ok values) :
    ∃ front last, values = front ++ [last] ∧ last.description ≠ some [] := by
  rw [returnValues] at h
  split at h
  · split at h
    · cases h
    · cases h
      exact ⟨[], _, rfl, description?_ne _⟩
  · cases hlist : typeList body with
    | error fault =>
      rw [hlist] at h
      cases h
    | ok p =>
      obtain ⟨ts, rest⟩ := p
      have hts : ts = ts.dropLast ++ [ts.getLast (typeList_ne_nil hlist)] :=
        (List.dropLast_append_getLast _).symm
      rw [hlist] at h
      cases h
      rw [hts, describeLast_concat]
      exact ⟨_, _, rfl, description?_ne _⟩

end Tag

/-! ### Segments -/

def Member.continued (prose : List Text) (m : Member) : Member :=
  { m with description := Prose.joined m.description prose }

def ReturnValue.continued (prose : List Text) (r : ReturnValue) : ReturnValue :=
  { r with description := Prose.joined r.description prose }

def Member.appendAll (prose : List Text) (m : Member) : Member :=
  prose.foldl (fun m p => m.appendProse p) m

def ReturnValue.appendAll (prose : List Text) (r : ReturnValue) : ReturnValue :=
  prose.foldl (fun r p => r.appendProse p) r

theorem Member.appendAll_eq {m : Member} (h : m.description ≠ some []) (prose : List Text) :
    m.appendAll prose = m.continued prose := by
  have hfold : m.appendAll prose = { m with description := prose.foldl Prose.append m.description } := by
    refine List.foldl_hom (fun d => { m with description := d }) fun d p => ?_
    rfl
  rw [hfold, Prose.foldl_append h, Member.continued]

theorem ReturnValue.appendAll_eq {r : ReturnValue} (h : r.description ≠ some []) (prose : List Text) :
    r.appendAll prose = r.continued prose := by
  have hfold : r.appendAll prose = { r with description := prose.foldl Prose.append r.description } := by
    refine List.foldl_hom (fun d => { r with description := d }) fun d p => ?_
    rfl
  rw [hfold, Prose.foldl_append h, ReturnValue.continued]

structure Statement where
  params : List Member := []
  returns : List ReturnValue := []
  note : Option Text := none
  deprecated : Option Text := none
  generics : List Text := []
  hidden : Bool := false
  /-- What the tag lacks; it states nothing else then. -/
  fault : Option TagFault := none

namespace Segment

variable (s : Segment)

def prose : List Text :=
  Block.prose s.lines

/-- The type that the variants right behind the tag amount to. -/
def variants : Option TypeExpr :=
  Tag.variantUnion? s.lines

/-- What a segment states, by itself. The prose behind a return tag belongs to its last value. -/
def statement : Statement :=
  match s.directive with
  | .param =>
    match Tag.member s.body s.variants with
    | .ok m => { params := [m.continued s.prose] }
    | .error fault => { fault := some fault }
  | .returns =>
    match Tag.returnValues s.body s.variants with
    | .ok values => { returns := values.modifyLast (ReturnValue.continued s.prose) }
    | .error fault => { fault := some fault }
  | .generic =>
    match Tag.genericNames s.body with
    | [] => { fault := some .missingGenericName }
    | names => { generics := names }
  | .hidden => { hidden := true }
  | .deprecated =>
    { deprecated := some ((Prose.joined (Tag.description? s.body) s.prose).getD []) }
  | .note => { note := some (Prose.noteText (Tag.description? s.body) s.prose) }
  | .field | .record | .typeAlias | .other _ => {}

/-- The report on a tag that lacks something, at the line of the tag. -/
def report? (file : Text) : Option Diagnostic :=
  s.statement.fault.map (.malformedTag ⟨file, s.line⟩ s.directive)

end Segment

namespace FunctionDoc

/-- The function that the front of a block, its segments and a signature document, and the faults found in
them. -/
def ofSegments (front : Block) (segments : List Segment) (signature : Signature) (location : Location) :
    FunctionDoc × List Diagnostic :=
  let statements := segments.map Segment.statement
  let documented := statements.flatMap (·.params)
  let name := Signature.lastPart signature.declaredName
  let written := !(front.isEmpty && segments.isEmpty)
  let mismatches :=
    if written then Signature.mismatches (documented.map (·.name)) signature.params else []
  let doc := {
    name
    declaredName := signature.declaredName
    params := if documented.isEmpty then undocumentedParams signature.params else documented
    returns := statements.flatMap (·.returns)
    description := ((Block.prose front).foldl Paragraphs.push .empty).text
    note := (statements.filterMap (·.note)).getLast?
    deprecated := (statements.filterMap (·.deprecated)).getLast?
    generics := statements.flatMap (·.generics)
    visibility := visibilityOf (statements.any (·.hidden)) written signature name
    location }
  (doc, segments.filterMap (·.report? location.file) ++
    mismatches.map (.signatureMismatch location name))

end FunctionDoc

/-! ### Reading -/

theorem Block.takeWhile_front {starts : Directive → Bool} {p : DocLine → Bool} {block : Block}
    (h : ∀ l, p l = true → opens starts l = false) : (front starts block).takeWhile p = block.takeWhile p := by
  have htest : (fun l => decide (p l = true ∧ (!opens starts l) = true)) = p := by
    funext l
    cases hp : p l with
    | false => simp
    | true => simp [h l hp]
  rw [front, List.takeWhile_takeWhile, htest]

/-- No tag stands between a tag and the variants right behind it. -/
theorem Tag.variantUnion?_front (block : Block) :
    variantUnion? (Block.front Directive.tags block) = variantUnion? block := by
  rw [variantUnion?, variantUnion?, Block.takeWhile_front]
  rintro ⟨content, n⟩ hvariant
  cases content with
  | variant text => rfl
  | _ => cases hvariant

theorem modify_length_concat {α : Type} (f : α → α) (as : List α) (a : α) :
    (as ++ [a]).modify as.length f = as ++ [f a] := by
  induction as with
  | nil => rfl
  | cons b as ih => rw [List.cons_append, List.length_cons, List.modify_succ_cons, ih, List.cons_append]

namespace FunctionDraft

variable {d : FunctionDraft} {file : Text}

/-- Lines of prose change one description, since none of them changes where prose belongs. -/
theorem foldl_addProse (prose : List Text) (d : FunctionDraft) :
    prose.foldl addProse d = match d.target with
      | .description => { d with description := prose.foldl Paragraphs.push d.description }
      | .member i => { d with params := d.params.modify i (Member.appendAll prose) }
      | .returnValue i => { d with returns := d.returns.modify i (ReturnValue.appendAll prose) }
      | .note => { d with note := prose.foldl Prose.appendLine d.note }
      | .deprecated => { d with deprecated := prose.foldl Prose.append d.deprecated }
      | .variant _ | .nowhere => d := by
  induction prose generalizing d with
  | nil =>
    cases htarget : d.target with
    | member i =>
      have hid : Member.appendAll [] = id := rfl
      simp only [List.foldl_nil, hid, List.modify_id, ← htarget]
    | returnValue i =>
      have hid : ReturnValue.appendAll [] = id := rfl
      simp only [List.foldl_nil, hid, List.modify_id, ← htarget]
    | _ => simp only [List.foldl_nil, ← htarget]
  | cons p prose ih =>
    rw [List.foldl_cons, ih]
    obtain ⟨description, params, returns, note, deprecated, generics, hidden, target, diagnostics⟩ := d
    cases target with
    | member i =>
      simp only [addProse, List.modify_modify_eq]
      rfl
    | returnValue i =>
      simp only [addProse, List.modify_modify_eq]
      rfl
    | _ => simp only [addProse, List.foldl_cons]

/-- A draft that goes on with what some segments state. -/
def state (file : Text) (d : FunctionDraft) (segments : List Segment) (target : ProseTarget) :
    FunctionDraft :=
  let statements := segments.map Segment.statement
  { d with
    params := d.params ++ statements.flatMap (·.params)
    returns := d.returns ++ statements.flatMap (·.returns)
    note := (statements.filterMap (·.note)).getLast?.or d.note
    deprecated := (statements.filterMap (·.deprecated)).getLast?.or d.deprecated
    generics := d.generics ++ statements.flatMap (·.generics)
    hidden := d.hidden || statements.any (·.hidden)
    target
    diagnostics := d.diagnostics ++ segments.filterMap (·.report? file) }

theorem state_nil (file : Text) (d : FunctionDraft) : d.state file [] d.target = d := by
  simp [state]

theorem getLast?_filterMap_cons {α β : Type} (f : α → Option β) (a : α) (as : List α) (o : Option β) :
    ((a :: as).filterMap f).getLast?.or o = (as.filterMap f).getLast?.or ((f a).or o) := by
  cases hfa : f a with
  | none => rw [List.filterMap_cons_none hfa, Option.none_or]
  | some b =>
    rw [List.filterMap_cons_some hfa, List.getLast?_cons]
    cases (as.filterMap f).getLast? <;> rfl

theorem state_cons (d : FunctionDraft) (s : Segment) (segments : List Segment) (target target' : ProseTarget) :
    (d.state file [s] target).state file segments target' = d.state file (s :: segments) target' := by
  simp only [state, List.map_cons, List.map_nil, List.flatMap_cons, List.flatMap_nil, List.append_nil,
    List.append_assoc, List.any_cons, List.any_nil, Bool.or_false, Bool.or_assoc, ← List.filterMap_append,
    List.singleton_append, getLast?_filterMap_cons, List.filterMap_nil, List.getLast?_nil, Option.none_or]

/-- A tag and the prose behind it add to a draft what the segment states. -/
theorem foldl_addTag (file : Text) (d : FunctionDraft) (s : Segment) :
    ∃ target, s.prose.foldl addProse (d.addTag ⟨file, s.line⟩ s.directive s.body s.variants) =
      d.state file [s] target := by
  rw [foldl_addProse]
  cases hdirective : s.directive with
  | param =>
    cases hm : Tag.member s.body s.variants with
    | error fault =>
      refine ⟨.nowhere, ?_⟩
      simp [addTag, report, hm, state, Segment.statement, Segment.report?, hdirective]
    | ok m =>
      refine ⟨.member d.params.length, ?_⟩
      have hcontinued := m.appendAll_eq (Tag.description_of_member hm) s.prose
      simp [addTag, hm, state, Segment.statement, Segment.report?, hdirective, modify_length_concat, hcontinued]
  | returns =>
    cases hvalues : Tag.returnValues s.body s.variants with
    | error fault =>
      refine ⟨.nowhere, ?_⟩
      simp [addTag, report, hvalues, state, Segment.statement, Segment.report?, hdirective]
    | ok values =>
      obtain ⟨front, last, rfl, hlast⟩ := Tag.exists_of_returnValues hvalues
      have hcontinued := last.appendAll_eq hlast s.prose
      refine ⟨.returnValue (d.returns ++ front).length, ?_⟩
      have hmodify := modify_length_concat (ReturnValue.appendAll s.prose) (d.returns ++ front) last
      rw [hcontinued, List.append_assoc, List.append_assoc, List.length_append] at hmodify
      simp [addTag, hvalues, state, Segment.statement, Segment.report?, hdirective, hmodify,
        List.modifyLast_concat]
  | generic =>
    refine ⟨.nowhere, ?_⟩
    cases hnames : Tag.genericNames s.body with
    | nil => simp [addTag, report, hnames, state, Segment.statement, Segment.report?, hdirective]
    | cons n ns => simp [addTag, hnames, state, Segment.statement, Segment.report?, hdirective]
  | deprecated =>
    refine ⟨.deprecated, ?_⟩
    have hprose := Prose.foldl_append_getD (Tag.description?_ne s.body) s.prose
    simp [addTag, hprose, state, Segment.statement, Segment.report?, hdirective]
  | note =>
    refine ⟨.note, ?_⟩
    have hprose := Prose.foldl_appendLine (Tag.description? s.body) s.prose
    simp [addTag, hprose, state, Segment.statement, Segment.report?, hdirective]
  | _ =>
    refine ⟨.nowhere, ?_⟩
    simp [addTag, state, Segment.statement, Segment.report?, hdirective]

/-- Reading adds what the segments state to what the front describes. -/
theorem read_eq (file : Text) (d : FunctionDraft) (block : Block) :
    ∃ target, d.read file block =
      ((Block.front Directive.tags block).prose.foldl addProse d).state file
        (Block.segments Directive.tags block) target := by
  induction block generalizing d with
  | nil => exact ⟨d.target, (state_nil file d).symm⟩
  | cons l rest ih =>
    obtain ⟨content, n⟩ := l
    cases content with
    | prose text => exact ih (d.addProse text)
    | variant text => exact ih d
    | tag directive body =>
      let s : Segment := ⟨directive, body, n, Block.front Directive.tags rest⟩
      have hsegments : Block.segments Directive.tags (⟨.tag directive body, n⟩ :: rest) =
          s :: Block.segments Directive.tags rest := Block.segments_cons_tag rfl
      have hvariants : s.variants = Tag.variantUnion? rest := Tag.variantUnion?_front rest
      obtain ⟨between, hsegment⟩ := foldl_addTag file d s
      obtain ⟨target, hrest⟩ := ih (d.addTag ⟨file, n⟩ directive body s.variants)
      have hbehind : (Block.front Directive.tags rest).prose.foldl addProse
          (d.addTag ⟨file, n⟩ directive body s.variants) = d.state file [s] between := hsegment
      refine ⟨target, ?_⟩
      rw [read, ← hvariants, hrest, hbehind, state_cons, hsegments, Block.front_cons_of_opens rfl]
      rfl

end FunctionDraft

theorem Block.isEmpty_eq (starts : Directive → Bool) (block : Block) :
    ((front starts block).isEmpty && (segments starts block).isEmpty) = block.isEmpty := by
  have hwhole := (isCut starts block).whole
  cases hfront : front starts block with
  | cons l ls => rw [hwhole, hfront]; rfl
  | nil =>
    cases hsegments : segments starts block with
    | cons s ss => rw [hwhole, hfront, hsegments]; rfl
    | nil => rw [hwhole, hfront, hsegments]; rfl

/-- A block, cut in front of each of its tags, documents what its segments state one by one: a parameter, some
return values, a deprecation or a note with the prose up to the next tag, type parameters, or a fault at the
line of the tag. The description is the prose in front of the first tag. -/
theorem FunctionDoc.ofBlock_segments (block : Block) (signature : Signature) (location : Location) :
    Block.IsCut Directive.tags block (Block.front Directive.tags block)
        (Block.segments Directive.tags block) ∧
      ofBlock block signature location = ofSegments (Block.front Directive.tags block)
        (Block.segments Directive.tags block) signature location := by
  obtain ⟨target, hread⟩ := FunctionDraft.read_eq location.file .empty block
  refine ⟨Block.isCut Directive.tags block, ?_⟩
  rw [ofBlock, hread, FunctionDraft.foldl_addProse]
  simp [FunctionDraft.empty, FunctionDraft.state, ofSegments, Block.isEmpty_eq]

end LuaDocs
