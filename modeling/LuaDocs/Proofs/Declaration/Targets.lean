import LuaDocs.Declaration.Type
import LuaDocs.Proofs.Declaration.Segments
import Mathlib.Data.Nat.PSub

/-!
# Where prose goes

A draft knows the entry that the next prose belongs to by an index only. Lists grow while a block is read, and
types are opened, finished and dropped; the index must be that of an entry all the time. `read?` reads with an
eye on this: it looks up the entry that it changes, takes the predecessor of a length only where there is one,
and fails otherwise. It never fails, and the outcome is that of `read`, because every tag and every variant
that is used sets the index anew, for the lists at that moment, and prose leaves the length of a list as it is.
-/

namespace LuaDocs

/-! ### Entries by index -/

section

variable {α : Type}

def modify? (as : List α) (i : ℕ) (f : α → α) : Option (List α) :=
  as[i]?.map fun a => as.set i (f a)

theorem modify?_eq {as : List α} {i : ℕ} (h : i < as.length) (f : α → α) :
    modify? as i f = some (as.modify i f) := by
  rw [modify?, List.modify_eq_set_getElem?, List.getElem?_eq_getElem h]
  rfl

def lastIndex? (as : List α) : Option ℕ :=
  as.length.ppred

theorem lt_length_modify {as : List α} {i : ℕ} (h : i < as.length) (f : α → α) :
    i < (as.modify i f).length := by
  rwa [List.length_modify]

theorem lt_length_concat (as : List α) (a : α) : as.length < (as ++ [a]).length := by
  rw [List.length_append, List.length_singleton]
  exact Nat.lt_succ_self _

theorem lastIndex?_concat (as : List α) (a : α) : lastIndex? (as ++ [a]) = some as.length := by
  rw [lastIndex?, List.length_append]
  rfl

theorem lastIndex?_eq {as : List α} (h : as ≠ []) : lastIndex? as = some (as.length - 1) := by
  obtain ⟨front, last, rfl⟩ := (List.eq_nil_or_concat' as).resolve_left h
  rw [lastIndex?_concat, List.length_append]
  rfl

end

namespace Block

variable {δ : Type} {step : δ → DocLine → Block → δ} {step? : δ → DocLine → Block → Option δ}
  {P : δ → Prop} {d : δ}

/-- The lines from an index on, which is not behind the end. -/
def from? (block : Block) (i : ℕ) : Option Block :=
  if i ≤ block.length then some (block.drop i) else none

/-- What the lines of a block make of a draft; a step has the lines behind its own before it. -/
def fold (step : δ → DocLine → Block → δ) (d : δ) : Block → δ
  | [] => d
  | l :: rest => fold step (step d l rest) rest

/-- The drafts in front of the lines of a block, and the last draft. -/
def drafts (step : δ → DocLine → Block → δ) (d : δ) : Block → List δ
  | [] => [d]
  | l :: rest => d :: drafts step (step d l rest) rest

/-- What the `lines` of a block from the index `i` on make of a draft, with steps that may fail. The lines
behind a line are taken from the block, by their index. -/
def foldFrom? (step? : δ → DocLine → Block → Option δ) (block : Block) (i : ℕ) (d : δ) :
    Block → Option δ
  | [] => some d
  | l :: lines => do
    let rest ← block.from? (i + 1)
    let d ← step? d l rest
    foldFrom? step? block (i + 1) d lines

theorem getLast?_drafts (d : δ) (block : Block) :
    (drafts step d block).getLast? = some (fold step d block) := by
  induction block generalizing d with
  | nil => rfl
  | cons l rest ih => rw [drafts, List.getLast?_cons, ih, Option.getD_some, fold]

theorem forall_mem_drafts (hstep : ∀ d l rest, P d → P (step d l rest)) (hd : P d) (block : Block) :
    ∀ d' ∈ drafts step d block, P d' := by
  induction block generalizing d with
  | nil => exact List.forall_mem_singleton.2 hd
  | cons l rest ih => exact List.forall_mem_cons.2 ⟨hd, ih (hstep d l rest hd)⟩

/-- Steps that do not fail as long as a property holds, and keep it, never fail. -/
theorem foldFrom?_eq (hstep? : ∀ d l rest, P d → step? d l rest = some (step d l rest))
    (hstep : ∀ d l rest, P d → P (step d l rest)) {block lines : Block} {i : ℕ}
    (hlines : block.drop i = lines) (hd : P d) :
    foldFrom? step? block i d lines = some (fold step d lines) := by
  induction lines generalizing i d with
  | nil => rfl
  | cons l rest ih =>
    -- The block has a line at the index `i`, so the index behind it is at most the length.
    have hrest : block.drop (i + 1) = rest := by
      rw [← List.drop_drop, hlines]
      rfl
    have hi : i + 1 ≤ block.length := by
      have hlength := congrArg List.length hlines
      rw [List.length_drop, List.length_cons] at hlength
      omega
    rw [foldFrom?, from?, if_pos hi, hrest, Option.bind_eq_bind, Option.bind_some, hstep? d l rest hd,
      Option.bind_eq_bind, Option.bind_some, ih hrest (hstep d l rest hd), fold]

end Block

/-! ### Return tags -/

namespace Tag

def describeLast? (ts : List TypeExpr) (description : Option Text) : Option (List ReturnValue) :=
  (lastIndex? ts).map fun last =>
    ts.mapIdx fun i t => ⟨t, if i = last then description else none⟩

theorem describeLast?_eq {ts : List TypeExpr} (h : ts ≠ []) (description : Option Text) :
    describeLast? ts description = some (describeLast ts description) := by
  obtain ⟨front, last, rfl⟩ := (List.eq_nil_or_concat' ts).resolve_left h
  have hfront : front.mapIdx (fun i t => (⟨t, if i = front.length then description else none⟩ : ReturnValue)) =
      front.map (⟨·, none⟩) := by
    refine List.ext_getElem (by simp) fun i hi _ => ?_
    rw [List.length_mapIdx] at hi
    rw [List.getElem_mapIdx, List.getElem_map, if_neg hi.ne]
  rw [describeLast?, lastIndex?_concat, Option.map_some, List.mapIdx_concat, hfront, if_pos rfl,
    describeLast_concat]

def returnValues? (body : Text) (variants : Option TypeExpr) :
    Option (Except TagFault (List ReturnValue)) :=
  match type? body with
  | (none, _) => some (returnValues body variants)
  | (some _, _) =>
    match typeList body with
    | .ok (ts, rest) => (describeLast? ts (description? rest)).map .ok
    | .error fault => some (.error fault)

theorem returnValues?_eq (body : Text) (variants : Option TypeExpr) :
    returnValues? body variants = some (returnValues body variants) := by
  rw [returnValues?]
  split
  · rfl
  · next t rest htype =>
    rw [returnValues, htype]
    cases hlist : typeList body with
    | error fault => rfl
    | ok p =>
      obtain ⟨ts, rest⟩ := p
      dsimp only
      rw [describeLast?_eq (typeList_ne_nil hlist)]
      rfl

theorem ne_nil_of_returnValues {body : Text} {variants : Option TypeExpr} {values : List ReturnValue}
    (h : returnValues body variants = .ok values) : values ≠ [] := by
  obtain ⟨front, last, rfl, -⟩ := exists_of_returnValues h
  exact List.append_ne_nil_of_right_ne_nil front (List.cons_ne_nil last [])

end Tag

/-! ### Functions -/

namespace FunctionDraft

variable {d : FunctionDraft}

/-- The next prose belongs to an entry that is there, if it belongs to an entry. -/
def InRange (d : FunctionDraft) : Prop :=
  match d.target with
  | .member i => i < d.params.length
  | .returnValue i => i < d.returns.length
  | _ => True

/-- A draft with one line taken into account; `rest` are the lines behind it. -/
def readLine (file : Text) (d : FunctionDraft) (l : DocLine) (rest : Block) : FunctionDraft :=
  match l.content with
  | .prose text => d.addProse text
  | .variant _ => d
  | .tag directive body => d.addTag ⟨file, l.line⟩ directive body (Tag.variantUnion? rest)

theorem read_eq_fold (file : Text) (d : FunctionDraft) (block : Block) :
    d.read file block = block.fold (readLine file) d := by
  induction block generalizing d with
  | nil => rfl
  | cons l rest ih => exact ih (d.readLine file l rest)

def drafts (file : Text) (block : Block) : List FunctionDraft :=
  Block.drafts (readLine file) .empty block

def addProse? (d : FunctionDraft) (text : Text) : Option FunctionDraft :=
  match d.target with
  | .member i =>
    (modify? d.params i (Member.appendProse text)).map fun params => { d with params }
  | .returnValue i =>
    (modify? d.returns i (ReturnValue.appendProse text)).map fun returns => { d with returns }
  | _ => some (d.addProse text)

def addTag? (d : FunctionDraft) (here : Location) (directive : Directive) (body : Text)
    (variants : Option TypeExpr) : Option FunctionDraft :=
  match directive with
  | .param =>
    match Tag.member body variants with
    | .ok m =>
      let params := d.params ++ [m]
      (lastIndex? params).map fun i => { d with params, target := .member i }
    | .error fault => some (d.report here directive fault)
  | .returns =>
    (Tag.returnValues? body variants).bind fun
      | .ok values =>
        let returns := d.returns ++ values
        (lastIndex? returns).map fun i => { d with returns, target := .returnValue i }
      | .error fault => some (d.report here directive fault)
  | _ => some (d.addTag here directive body variants)

def readLine? (file : Text) (d : FunctionDraft) (l : DocLine) (rest : Block) : Option FunctionDraft :=
  match l.content with
  | .prose text => d.addProse? text
  | .variant _ => some d
  | .tag directive body => d.addTag? ⟨file, l.line⟩ directive body (Tag.variantUnion? rest)

/-- What a block states of a function, read with a look at every entry. -/
def read? (file : Text) (block : Block) : Option FunctionDraft :=
  block.foldFrom? (readLine? file) 0 .empty block

theorem inRange_empty : InRange .empty :=
  trivial

theorem InRange.addProse (h : d.InRange) (text : Text) : (d.addProse text).InRange := by
  obtain ⟨description, params, returns, note, deprecated, generics, hidden, target, diagnostics⟩ := d
  cases target with
  | member i => exact lt_length_modify h _
  | returnValue i => exact lt_length_modify h _
  | _ => exact trivial

/-- A tag says where the prose behind it belongs, whatever was said before. -/
theorem inRange_addTag (d : FunctionDraft) (here : Location) (directive : Directive) (body : Text)
    (variants : Option TypeExpr) : (d.addTag here directive body variants).InRange := by
  cases directive with
  | param =>
    rw [addTag]
    cases Tag.member body variants with
    | error fault => exact trivial
    | ok m => exact lt_length_concat d.params m
  | returns =>
    rw [addTag]
    cases hvalues : Tag.returnValues body variants with
    | error fault => exact trivial
    | ok values =>
      have hreturns := List.append_ne_nil_of_right_ne_nil d.returns (Tag.ne_nil_of_returnValues hvalues)
      exact Nat.pred_lt (List.length_eq_zero_iff.not.2 hreturns)
  | generic =>
    rw [addTag]
    cases Tag.genericNames body <;> exact trivial
  | _ => exact trivial

theorem InRange.readLine (file : Text) (h : d.InRange) (l : DocLine) (rest : Block) :
    (d.readLine file l rest).InRange := by
  rw [FunctionDraft.readLine]
  cases l.content with
  | prose text => exact h.addProse text
  | variant text => exact h
  | tag directive body => exact inRange_addTag d _ directive body _

theorem addProse?_eq (h : d.InRange) (text : Text) : d.addProse? text = some (d.addProse text) := by
  obtain ⟨description, params, returns, note, deprecated, generics, hidden, target, diagnostics⟩ := d
  cases target with
  | member i => exact congrArg (Option.map _) (modify?_eq h _)
  | returnValue i => exact congrArg (Option.map _) (modify?_eq h _)
  | _ => rfl

theorem addTag?_eq (d : FunctionDraft) (here : Location) (directive : Directive) (body : Text)
    (variants : Option TypeExpr) :
    d.addTag? here directive body variants = some (d.addTag here directive body variants) := by
  cases directive with
  | param =>
    rw [addTag?, addTag]
    cases Tag.member body variants with
    | error fault => rfl
    | ok m =>
      dsimp only
      rw [lastIndex?_concat, Option.map_some]
  | returns =>
    rw [addTag?, addTag, Tag.returnValues?_eq, Option.bind_some]
    cases hvalues : Tag.returnValues body variants with
    | error fault => rfl
    | ok values =>
      have hreturns := List.append_ne_nil_of_right_ne_nil d.returns (Tag.ne_nil_of_returnValues hvalues)
      dsimp only
      rw [lastIndex?_eq hreturns, Option.map_some]
  | _ => rfl

theorem readLine?_eq (file : Text) (h : d.InRange) (l : DocLine) (rest : Block) :
    d.readLine? file l rest = some (d.readLine file l rest) := by
  rw [readLine?, FunctionDraft.readLine]
  cases l.content with
  | prose text => exact addProse?_eq h text
  | variant text => rfl
  | tag directive body => exact addTag?_eq d _ directive body _

theorem read?_eq (file : Text) (block : Block) : read? file block = some (empty.read file block) := by
  rw [read_eq_fold]
  exact Block.foldFrom?_eq (fun _ l rest h => readLine?_eq file h l rest)
    (fun _ l rest h => h.readLine file l rest) rfl inRange_empty

end FunctionDraft

/-! ### Types -/

namespace TypeDraft

def fields (t : TypeDraft) : List Member :=
  match t.kind with
  | .record _ fields => fields
  | .typeAlias _ _ => []

def variants (t : TypeDraft) : List (TypeExpr × Option Text) :=
  match t.kind with
  | .record _ _ => []
  | .typeAlias _ variants => variants

def appendToField? (t : TypeDraft) (i : ℕ) (text : Text) : Option TypeDraft :=
  match t.kind with
  | .record parents fields =>
    (modify? fields i (Member.appendProse text)).map fun fields =>
      { t with kind := .record parents fields }
  | .typeAlias _ _ => none

def appendToVariant? (t : TypeDraft) (i : ℕ) (text : Text) : Option TypeDraft :=
  match t.kind with
  | .record _ _ => none
  | .typeAlias type variants =>
    (modify? variants i fun (v, s) => (v, Prose.append s text)).map fun variants =>
      { t with kind := .typeAlias type variants }

variable {t : TypeDraft} {i : ℕ}

theorem appendToField?_eq (h : i < t.fields.length) (text : Text) :
    t.appendToField? i text = some (t.appendToField i text) := by
  obtain ⟨name, generics, kind, description, location⟩ := t
  cases kind with
  | record parents fields => exact congrArg (Option.map _) (modify?_eq h _)
  | typeAlias type variants => cases h

theorem appendToVariant?_eq (h : i < t.variants.length) (text : Text) :
    t.appendToVariant? i text = some (t.appendToVariant i text) := by
  obtain ⟨name, generics, kind, description, location⟩ := t
  cases kind with
  | record parents fields => cases h
  | typeAlias type variants => exact congrArg (Option.map _) (modify?_eq h _)

theorem lt_length_appendToField (h : i < t.fields.length) (text : Text) :
    i < (t.appendToField i text).fields.length := by
  obtain ⟨name, generics, kind, description, location⟩ := t
  cases kind with
  | record parents fields => exact lt_length_modify h _
  | typeAlias type variants => cases h

theorem lt_length_appendToVariant (h : i < t.variants.length) (text : Text) :
    i < (t.appendToVariant i text).variants.length := by
  obtain ⟨name, generics, kind, description, location⟩ := t
  cases kind with
  | record parents fields => cases h
  | typeAlias type variants => exact lt_length_modify h _

end TypeDraft

namespace TypesDraft

variable {d : TypesDraft}

/-- While a type is open, the next prose belongs to an entry of it that is there, if it belongs to an
entry. -/
def InRange (d : TypesDraft) : Prop :=
  ∀ t ∈ d.current, match d.target with
    | .member i => i < t.fields.length
    | .variant i => i < t.variants.length
    | _ => True

/-- A draft with one line taken into account; `rest` are the lines behind it. -/
def readLine (file : Text) (d : TypesDraft) (l : DocLine) (rest : Block) : TypesDraft :=
  match l.content with
  | .prose text => d.addProse text
  | .variant text => d.addVariant text
  | .tag directive body => d.addTag ⟨file, l.line⟩ directive body (Tag.variantUnion? rest)

theorem read_eq_fold (file : Text) (d : TypesDraft) (block : Block) :
    d.read file block = block.fold (readLine file) d := by
  induction block generalizing d with
  | nil => rfl
  | cons l rest ih => exact ih (d.readLine file l rest)

/-- The drafts that reading a block goes through. -/
def drafts (file : Text) (block : Block) : List TypesDraft :=
  Block.drafts (readLine file) .empty block

def addProse? (d : TypesDraft) (text : Text) : Option TypesDraft :=
  match d.target, d.current with
  | .member i, some t => (t.appendToField? i text).map fun t => { d with current := some t }
  | .variant i, some t => (t.appendToVariant? i text).map fun t => { d with current := some t }
  | _, _ => some (d.addProse text)

def addVariant? (d : TypesDraft) (text : Text) : Option TypesDraft :=
  match d.current with
  | some t =>
    match t.kind, TypeExpr.leading? text with
    | .typeAlias type variants, some (v, r) =>
      let variants := variants ++ [(v, Tag.description? r.1)]
      (lastIndex? variants).map fun i =>
        { d with current := some { t with kind := .typeAlias type variants }, target := .variant i }
    | _, _ => some d
  | none => some d

def addField? (d : TypesDraft) (here : Location) (body : Text) (variants : Option TypeExpr) :
    Option TypesDraft :=
  match d.current with
  | some t =>
    match t.kind with
    | .record parents fields =>
      match Tag.member (Tag.dropScope body) variants with
      | .ok m =>
        let fields := fields ++ [m]
        (lastIndex? fields).map fun i =>
          { d with current := some { t with kind := .record parents fields }, target := .member i }
      | .error fault => some (d.report here .field fault)
    | .typeAlias _ _ => some { d with target := .nowhere }
  | none => some { d with target := .nowhere }

/-- `addTag` with a look at the last field. Other tags look at no entry. -/
def addTag? (d : TypesDraft) (here : Location) (directive : Directive) (body : Text)
    (variants : Option TypeExpr) : Option TypesDraft :=
  match directive with
  | .field => d.addField? here body variants
  | _ => some (d.addTag here directive body variants)

def readLine? (file : Text) (d : TypesDraft) (l : DocLine) (rest : Block) : Option TypesDraft :=
  match l.content with
  | .prose text => d.addProse? text
  | .variant text => d.addVariant? text
  | .tag directive body => d.addTag? ⟨file, l.line⟩ directive body (Tag.variantUnion? rest)

/-- The types of a block, read with a look at every entry. -/
def read? (file : Text) (block : Block) : Option TypesDraft :=
  block.foldFrom? (readLine? file) 0 .empty block

theorem inRange_of_current (h : d.current = none) : d.InRange := by
  intro t ht
  rw [h] at ht
  cases ht

theorem inRange_of_target (hmember : ∀ i, d.target ≠ .member i) (hvariant : ∀ i, d.target ≠ .variant i) :
    d.InRange := by
  intro t _
  cases htarget : d.target with
  | member i => exact absurd htarget (hmember i)
  | variant i => exact absurd htarget (hvariant i)
  | _ => exact trivial

theorem InRange.addProse (h : d.InRange) (text : Text) : (d.addProse text).InRange := by
  obtain ⟨finished, current, leading, target, diagnostics⟩ := d
  cases current with
  | none =>
    refine inRange_of_current ?_
    cases target <;> rfl
  | some t =>
    have ht := h t rfl
    intro u hu
    cases target with
    | member i =>
      cases hu
      exact TypeDraft.lt_length_appendToField ht text
    | variant i =>
      cases hu
      exact TypeDraft.lt_length_appendToVariant ht text
    | _ => exact trivial

theorem InRange.addVariant (h : d.InRange) (text : Text) : (d.addVariant text).InRange := by
  rw [TypesDraft.addVariant]
  split
  · split
    · next type variants v r _ _ =>
      intro u hu
      cases hu
      exact lt_length_concat variants (v, Tag.description? r.1)
    · exact h
  · exact h

theorem inRange_addField (d : TypesDraft) (here : Location) (body : Text) (variants : Option TypeExpr) :
    (d.addField here body variants).InRange := by
  rw [addField]
  split
  · split
    · next parents fields _ =>
      split
      · next m _ =>
        intro u hu
        cases hu
        exact lt_length_concat fields m
      · exact inRange_of_target nofun nofun
    · exact inRange_of_target nofun nofun
  · exact inRange_of_target nofun nofun

/-- A tag says where the prose behind it belongs, whatever was said before. -/
theorem inRange_addTag (d : TypesDraft) (here : Location) (directive : Directive) (body : Text)
    (variants : Option TypeExpr) : (d.addTag here directive body variants).InRange := by
  cases directive with
  | record =>
    rw [addTag]
    cases Tag.classHead? body <;> exact inRange_of_target nofun nofun
  | typeAlias =>
    rw [addTag]
    cases Tag.aliasHead? body with
    | none => exact inRange_of_target nofun nofun
    | some head =>
      have hstart : (d.close.start here head.name [] (.typeAlias head.type [])).InRange :=
        inRange_of_target nofun nofun
      dsimp only
      cases head.description with
      | none => exact hstart
      | some text => exact hstart.addProse text
  | field => exact inRange_addField d here body variants
  | _ => exact inRange_of_target nofun nofun

theorem InRange.readLine (file : Text) (h : d.InRange) (l : DocLine) (rest : Block) :
    (d.readLine file l rest).InRange := by
  rw [TypesDraft.readLine]
  cases l.content with
  | prose text => exact h.addProse text
  | variant text => exact h.addVariant text
  | tag directive body => exact inRange_addTag d _ directive body _

theorem addProse?_eq (h : d.InRange) (text : Text) : d.addProse? text = some (d.addProse text) := by
  obtain ⟨finished, current, leading, target, diagnostics⟩ := d
  cases current with
  | none => cases target <;> rfl
  | some t =>
    have ht := h t rfl
    cases target with
    | member i => exact congrArg (Option.map _) (TypeDraft.appendToField?_eq ht text)
    | variant i => exact congrArg (Option.map _) (TypeDraft.appendToVariant?_eq ht text)
    | _ => rfl

theorem addVariant?_eq (d : TypesDraft) (text : Text) : d.addVariant? text = some (d.addVariant text) := by
  obtain ⟨finished, current, leading, target, diagnostics⟩ := d
  cases current with
  | none => rfl
  | some t =>
    obtain ⟨name, generics, kind, description, location⟩ := t
    cases kind with
    | record parents fields => rfl
    | typeAlias type variants =>
      cases hvariant : TypeExpr.leading? text with
      | none => simp only [addVariant?, addVariant, hvariant]
      | some p => simp only [addVariant?, addVariant, hvariant, lastIndex?_concat, Option.map_some]

theorem addField?_eq (d : TypesDraft) (here : Location) (body : Text) (variants : Option TypeExpr) :
    d.addField? here body variants = some (d.addField here body variants) := by
  obtain ⟨finished, current, leading, target, diagnostics⟩ := d
  cases current with
  | none => rfl
  | some t =>
    obtain ⟨name, generics, kind, description, location⟩ := t
    cases kind with
    | typeAlias type variants => rfl
    | record parents fields =>
      cases hm : Tag.member (Tag.dropScope body) variants with
      | error fault => simp only [addField?, addField, hm]
      | ok m => simp only [addField?, addField, hm, lastIndex?_concat, Option.map_some]

theorem readLine?_eq (file : Text) (h : d.InRange) (l : DocLine) (rest : Block) :
    d.readLine? file l rest = some (d.readLine file l rest) := by
  rw [readLine?, TypesDraft.readLine]
  cases l.content with
  | prose text => exact addProse?_eq h text
  | variant text => exact addVariant?_eq d text
  | tag directive body =>
    cases directive with
    | field => exact addField?_eq d _ body _
    | _ => rfl

theorem read?_eq (file : Text) (block : Block) : read? file block = some (empty.read file block) := by
  rw [read_eq_fold]
  exact Block.foldFrom?_eq (fun _ l rest h => readLine?_eq file h l rest)
    (fun _ l rest h => h.readLine file l rest) rfl (inRange_of_current rfl)

end TypesDraft

/-- In front of every line of a block, and behind the last, the index of the entry that prose belongs to is
that of a parameter or return value, or of a field or variant of the open type if one is open. So reading
never looks for an entry that is not there, nor for the last entry of an empty list; the signature of the
function has no part in it. -/
theorem Block.drafts_inRange (file : Text) (block : Block) :
    ((∀ d ∈ FunctionDraft.drafts file block, d.InRange) ∧
      (FunctionDraft.drafts file block).getLast? = some (FunctionDraft.empty.read file block) ∧
      FunctionDraft.read? file block = some (FunctionDraft.empty.read file block)) ∧
    (∀ d ∈ TypesDraft.drafts file block, d.InRange) ∧
      (TypesDraft.drafts file block).getLast? = some (TypesDraft.empty.read file block) ∧
      TypesDraft.read? file block = some (TypesDraft.empty.read file block) := by
  refine ⟨⟨?_, ?_, FunctionDraft.read?_eq file block⟩, ?_, ?_, TypesDraft.read?_eq file block⟩
  · exact forall_mem_drafts (fun _ l rest h => h.readLine file l rest) FunctionDraft.inRange_empty block
  · rw [FunctionDraft.drafts, getLast?_drafts, FunctionDraft.read_eq_fold]
  · exact forall_mem_drafts (fun _ l rest h => h.readLine file l rest) (TypesDraft.inRange_of_current rfl)
      block
  · rw [TypesDraft.drafts, getLast?_drafts, TypesDraft.read_eq_fold]

end LuaDocs
