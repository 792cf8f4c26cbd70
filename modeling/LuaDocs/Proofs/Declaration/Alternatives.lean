import LuaDocs.Proofs.Declaration.Sections
import LuaDocs.Proofs.Declaration.Untyped

/-!
# Two spellings of alternatives

The alternatives of a type stand on the line of a tag with bars between them, or on lines of their own behind a
tag that has no type. An alias collects such lines one by one, and any other tag asks for their union once; on
one line the alternatives are a union from the start. The declarations come out alike, whatever stands around
the tag.
-/

namespace LuaDocs

open Text Tag TypeExpr

/-! ### Alternatives -/

/-- Types that can be told apart with bars between them, on one line. -/
structure Alternatives (ts : List TypeExpr) : Prop where
  ne_nil : ts ≠ []
  canonical : ∀ t ∈ ts, Canonical t
  simple : ∀ t ∈ ts, t.isUnion = false
  closed : ∀ t ∈ ts.dropLast, t.hasResult = false
  oneLine : ∀ t ∈ ts, '\n' ∉ t.print

namespace Alternatives

variable {ts : List TypeExpr}

theorem pair {t u : TypeExpr} (ht : Canonical t) (hu : Canonical u) (hsimple : t.isUnion = false)
    (hsimple' : u.isUnion = false) (hclosed : t.hasResult = false) (hline : '\n' ∉ t.print)
    (hline' : '\n' ∉ u.print) : Alternatives [t, u] :=
  ⟨List.cons_ne_nil t [u], List.forall_mem_cons.2 ⟨ht, List.forall_mem_singleton.2 hu⟩,
    List.forall_mem_cons.2 ⟨hsimple, List.forall_mem_singleton.2 hsimple'⟩, List.forall_mem_singleton.2 hclosed,
    List.forall_mem_cons.2 ⟨hline, List.forall_mem_singleton.2 hline'⟩⟩

theorem canonical_type (h : Alternatives ts) : Canonical (ofAlternatives ts) := by
  obtain ⟨hne, hcanonical, hsimple, hclosed, -⟩ := h
  match ts, hne with
  | [t], _ => exact hcanonical t List.mem_cons_self
  | t :: u :: ts, _ => exact .union ⟨Nat.le_add_left 2 ts.length, hsimple, hclosed⟩ hcanonical

theorem print_type (h : Alternatives ts) : (ofAlternatives ts).print = join "|".toList (ts.map print) := by
  match ts, h.ne_nil with
  | [t], _ => exact (join_singleton t.print).symm
  | t :: u :: ts, _ => exact congrArg _ (printAll_eq_map (t :: u :: ts))

theorem oneLine_type (h : Alternatives ts) : '\n' ∉ (ofAlternatives ts).print := by
  rw [h.print_type]
  exact not_mem_join (by decide) (List.forall_mem_map.2 h.oneLine)

end Alternatives

/-! ### Lines -/

def variantLine (t : TypeExpr) : Text :=
  "---| ".toList ++ t.print

/-- A tag without a type, and lines with alternatives behind it. -/
def Directive.listed (directive : Directive) (front note : Text) (ts : List TypeExpr) (n : Nat) : Block :=
  Block.ofRun (directive.line (front ++ note) :: ts.map variantLine) n

def Directive.inline (directive : Directive) (front note : Text) (ts : List TypeExpr) (n : Nat) : Block :=
  Block.ofRun [directive.line (front ++ ' ' :: (join "|".toList (ts.map print) ++ note))] n

def DocLine.isVariant (l : DocLine) : Bool :=
  match l.content with
  | .variant _ => true
  | _ => false

def DocLine.variantType? (l : DocLine) : Option TypeExpr :=
  match l.content with
  | .variant text => (leading? text).map (·.1)
  | _ => none

namespace Block

variable {t : TypeExpr} {ts : List TypeExpr} {variants behind : Block}

theorem ofRun_variantLine (ht : Canonical t) (hfeed : '\n' ∉ t.print) (lines : List Text) (n : Nat) :
    ofRun (variantLine t :: lines) n = ⟨.variant t.print, n⟩ :: ofRun lines (n + 1) := by
  have hcontains : ('|' :: ' ' :: t.print).contains '\n' = false := by simpa using hfeed
  have htext : Comment.docText? (variantLine t) = some ('|' :: ' ' :: t.print) := by
    have hafter : after? "---".toList (skipBlanks (variantLine t)) = some ('|' :: ' ' :: t.print) :=
      after?_append "---".toList ('|' :: ' ' :: t.print)
    rw [Comment.docText?, hafter]
    simp only [hcontains, Bool.or_false]
    rfl
  have hclassify : LineContent.classify ('|' :: ' ' :: t.print) = .variant t.print := by
    have hvariant : LineContent.variant? ('|' :: ' ' :: t.print) = some (.variant (trim (' ' :: t.print))) := rfl
    rw [LineContent.classify, hcontains, if_neg Bool.false_ne_true, hvariant, trim_space, (solid_print ht).trim_eq]
    rfl
  simp [ofRun, htext, hclassify]

/-- Each of the alternatives has its line. -/
def Lists (variants : Block) (ts : List TypeExpr) : Prop :=
  List.Forall₂ (fun l t => l.content = .variant t.print) variants ts

theorem lists_ofRun (h : Alternatives ts) (n : Nat) : (ofRun (ts.map variantLine) n).Lists ts := by
  have hlists : ∀ {us : List TypeExpr}, (∀ t ∈ us, Canonical t) → (∀ t ∈ us, '\n' ∉ t.print) → ∀ n,
      (ofRun (us.map variantLine) n).Lists us := by
    intro us hus hfeed
    induction us with
    | nil => exact fun n => .nil
    | cons t us ih =>
      obtain ⟨ht, hus⟩ := List.forall_mem_cons.1 hus
      obtain ⟨hone, hfeed⟩ := List.forall_mem_cons.1 hfeed
      intro n
      rw [List.map_cons, ofRun_variantLine ht hone]
      exact .cons rfl (ih hus hfeed (n + 1))
  exact hlists h.canonical h.oneLine n

theorem Lists.isVariant (h : variants.Lists ts) : ∀ l ∈ variants, l.isVariant = true := by
  induction h with
  | nil => exact nofun
  | cons hl _ ih =>
    refine List.forall_mem_cons.2 ⟨?_, ih⟩
    rw [DocLine.isVariant, hl]

theorem opens_of_isVariant {starts : Directive → Bool} {l : DocLine} (h : l.isVariant = true) :
    opens starts l = false := by
  obtain ⟨content, n⟩ := l
  cases content with
  | variant text => rfl
  | _ => cases h

theorem opens_tags {starts : Directive → Bool} {l : DocLine} (h : opens starts l = true) :
    opens Directive.tags l = true := by
  obtain ⟨content, n⟩ := l
  cases content with
  | tag directive body => rfl
  | _ => cases h

theorem Lists.types (hv : variants.Lists ts) (h : ∀ t ∈ ts, Canonical t) :
    variants.filterMap DocLine.variantType? = ts := by
  induction hv with
  | nil => rfl
  | @cons l t _ _ hl _ ih =>
    obtain ⟨ht, hts⟩ := List.forall_mem_cons.1 h
    obtain ⟨_, hread⟩ := reads_leading?_whole ht
    have htype : l.variantType? = some t := by
      rw [DocLine.variantType?, hl]
      dsimp only
      rw [hread]
      rfl
    rw [List.filterMap_cons_some htype, ih hts]

theorem Lists.variantUnion?_append (hv : variants.Lists ts) (h : Alternatives ts)
    (hbehind : ∀ l ∈ behind.head?, l.isVariant = false) :
    variantUnion? (variants ++ behind) = some (ofAlternatives ts) := by
  have hunion (block : Block) : variantUnion? block =
      let types := (block.takeWhile DocLine.isVariant).filterMap DocLine.variantType?
      if types.isEmpty then none else some (ofAlternatives types) := rfl
  rw [hunion, takeWhile_append_of_head? hv.isVariant hbehind, hv.types h.canonical]
  exact if_neg (by simpa using h.ne_nil)

theorem Lists.continuing_prose (hv : variants.Lists ts) : (continuing variants).prose = [] := by
  refine List.filterMap_eq_nil_iff.2 fun l hl => ?_
  have hvariant := hv.isVariant l ((List.takeWhile_sublist _).mem hl)
  rw [DocLine.isVariant] at hvariant
  split at hvariant
  · next hcontent => rw [hcontent]
  · cases hvariant

theorem Lists.alternatives_eq (hv : variants.Lists ts) (h : ∀ t ∈ ts, Canonical t) :
    alternatives variants = ts.map (·, none) := by
  induction hv with
  | nil => rfl
  | @cons l t _ _ hl hv ih =>
    obtain ⟨ht, hts⟩ := List.forall_mem_cons.1 h
    obtain ⟨_, hread⟩ := reads_leading?_whole ht
    have halternative : l.alternative? = some (t, none) := by
      rw [DocLine.alternative?, hl]
      dsimp only
      rw [hread]
      rfl
    rw [alternatives, halternative, ih hts, Lists.continuing_prose hv]
    rfl
end Block

/-! ### Tags -/

namespace Directive

variable {directive : Directive} {front note : Text} {ts : List TypeExpr}

/-- What follows the keyword of a tag without a type: nothing or a text behind a blank, and then perhaps a
description, all of it on one line. -/
structure Untyped (front note : Text) : Prop where
  remark : Remark note
  space : front = [] ∨ ' ' ∈ front.head?
  oneLine : '\n' ∉ front ++ note

theorem Untyped.not_isNameStart_head? (h : Untyped front note) {tail : Text}
    (htail : ∀ c ∈ tail.head?, isBlank c = true) : ∀ c ∈ (front ++ tail).head?, isNameStart c = false := by
  have hblank : ∀ {c}, isBlank c = true → isNameStart c = false := by
    intro c hc
    by_contra hstart
    have hdotted := isDottedChar_of_isNameStart ((Bool.not_eq_false _).mp hstart)
    rw [not_isDottedChar_of_isSpace (isSpace_of_isBlank hc)] at hdotted
    cases hdotted
  rcases h.space with rfl | hspace
  · exact fun c hc => hblank (htail c hc)
  · obtain ⟨v, rfl⟩ := List.head?_eq_some_iff.1 hspace
    exact forall_head?_cons rfl

theorem listed_eq (hknown : directive.isKnown = true) (h : Untyped front note) (ts : List TypeExpr) (n : Nat) :
    directive.listed front note ts n =
      ⟨.tag directive (trim (front ++ note)), n⟩ :: Block.ofRun (ts.map variantLine) (n + 1) :=
  Block.ofRun_line hknown (h.not_isNameStart_head? h.remark.head?) h.oneLine _ n

theorem inline_eq (hknown : directive.isKnown = true) (h : Untyped front note) (hts : Alternatives ts) (n : Nat) :
    directive.inline front note ts n =
      [⟨.tag directive (trim (front ++ ' ' :: ((ofAlternatives ts).print ++ note))), n⟩] := by
  have hfeed : '\n' ∉ front ++ ' ' :: ((ofAlternatives ts).print ++ note) := by
    have hfront := h.oneLine
    have htype := hts.oneLine_type
    simp only [List.mem_append, List.mem_cons, not_or] at hfront ⊢
    exact ⟨hfront.1, by decide, htype, hfront.2⟩
  rw [inline, ← hts.print_type]
  exact Block.ofRun_line hknown (h.not_isNameStart_head? (forall_head?_cons rfl)) hfeed [] n

theorem opens_listed (hknown : directive.isKnown = true) (h : Untyped front note) (ts : List TypeExpr) (n : Nat)
    (behind : Block) : ∀ l ∈ (directive.listed front note ts n ++ behind).head?, Block.opens tags l = true := by
  rw [listed_eq hknown h]
  intro l hl
  obtain rfl := Option.some.inj hl
  rfl

theorem opens_inline (hknown : directive.isKnown = true) (h : Untyped front note) (hts : Alternatives ts) (n : Nat)
    (behind : Block) : ∀ l ∈ (directive.inline front note ts n ++ behind).head?, Block.opens tags l = true := by
  rw [inline_eq hknown h hts]
  intro l hl
  obtain rfl := Option.some.inj hl
  rfl

end Directive

/-! ### Functions -/

namespace FunctionDraft

variable {file : Text} {variants behind : Block}

theorem read_tag (file : Text) (d : FunctionDraft) (directive : Directive) (body : Text) (n : Nat) (rest : Block) :
    d.read file (⟨.tag directive body, n⟩ :: rest) =
      (d.addTag ⟨file, n⟩ directive body (variantUnion? rest)).read file rest :=
  rfl

theorem read_variants (d : FunctionDraft) (h : ∀ l ∈ variants, l.isVariant = true) (behind : Block) :
    d.read file (variants ++ behind) = d.read file behind := by
  induction variants with
  | nil => rfl
  | cons l variants ih =>
    obtain ⟨hl, hvariants⟩ := List.forall_mem_cons.1 h
    obtain ⟨content, n⟩ := l
    cases content with
    | variant text => exact ih hvariants
    | _ => cases hl

theorem read_append (d : FunctionDraft) {lines behind : Block}
    (h : ∀ l ∈ behind.head?, Block.opens Directive.tags l = true) :
    d.read file (lines ++ behind) = (d.read file lines).read file behind := by
  induction lines generalizing d with
  | nil => rfl
  | cons l rest ih =>
    obtain ⟨content, n⟩ := l
    cases content with
    | prose text => exact ih (d.addProse text)
    | variant text => exact ih d
    | tag directive body =>
      rw [List.cons_append, read_tag, read_tag, Tag.variantUnion?_append h]
      exact ih _

section

variable {directive : Directive} {front note : Text} {ts : List TypeExpr}

theorem read_listed (hknown : directive.isKnown = true) (h : Directive.Untyped front note) (hts : Alternatives ts)
    (hbehind : ∀ l ∈ behind.head?, l.isVariant = false) (d : FunctionDraft) (n : Nat) :
    d.read file (directive.listed front note ts n ++ behind) =
      (d.addTag ⟨file, n⟩ directive (trim (front ++ note)) (some (ofAlternatives ts))).read file behind := by
  have hlists := Block.lists_ofRun hts (n + 1)
  rw [Directive.listed_eq hknown h, List.cons_append, read_tag, hlists.variantUnion?_append hts hbehind,
    read_variants _ hlists.isVariant]

theorem read_inline (hknown : directive.isKnown = true) (h : Directive.Untyped front note) (hts : Alternatives ts)
    (d : FunctionDraft) (n : Nat) (behind : Block) :
    d.read file (directive.inline front note ts n ++ behind) =
      (d.addTag ⟨file, n⟩ directive (trim (front ++ ' ' :: ((ofAlternatives ts).print ++ note)))
        (variantUnion? behind)).read file behind := by
  rw [Directive.inline_eq hknown h hts, List.singleton_append, read_tag]

end

end FunctionDraft

theorem FunctionDoc.ofBlock_congr {block block' : Block} {signature : Signature} {location : Location}
    (hne : block ≠ []) (hne' : block' ≠ [])
    (h : FunctionDraft.empty.read location.file block = FunctionDraft.empty.read location.file block') :
    ofBlock block signature location = ofBlock block' signature location := by
  have hempty : block.isEmpty = block'.isEmpty := by
    rw [List.isEmpty_eq_false_iff.2 hne, List.isEmpty_eq_false_iff.2 hne']
  rw [ofBlock, ofBlock, h, hempty]

/-- If the spellings of a tag change every draft alike, a function is documented alike. -/
theorem FunctionDoc.ofBlock_spellings {directive : Directive} {front note : Text} {ts : List TypeExpr}
    {add : FunctionDraft → FunctionDraft} (hknown : directive.isKnown = true) (h : Directive.Untyped front note)
    (hts : Alternatives ts)
    (hlisted : ∀ d here, FunctionDraft.addTag d here directive (trim (front ++ note))
      (some (ofAlternatives ts)) = add d)
    (hinline : ∀ d here variants, FunctionDraft.addTag d here directive
      (trim (front ++ ' ' :: ((ofAlternatives ts).print ++ note))) variants = add d)
    (before : Block) {behind : Block} (hbehind : ∀ l ∈ behind.head?, l.isVariant = false) (n : Nat)
    (signature : Signature) (location : Location) :
    ofBlock (before ++ (directive.listed front note ts n ++ behind)) signature location =
        ofBlock (before ++ (directive.inline front note ts n ++ behind)) signature location ∧
      ∃ d, FunctionDraft.empty.read location.file (before ++ directive.listed front note ts n) = add d := by
  have hread : ∀ behind : Block, (∀ l ∈ behind.head?, l.isVariant = false) →
      FunctionDraft.empty.read location.file (before ++ (directive.listed front note ts n ++ behind)) =
        (add (FunctionDraft.empty.read location.file before)).read location.file behind := by
    intro behind hbehind
    rw [FunctionDraft.read_append _ (Directive.opens_listed hknown h ts n behind),
      FunctionDraft.read_listed hknown h hts hbehind, hlisted]
  have hread' : FunctionDraft.empty.read location.file (before ++ (directive.inline front note ts n ++ behind)) =
      (add (FunctionDraft.empty.read location.file before)).read location.file behind := by
    rw [FunctionDraft.read_append _ (Directive.opens_inline hknown h hts n behind),
      FunctionDraft.read_inline hknown h hts, hinline]
  constructor
  · refine ofBlock_congr ?_ ?_ ((hread behind hbehind).trans hread'.symm)
    · rw [Directive.listed_eq hknown h]
      exact List.append_ne_nil_of_right_ne_nil _ (List.cons_ne_nil _ _)
    · rw [Directive.inline_eq hknown h hts]
      exact List.append_ne_nil_of_right_ne_nil _ (List.cons_ne_nil _ _)
  · have halone := hread [] (by simp)
    rw [List.append_nil] at halone
    exact ⟨_, halone⟩

/-- A tag of a parameter documents the same parameter in both spellings, whatever stands around it. -/
def ParamAlike (ts : List TypeExpr) : Prop :=
  ∀ {name note : Text} {marked : Bool}, MemberName name → Directive.Untyped (' ' :: (name ++ mark marked)) note →
    ∀ (before behind : Block) (n : Nat) (signature : Signature) (location : Location),
    (∀ l ∈ behind.head?, l.isVariant = false) →
    let front := ' ' :: (name ++ mark marked)
    FunctionDoc.ofBlock (before ++ (Directive.param.listed front note ts n ++ behind)) signature location =
        FunctionDoc.ofBlock (before ++ (Directive.param.inline front note ts n ++ behind)) signature location ∧
      (FunctionDoc.ofBlock (before ++ Directive.param.listed front note ts n) signature location).1.params.getLast? =
        some ⟨name, ofAlternatives ts, description? note, marked || (ofAlternatives ts).isOptional⟩

/-- A return tag documents the same value in both spellings, whatever stands around it. -/
def ReturnAlike (ts : List TypeExpr) : Prop :=
  ∀ {note : Text}, Directive.Untyped [] note →
    ∀ (before behind : Block) (n : Nat) (signature : Signature) (location : Location),
    (∀ l ∈ behind.head?, l.isVariant = false) →
    FunctionDoc.ofBlock (before ++ (Directive.returns.listed [] note ts n ++ behind)) signature location =
        FunctionDoc.ofBlock (before ++ (Directive.returns.inline [] note ts n ++ behind)) signature location ∧
      (FunctionDoc.ofBlock (before ++ Directive.returns.listed [] note ts n) signature location).1.returns.getLast? =
        some ⟨ofAlternatives ts, description? note⟩

theorem paramAlike {ts : List TypeExpr} (hts : Alternatives ts) : ParamAlike ts := by
  intro name note marked hname h before behind n signature location hbehind front
  let m : Member := ⟨name, ofAlternatives ts, description? note, marked || (ofAlternatives ts).isOptional⟩
  have hlisted (d : FunctionDraft) (here : Location) :
      d.addTag here .param (trim (front ++ note)) (some (ofAlternatives ts)) =
        { d with params := d.params ++ [m], target := .member d.params.length } := by
    rw [trim_untyped hname.solid_mark h.remark, List.append_assoc, FunctionDraft.addTag,
      member_untyped hname h.remark]
  have hinline (d : FunctionDraft) (here : Location) (variants : Option TypeExpr) :
      d.addTag here .param (trim (front ++ ' ' :: ((ofAlternatives ts).print ++ note))) variants =
        { d with params := d.params ++ [m], target := .member d.params.length } := by
    rw [trim_typed hname.solid_mark h.remark hts.canonical_type, List.append_assoc, FunctionDraft.addTag,
      member_remark hname h.remark hts.canonical_type]
  obtain ⟨hagree, d, hd⟩ :=
    FunctionDoc.ofBlock_spellings rfl h hts hlisted hinline before hbehind n signature location
  refine ⟨hagree, ?_⟩
  rw [FunctionDoc.ofBlock, hd]
  simp [m]

theorem returnAlike {ts : List TypeExpr} (hts : Alternatives ts) : ReturnAlike ts := by
  intro note h before behind n signature location hbehind
  let value : ReturnValue := ⟨ofAlternatives ts, description? note⟩
  have hlisted (d : FunctionDraft) (here : Location) :
      d.addTag here .returns (trim ([] ++ note)) (some (ofAlternatives ts)) =
        { d with returns := d.returns ++ [value], target := .returnValue ((d.returns ++ [value]).length - 1) } := by
    rw [List.nil_append, FunctionDraft.addTag, returnValues_untyped h.remark]
  have hinline (d : FunctionDraft) (here : Location) (variants : Option TypeExpr) :
      d.addTag here .returns (trim ([] ++ ' ' :: ((ofAlternatives ts).print ++ note))) variants =
        { d with returns := d.returns ++ [value], target := .returnValue ((d.returns ++ [value]).length - 1) } := by
    have hsolid : Solid ((ofAlternatives ts).print ++ note) := h.remark.solid_append (solid_print hts.canonical_type)
    rw [List.nil_append, trim_space, hsolid.trim_eq, FunctionDraft.addTag,
      returnValues_typed h.remark hts.canonical_type]
  obtain ⟨hagree, d, hd⟩ :=
    FunctionDoc.ofBlock_spellings rfl h hts hlisted hinline before hbehind n signature location
  refine ⟨hagree, ?_⟩
  rw [FunctionDoc.ofBlock, hd]
  simp [value]

/-! ### Types -/

namespace TypesDraft

variable {file : Text} {d d' : TypesDraft} {variants behind : Block} {ts : List TypeExpr}

/-- A class has no use for alternatives. -/
theorem InRecord.read_variants (h : d.InRecord) (hvariants : ∀ l ∈ variants, l.isVariant = true) (behind : Block) :
    d.read file (variants ++ behind) = d.read file behind := by
  induction variants with
  | nil => rfl
  | cons l variants ih =>
    obtain ⟨hl, hrest⟩ := List.forall_mem_cons.1 hvariants
    obtain ⟨content, n⟩ := l
    cases content with
    | variant text => rw [List.cons_append, read_variant, h.addVariant, ih hrest]
    | _ => cases hl

/-- In the lines of a class the class stays open. -/
theorem InRecord.read (h : d.InRecord) {lines : Block}
    (hlines : ∀ l ∈ lines, Block.opens Directive.declares l = false) : (d.read file lines).InRecord := by
  induction lines generalizing d with
  | nil => exact h
  | cons l rest ih =>
    obtain ⟨hl, hrest⟩ := List.forall_mem_cons.1 hlines
    obtain ⟨content, n⟩ := l
    cases content with
    | prose text => exact ih (h.addProse text) hrest
    | variant text =>
      rw [read_variant, h.addVariant]
      exact ih h hrest
    | tag directive body => exact ih (foldl_addTag_record file h ⟨directive, body, n, rest⟩ hl).1 hrest

/-- A type that is closed next has nothing to say of how it was read. -/
theorem read_of_closed (htypes : d.types = d'.types) (hleading : d.leading = d'.leading)
    (hdiagnostics : d.diagnostics = d'.diagnostics)
    (hbehind : ∀ l ∈ behind.head?, Block.opens Directive.declares l = true) :
    (d.read file behind).types = (d'.read file behind).types ∧
      (d.read file behind).diagnostics = (d'.read file behind).diagnostics := by
  have hclose : d.close = { d'.close with target := d.target } := by
    simp only [close, htypes, hleading, hdiagnostics]
  cases behind with
  | nil => exact ⟨htypes, hdiagnostics⟩
  | cons l rest =>
    obtain ⟨content, n⟩ := l
    cases content with
    | prose | variant => cases hbehind _ rfl
    | tag directive body =>
      have hdeclares : directive.declares = true := hbehind _ rfl
      have htag : d.addTag ⟨file, n⟩ directive body (variantUnion? rest) =
          d'.addTag ⟨file, n⟩ directive body (variantUnion? rest) := by
        cases directive with
        | record | typeAlias => simp only [addTag, hclose, start, report]
        | _ => cases hdeclares
      rw [read_tag, read_tag, htag]
      exact ⟨rfl, rfl⟩

end TypesDraft

/-- Whether the lines behind a block belong to a class. -/
def Block.InClass (block : Block) : Prop :=
  ∃ earlier body n lines, block = earlier ++ ⟨.tag .record body, n⟩ :: lines ∧
    (classHead? body).isSome = true ∧ ∀ l ∈ lines, opens Directive.declares l = false

theorem Block.InClass.inRecord {block : Block} (h : block.InClass) (file : Text) :
    (TypesDraft.empty.read file block).InRecord := by
  obtain ⟨earlier, body, n, lines, rfl, hsome, hlines⟩ := h
  obtain ⟨head, hhead⟩ := Option.isSome_iff_exists.1 hsome
  rw [TypesDraft.read_append _ (by intro l hl; obtain rfl := Option.some.inj hl; rfl), TypesDraft.read_tag]
  refine TypesDraft.InRecord.read ?_ hlines
  rw [TypesDraft.addTag, hhead]
  exact ⟨_, head.parents, [], rfl, rfl⟩

/-- A field tag documents the same field in both spellings, whatever stands around it in its class. -/
def FieldAlike (ts : List TypeExpr) : Prop :=
  ∀ {name front note : Text} {marked : Bool}, FieldFront front name marked →
    Directive.Untyped (' ' :: front) note →
    ∀ (before behind : Block) (n : Nat) (file : Text), before.InClass →
    (∀ l ∈ behind.head?, l.isVariant = false) →
    TypeDoc.ofBlock (before ++ (Directive.field.listed (' ' :: front) note ts n ++ behind)) file =
        TypeDoc.ofBlock (before ++ (Directive.field.inline (' ' :: front) note ts n ++ behind)) file ∧
      ∃ t parents fields,
        (TypeDoc.ofBlock (before ++ Directive.field.listed (' ' :: front) note ts n) file).1.getLast? = some t ∧
          t.kind = .record parents (fields ++
            [⟨name, ofAlternatives ts, description? note, marked || (ofAlternatives ts).isOptional⟩])

theorem fieldAlike {ts : List TypeExpr} (hts : Alternatives ts) : FieldAlike ts := by
  intro name front note marked hfront h before behind n file hclass hbehind
  let d := TypesDraft.empty.read file before
  let m : Member := ⟨name, ofAlternatives ts, description? note, marked || (ofAlternatives ts).isOptional⟩
  have hd : d.InRecord := hclass.inRecord file
  have hlisted : member (dropScope (trim (' ' :: front ++ note))) (some (ofAlternatives ts)) = .ok m := by
    rw [trim_untyped hfront.solid h.remark, hfront.dropScope_append h.remark.head?]
    exact member_untyped hfront.name h.remark _
  have hinline (variants : Option TypeExpr) :
      member (dropScope (trim (' ' :: front ++ ' ' :: ((ofAlternatives ts).print ++ note)))) variants = .ok m := by
    rw [trim_typed hfront.solid h.remark hts.canonical_type, hfront.dropScope_append (forall_head?_cons rfl)]
    exact member_remark hfront.name h.remark hts.canonical_type variants
  obtain ⟨t, parents, fields, hcurrent, hkind⟩ := hd
  let after : TypesDraft :=
    { d with
      current := some { t with kind := .record parents (fields ++ [m]) }
      target := .member fields.length }
  have hafter : after.InRecord := ⟨_, parents, fields ++ [m], rfl, rfl⟩
  have hread (behind : Block) (hbehind : ∀ l ∈ behind.head?, l.isVariant = false) :
      TypesDraft.empty.read file (before ++ (Directive.field.listed (' ' :: front) note ts n ++ behind)) =
        after.read file behind := by
    have hlists := Block.lists_ofRun hts (n + 1)
    have hadd : d.addTag ⟨file, n⟩ .field (trim (' ' :: front ++ note)) (some (ofAlternatives ts)) = after := by
      simp only [TypesDraft.addTag, TypesDraft.addField, hcurrent, hkind, hlisted, after]
    rw [TypesDraft.read_append _ (Directive.opens_listed rfl h ts n behind), Directive.listed_eq rfl h,
      List.cons_append, TypesDraft.read_tag, hlists.variantUnion?_append hts hbehind, hadd,
      hafter.read_variants hlists.isVariant]
  have hread' : TypesDraft.empty.read file (before ++ (Directive.field.inline (' ' :: front) note ts n ++ behind)) =
      after.read file behind := by
    have hadd : d.addTag ⟨file, n⟩ .field
        (trim (' ' :: front ++ ' ' :: ((ofAlternatives ts).print ++ note))) (variantUnion? behind) = after := by
      simp only [TypesDraft.addTag, TypesDraft.addField, hcurrent, hkind, hinline, after]
    rw [TypesDraft.read_append _ (Directive.opens_inline rfl h hts n behind), Directive.inline_eq rfl h hts,
      List.singleton_append, TypesDraft.read_tag, hadd]
  constructor
  · rw [TypeDoc.ofBlock, TypeDoc.ofBlock, hread behind hbehind, hread']
  · have halone := hread [] (by simp)
    rw [List.append_nil] at halone
    rw [TypeDoc.ofBlock, halone]
    exact ⟨_, parents, fields, List.getLast?_concat, rfl⟩

def aliasKind (ts : List TypeExpr) : TypeKind :=
  if ts.all isLiteral then .enumeration (ts.map fun t => ⟨t.print, none⟩) else .typeAlias (ofAlternatives ts)

/-- An alias is the same in both spellings, whatever stands in front of it and up to the next type. -/
def AliasAlike (ts : List TypeExpr) : Prop :=
  ∀ {name : Text}, ClassName name → ∀ (before behind : Block) (n : Nat) (file : Text),
    (∀ l ∈ behind.head?, Block.opens Directive.declares l = true) →
    TypeDoc.ofBlock (before ++ (Directive.typeAlias.listed (' ' :: name) [] ts n ++ behind)) file =
        TypeDoc.ofBlock (before ++ (Directive.typeAlias.inline (' ' :: name) [] ts n ++ behind)) file ∧
      ∃ t, (TypeDoc.ofBlock (before ++ Directive.typeAlias.listed (' ' :: name) [] ts n) file).1.getLast? = some t ∧
        t.name = name ∧ t.kind = aliasKind ts

theorem KindDraft.finish_eq_aliasKind {ts : List TypeExpr} (hne : ts ≠ []) {type : Option TypeExpr}
    {variants : List (TypeExpr × Option Text)} (h : alternatives type variants = ts.map (·, none)) :
    (typeAlias type variants).finish = aliasKind ts := by
  obtain ⟨t, ts, rfl⟩ := List.exists_cons_of_ne_nil hne
  rw [finish, h, aliasKind]
  simp [List.all_map, Function.comp_def]

theorem KindDraft.alternatives_inline {ts : List TypeExpr} (hts : Alternatives ts) :
    alternatives (some (ofAlternatives ts)) [] = ts.map (·, none) := by
  obtain ⟨hne, -, hsimple, -⟩ := hts
  match ts, hne with
  | [t], _ =>
    have hsingle : t.isUnion = false := hsimple t List.mem_cons_self
    cases t with
    | union => cases hsingle
    | _ => rfl
  | t :: u :: ts, _ => exact List.append_nil _

theorem aliasAlike {ts : List TypeExpr} (hts : Alternatives ts) : AliasAlike ts := by
  intro name hname before behind n file hbehind
  let d := TypesDraft.empty.read file before
  have hfeed : '\n' ∉ ' ' :: name ++ [] := by
    have hname' : '\n' ∉ name := fun hmem => absurd (hname.isDottedChar_of_mem hmem) (by decide)
    simpa using hname'
  have h : Directive.Untyped (' ' :: name) [] := ⟨.empty, .inr rfl, hfeed⟩
  let opened (type : Option TypeExpr) : TypesDraft := d.close.start ⟨file, n⟩ name [] (.typeAlias type [])
  have hlists := Block.lists_ofRun hts (n + 1)
  have halias : (opened none).InAlias := ⟨_, none, [], rfl, rfl⟩
  have hdeclares : ∀ l ∈ Block.ofRun (ts.map variantLine) (n + 1), Block.opens Directive.declares l = false :=
    fun l hl => Block.opens_of_isVariant (hlists.isVariant l hl)
  obtain ⟨target, hlines⟩ := TypesDraft.read_alias file halias hdeclares
  rw [hlists.continuing_prose, hlists.alternatives_eq hts.canonical] at hlines
  let collected := (opened none).withAlternatives (ts.map (·, none)) target
  have hread (behind : Block) (hopens : ∀ l ∈ behind.head?, Block.opens Directive.tags l = true) :
      TypesDraft.empty.read file (before ++ (Directive.typeAlias.listed (' ' :: name) [] ts n ++ behind)) =
        collected.read file behind := by
    rw [TypesDraft.read_append _ (Directive.opens_listed rfl h ts n behind), Directive.listed_eq rfl h,
      trim_untyped hname.solid h.remark, List.append_nil, List.cons_append, TypesDraft.read_tag, TypesDraft.addTag,
      aliasHead?_untyped hname]
    exact (TypesDraft.read_append _ hopens).trans (congrArg (·.read file behind) hlines)
  have hread' : TypesDraft.empty.read file (before ++ (Directive.typeAlias.inline (' ' :: name) [] ts n ++ behind)) =
      (opened (some (ofAlternatives ts))).read file behind := by
    rw [TypesDraft.read_append _ (Directive.opens_inline rfl h hts n behind), Directive.inline_eq rfl h hts,
      trim_typed hname.solid h.remark hts.canonical_type, List.append_nil, List.singleton_append,
      TypesDraft.read_tag, TypesDraft.addTag, aliasHead?_typed hname hts.canonical_type]
  let doc : TypeDoc := ⟨name, [], aliasKind ts, d.leading.text, ⟨file, n⟩⟩
  have htypes : collected.types = d.types ++ [doc] := by
    have hfinish : (KindDraft.typeAlias none (ts.map (·, none))).finish = aliasKind ts :=
      KindDraft.finish_eq_aliasKind hts.ne_nil rfl
    simp [collected, opened, doc, TypesDraft.types, TypesDraft.withAlternatives, TypesDraft.start, TypesDraft.close,
      TypeDraft.addAlternatives, TypeDraft.finish, hfinish]
  have htypes' : (opened (some (ofAlternatives ts))).types = d.types ++ [doc] := by
    have hfinish := KindDraft.finish_eq_aliasKind hts.ne_nil (KindDraft.alternatives_inline hts)
    simp [opened, doc, TypesDraft.types, TypesDraft.start, TypesDraft.close, TypeDraft.finish, hfinish]
  constructor
  · have hopens : ∀ l ∈ behind.head?, Block.opens Directive.tags l = true :=
      fun l hl => Block.opens_tags (hbehind l hl)
    obtain ⟨hsame, hreports⟩ : (collected.read file behind).types = _ ∧ _ :=
      TypesDraft.read_of_closed (htypes.trans htypes'.symm) rfl rfl hbehind
    rw [TypeDoc.ofBlock, TypeDoc.ofBlock, hread behind hopens, hread', hsame, hreports]
  · have halone := hread [] (by simp)
    rw [List.append_nil] at halone
    rw [TypeDoc.ofBlock, halone]
    refine ⟨doc, ?_, rfl, rfl⟩
    exact (congrArg List.getLast? htypes).trans List.getLast?_concat

/-- Alternatives declare the same on lines of their own as with bars between them: an alias is the same
enumeration or the same type, and a parameter, a field or a return value has the same type and is optional alike.
For a field this needs a name that is told from a scope: a scope in front of it, a question mark behind it, or
another word than the scopes. -/
theorem Alternatives.declared_alike {ts : List TypeExpr} (hts : Alternatives ts) :
    AliasAlike ts ∧ ParamAlike ts ∧ FieldAlike ts ∧ ReturnAlike ts :=
  ⟨aliasAlike hts, paramAlike hts, fieldAlike hts, returnAlike hts⟩

theorem Alternatives.declared_alike_callback :
    let ts : List TypeExpr := [.literal "\"off\"".toList, .function [] [.builtin .nil]]
    let lines := ["---@param f? # how".toList, "---| \"off\"".toList, "---| fun(): nil".toList]
    let line := "---@param f? \"off\"|fun(): nil # how".toList
    let read (lines : List Text) :=
      FunctionDoc.ofBlock (Block.ofRun lines 1) ⟨"g".toList, false, false, ["f".toList]⟩ ⟨"a.lua".toList, 4⟩
    Alternatives ts ∧ read lines = read [line] ∧
      (read lines).1.params.getLast? = some ⟨"f".toList, .union ts, some "how".toList, true⟩ := by
  intro ts lines line read
  have hliteral : Canonical (.literal "\"off\"".toList) :=
    .quoted (.mk (q := '"') (v := "off".toList) (by decide) (by decide))
  have hfunction : Canonical (.function [] [.builtin .nil]) :=
    .function nofun nofun (Nat.le_refl 1) (List.forall_mem_singleton.2 (.builtin .nil))
  have hts : Alternatives ts := .pair hliteral hfunction rfl rfl rfl (by decide) (by decide)
  have hname : MemberName "f".toList := .entry (.simple (by decide) (List.all_eq_true.1 rfl))
  have htag : Directive.Untyped (' ' :: ("f".toList ++ mark true)) " # how".toList := by
    refine ⟨.mark blanks_space (List.cons_ne_nil _ _) (d := " how".toList) ?_, .inr rfl, by decide⟩
    exact ⟨⟨'#', rfl, rfl⟩, 'w', rfl, rfl⟩
  obtain ⟨-, hparam, -⟩ := Alternatives.declared_alike hts
  obtain ⟨hsame, hlast⟩ := hparam hname htag [] [] 1 ⟨"g".toList, false, false, ["f".toList]⟩
    ⟨"a.lua".toList, 4⟩ nofun
  rw [List.append_nil, List.append_nil] at hsame
  exact ⟨hts, hsame, hlast⟩

/-- Alone, `private` is the name of a field; with a type behind it, it is a scope, and the field has no name. -/
theorem TypeDoc.ofBlock_private :
    let ts : List TypeExpr := [.literal "\"a\"".toList, .literal "\"b\"".toList]
    let read (lines : List Text) := TypeDoc.ofBlock (Block.ofRun ("---@class C".toList :: lines) 1) "a.lua".toList
    let listed := ["---@field private".toList, "---| \"a\"".toList, "---| \"b\"".toList]
    let inline := ["---@field private \"a\"|\"b\"".toList]
    Alternatives ts ∧
      (read listed).1.map (·.kind) = [.record [] [⟨"private".toList, .union ts, none, false⟩]] ∧
      (read inline).1.map (·.kind) = [.record [] []] ∧
      (read inline).2 = [.malformedTag ⟨"a.lua".toList, 2⟩ .field .missingIdentifier] := by
  intro ts read listed inline
  have hfirst : Canonical (.literal "\"a\"".toList) :=
    .quoted (.mk (q := '"') (v := "a".toList) (by decide) (by decide))
  have hsecond : Canonical (.literal "\"b\"".toList) :=
    .quoted (.mk (q := '"') (v := "b".toList) (by decide) (by decide))
  have hts : Alternatives ts := .pair hfirst hsecond rfl rfl rfl (by decide) (by decide)
  have hname : MemberName "private".toList := .entry (.simple (by decide) (List.all_eq_true.1 rfl))
  have hmember : member (dropScope "private".toList) (some (.union ts)) =
      .ok ⟨"private".toList, .union ts, none, false⟩ := by
    have hread : member ("private".toList ++ (mark false ++ [])) (some (.union ts)) = _ :=
      member_untyped hname .empty (.union ts)
    exact hread
  have hnameless (variants : Option TypeExpr) :
      member (dropScope "private \"a\"|\"b\"".toList) variants = .error .missingIdentifier := rfl
  let variants : Block := [⟨.variant "\"a\"".toList, 3⟩, ⟨.variant "\"b\"".toList, 4⟩]
  have hunion : variantUnion? variants = some (.union ts) := by
    have hlists : variants.Lists ts := .cons rfl (.cons rfl .nil)
    have hnone : ∀ l ∈ ([] : Block).head?, l.isVariant = false := nofun
    exact hlists.variantUnion?_append hts hnone
  have hblock : Block.ofRun ("---@class C".toList :: listed) 1 =
      ⟨.tag .record "C".toList, 1⟩ :: ⟨.tag .field "private".toList, 2⟩ :: variants := rfl
  have hblock' : Block.ofRun ("---@class C".toList :: inline) 1 =
      [⟨.tag .record "C".toList, 1⟩, ⟨.tag .field "private \"a\"|\"b\"".toList, 2⟩] := rfl
  let opened : TypesDraft := TypesDraft.empty.close.start ⟨"a.lua".toList, 1⟩ "C".toList [] (.record [] [])
  have hfield : opened.addTag ⟨"a.lua".toList, 2⟩ .field "private".toList (some (.union ts)) =
      { opened with
        current := some ⟨"C".toList, [], .record [] [⟨"private".toList, .union ts, none, false⟩], .empty,
          ⟨"a.lua".toList, 1⟩⟩
        target := .member 0 } := by
    simp only [TypesDraft.addTag, TypesDraft.addField, opened, TypesDraft.start, hmember]
    rfl
  have hfault : opened.addTag ⟨"a.lua".toList, 2⟩ .field "private \"a\"|\"b\"".toList none =
      opened.report ⟨"a.lua".toList, 2⟩ .field .missingIdentifier := by
    simp only [TypesDraft.addTag, TypesDraft.addField, opened, TypesDraft.start, hnameless]
  have hlisted : TypesDraft.empty.read "a.lua".toList (Block.ofRun ("---@class C".toList :: listed) 1) =
      (opened.addTag ⟨"a.lua".toList, 2⟩ .field "private".toList (some (.union ts))).read "a.lua".toList
        variants := by
    rw [hblock, TypesDraft.read_tag, TypesDraft.read_tag, hunion]
    rfl
  have hinline : TypesDraft.empty.read "a.lua".toList (Block.ofRun ("---@class C".toList :: inline) 1) =
      opened.addTag ⟨"a.lua".toList, 2⟩ .field "private \"a\"|\"b\"".toList none := by
    rw [hblock']
    rfl
  refine ⟨hts, ?_, ?_⟩
  · simp only [read, TypeDoc.ofBlock, hlisted, hfield]
    rfl
  · simp only [read, TypeDoc.ofBlock, hinline, hfault]
    exact ⟨rfl, rfl⟩

end LuaDocs
