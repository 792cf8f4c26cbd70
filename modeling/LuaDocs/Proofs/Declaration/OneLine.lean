import LuaDocs.Proofs.Declaration.Naming
import LuaDocs.Proofs.TypeExpr.OneLine

/-!
# Declarations on single lines

No line of a block holds a line feed. A name, a type or a value comes from one line of the block, and the
description of a parameter, a return value, a field or a variant from several that are joined with spaces,
so none of them holds a line feed either. Reading a block keeps this line by line, and matching names does
not touch it. The descriptions of whole declarations, and notes, are the only texts with several lines.
-/

namespace LuaDocs

open Text

/-! ### Blocks -/

def LineContent.text : LineContent → Text
  | tag _ body => body
  | variant text => text
  | prose text => text

namespace Block

variable {lines : List Text} {text : Text} {l : DocLine} {rest : Block}

def OneLine (block : Block) : Prop :=
  ∀ l ∈ block, '\n' ∉ l.content.text

theorem sublist_of_variant? {content : LineContent} (h : LineContent.variant? text = some content) :
    content.text.Sublist text := by
  obtain ⟨s, hs, rfl⟩ := Option.map_eq_some_iff.1 h
  exact (trim_sublist s).trans ((after?_sublist hs).trans (skipBlanks_sublist text))

theorem sublist_ofProse (text : Text) : (LineContent.ofProse text).text.Sublist text := by
  have hspace : ((after? [' '] text).getD text).Sublist text := by
    cases h : after? [' '] text with
    | none => exact List.Sublist.refl text
    | some s => exact after?_sublist h
  exact (trimEnd_sublist _).trans hspace

theorem classify_sublist (text : Text) : (LineContent.classify text).text.Sublist text := by
  rw [LineContent.classify]
  split
  · exact sublist_ofProse text
  · cases htag : LineContent.tag? text with
    | some content =>
      rw [Option.some_or, Option.getD_some]
      cases content with
      | tag directive body => exact sublist_of_tag? htag
      | _ =>
        rw [LineContent.tag?] at htag
        split at htag
        · cases htag
        · split at htag <;> cases htag
    | none =>
      rw [Option.none_or]
      cases hvariant : LineContent.variant? text with
      | some content => exact sublist_of_variant? hvariant
      | none => exact sublist_ofProse text

theorem not_feed_of_docText? {line : Text} (h : Comment.docText? line = some text) : '\n' ∉ text := by
  rw [Comment.docText?] at h
  split at h
  · cases h
  · split at h
    · cases h
    · next hplain =>
      cases h
      simpa using fun hfeed => hplain (Bool.or_eq_true_iff.2 (.inr hfeed))

theorem oneLine_above (lines : List Text) (decl : ℕ) : (above lines decl).OneLine := by
  intro l hl
  rw [above, ofRun, List.mem_filterMap] at hl
  obtain ⟨p, -, hp⟩ := hl
  obtain ⟨text, htext, rfl⟩ := Option.map_eq_some_iff.1 hp
  exact fun hmem => not_feed_of_docText? htext ((classify_sublist text).mem hmem)

end Block

/-! ### Descriptions -/

def Prose.OneLine (description : Option Text) : Prop :=
  ∀ d ∈ description, '\n' ∉ d

theorem Prose.oneLine_none : Prose.OneLine none :=
  nofun

theorem Prose.OneLine.append {description : Option Text} {line : Text} (h : Prose.OneLine description)
    (hline : '\n' ∉ line) : Prose.OneLine (Prose.append description line) := by
  have htrim : '\n' ∉ trim line := fun hmem => hline ((trim_sublist line).mem hmem)
  by_cases hblank : (trim line).isEmpty
  · have hskip : Prose.append description line = description := by
      rcases description with - | (- | ⟨c, s⟩) <;> simp [Prose.append, hblank]
    rwa [hskip]
  · rcases description with - | (- | ⟨c, s⟩)
    · simpa [Prose.append, hblank, Prose.OneLine] using htrim
    · simpa [Prose.append, hblank, Prose.OneLine] using htrim
    · have hadd : Prose.append (some (c :: s)) line = some (c :: s ++ ' ' :: trim line) := by
        simp [Prose.append, hblank]
      have hspace : '\n' ∉ ' ' :: trim line := List.not_mem_cons_of_ne_of_not_mem (by decide) htrim
      rw [hadd]
      intro d hd
      obtain rfl := Option.some.inj hd
      exact List.not_mem_append (h (c :: s) rfl) hspace

structure Member.OneLine (m : Member) : Prop where
  name : '\n' ∉ m.name
  type : m.type.OneLine
  description : Prose.OneLine m.description

structure ReturnValue.OneLine (r : ReturnValue) : Prop where
  type : r.type.OneLine
  description : Prose.OneLine r.description

structure Variant.OneLine (v : Variant) : Prop where
  value : '\n' ∉ v.value
  description : Prose.OneLine v.description

theorem Member.OneLine.appendProse {m : Member} {text : Text} (h : m.OneLine) (htext : '\n' ∉ text) :
    (m.appendProse text).OneLine :=
  ⟨h.name, h.type, h.description.append htext⟩

theorem ReturnValue.OneLine.appendProse {r : ReturnValue} {text : Text} (h : r.OneLine)
    (htext : '\n' ∉ text) : (r.appendProse text).OneLine :=
  ⟨h.type, h.description.append htext⟩

theorem forall_mem_modify {α : Type} {P : α → Prop} {f : α → α} {l : List α} (h : ∀ a ∈ l, P a)
    (hf : ∀ a, P a → P (f a)) (i : ℕ) : ∀ a ∈ l.modify i f, P a := by
  induction l generalizing i with
  | nil =>
    rw [List.modify_nil]
    exact nofun
  | cons a l ih =>
    obtain ⟨ha, hl⟩ := List.forall_mem_cons.1 h
    cases i with
    | zero => exact List.forall_mem_cons.2 ⟨hf a ha, hl⟩
    | succ i =>
      rw [List.modify_succ_cons]
      exact List.forall_mem_cons.2 ⟨ha, ih hl i⟩

/-! ### Tags -/

namespace Tag

variable {s n rest body : Text} {variants : Option TypeExpr} {block : Block}

theorem oneLine_description? (hs : '\n' ∉ s) : Prose.OneLine (description? s) := by
  intro d hd
  rw [description?] at hd
  split at hd
  · cases hd
  · cases hd
    have hmark : ((after? ['#'] (trim s)).getD (trim s)).Sublist (trim s) := by
      cases h : after? ['#'] (trim s) with
      | none => exact List.Sublist.refl _
      | some r => exact after?_sublist h
    exact fun hmem => hs (((trim_sublist _).trans (hmark.trans (trim_sublist s))).mem hmem)

theorem oneLine_leading? {t : TypeExpr} {r : Rest s} (hs : '\n' ∉ s)
    (h : TypeExpr.leading? s = some (t, r)) : t.OneLine ∧ '\n' ∉ r.1 := by
  obtain ⟨ht, hr⟩ := TypeExpr.oneLine_of_reads_leading? hs (.of_eq_some h)
  exact ⟨ht, fun hmem => hs (hr.subset hmem)⟩

theorem oneLine_type? (hbody : '\n' ∉ body) :
    (∀ t ∈ (type? body).1, t.OneLine) ∧ '\n' ∉ (type? body).2 := by
  rw [type?]
  split
  · exact ⟨nofun, hbody⟩
  · split
    · next t r h =>
      obtain ⟨ht, hr⟩ := oneLine_leading? hbody h
      refine ⟨fun u hu => ?_, hr⟩
      cases hu
      exact ht
    · exact ⟨nofun, List.not_mem_nil⟩

theorem oneLine_variantUnion? (hblock : block.OneLine) : ∀ t ∈ variantUnion? block, t.OneLine := by
  intro t ht
  rw [variantUnion?] at ht
  split at ht
  · cases ht
  · cases ht
    refine TypeExpr.oneLine_ofAlternatives fun u hu => ?_
    obtain ⟨l, hl, hlu⟩ := List.mem_filterMap.1 hu
    have hline := hblock l ((List.takeWhile_sublist _).mem hl)
    cases hcontent : l.content with
    | variant text =>
      rw [hcontent] at hline hlu
      obtain ⟨⟨u, r⟩, hread, rfl⟩ := Option.map_eq_some_iff.1 hlu
      exact (oneLine_leading? hline hread).1
    | tag directive body =>
      rw [hcontent] at hlu
      cases hlu
    | prose text =>
      rw [hcontent] at hlu
      cases hlu

theorem sublist_of_bracketKey? (h : bracketKey? s = some (n, rest)) : rest.Sublist s := by
  rw [bracketKey?] at h
  split at h
  · cases h
  · next r hafter =>
    split at h
    · cases h
    · next c t hclose =>
      cases h
      have hrest : (c :: rest).Sublist r := hclose ▸ List.dropWhile_sublist _
      exact (List.sublist_of_cons_sublist hrest).trans (after?_sublist hafter)

theorem sublist_of_entryName? (h : entryName? s = some (n, rest)) : rest.Sublist s := by
  rw [entryName?] at h
  split at h
  · next r hafter =>
    cases h
    exact after?_sublist hafter
  · rcases Option.or_eq_some_iff.1 h with h | ⟨-, h⟩
    · exact sublist_of_bracketKey? h
    · exact (of_name? h).2.2

theorem sublist_of_afterName? (h : afterName? s = some rest) : rest.Sublist s := by
  rw [afterName?.eq_def] at h
  split at h
  · cases h
    exact List.Sublist.refl _
  · exact someBlanks?_sublist h

theorem oneLine_member {m : Member} (hbody : '\n' ∉ body) (hvariants : ∀ t ∈ variants, t.OneLine)
    (h : member body variants = .ok m) : m.OneLine := by
  have hname := not_feed_of_member hbody h
  have htrim : '\n' ∉ trim body := fun hmem => hbody ((trim_sublist body).mem hmem)
  rw [member] at h
  split at h
  · cases h
  · next name s hentry =>
    dsimp only at h
    split at h
    · cases h
    · next r hr =>
      have hs : r.Sublist s := by
        refine (sublist_of_afterName? hr).trans ?_
        split
        · exact List.drop_sublist 1 s
        · exact List.Sublist.refl s
      have hrest : '\n' ∉ r := fun hmem => htrim ((hs.trans (sublist_of_entryName? hentry)).mem hmem)
      obtain ⟨htype, hleft⟩ := oneLine_type? hrest
      split at h
      · cases h
      · next t ht =>
        cases h
        refine ⟨hname, ?_, oneLine_description? hleft⟩
        rcases Option.or_eq_some_iff.1 ht with ht | ⟨-, ht⟩
        · exact htype t ht
        · exact hvariants t ht

theorem dropScope_sublist (body : Text) : (dropScope body).Sublist body := by
  rw [dropScope]
  cases h : scopes.findSome? fun scope => (after? scope body).bind someBlanks? with
  | none => exact List.Sublist.refl body
  | some r =>
    obtain ⟨scope, -, hscope⟩ := List.exists_of_findSome?_eq_some h
    obtain ⟨s, hs, hr⟩ := Option.bind_eq_some_iff.1 hscope
    exact (someBlanks?_sublist hr).trans (after?_sublist hs)

theorem oneLine_typeList {ts : List TypeExpr} (hs : '\n' ∉ s) (h : typeList s = .ok (ts, rest)) :
    (∀ t ∈ ts, t.OneLine) ∧ '\n' ∉ rest := by
  fun_induction typeList s generalizing ts rest with
  | case1 s hnone => cases h
  | case2 s t r hread hclosing =>
    cases h
    obtain ⟨ht, hr⟩ := oneLine_leading? hs hread
    exact ⟨List.forall_mem_singleton.2 ht, hr⟩
  | case3 s t r hread r' hclosing ih =>
    obtain ⟨ht, hr⟩ := oneLine_leading? hs hread
    have hclosed : Leaves (closing? ',' r.1) r'.1 := by
      rw [hclosing]
      exact leaves_some.2 rfl
    obtain ⟨a, -, hcomma⟩ := exists_blank_of_leaves_closing? hclosed
    have hr' : '\n' ∉ r'.1 := fun hmem => hr (by simp [hcomma, hmem])
    cases hlist : typeList r'.1 with
    | error fault =>
      rw [hlist] at h
      cases h
    | ok p =>
      rw [hlist] at h
      cases h
      obtain ⟨hts, hrest⟩ := ih hr' hlist
      exact ⟨List.forall_mem_cons.2 ⟨ht, hts⟩, hrest⟩

theorem oneLine_describeLast {ts : List TypeExpr} {d : Option Text} (hts : ∀ t ∈ ts, t.OneLine)
    (hd : Prose.OneLine d) : ∀ r ∈ describeLast ts d, r.OneLine := by
  fun_induction describeLast ts d with
  | case1 d => exact nofun
  | case2 t d => exact List.forall_mem_singleton.2 ⟨hts t List.mem_cons_self, hd⟩
  | case3 t ts d hne ih =>
    obtain ⟨ht, hts⟩ := List.forall_mem_cons.1 hts
    exact List.forall_mem_cons.2 ⟨⟨ht, Prose.oneLine_none⟩, ih hts hd⟩

theorem oneLine_returnValues {rs : List ReturnValue} (hbody : '\n' ∉ body)
    (hvariants : ∀ t ∈ variants, t.OneLine) (h : returnValues body variants = .ok rs) :
    ∀ r ∈ rs, r.OneLine := by
  have hleft := (oneLine_type? hbody).2
  rw [returnValues] at h
  split at h
  · next rest hrest =>
    rw [hrest] at hleft
    cases variants with
    | none => cases h
    | some t =>
      cases h
      exact List.forall_mem_singleton.2 ⟨hvariants t rfl, oneLine_description? hleft⟩
  · cases hlist : typeList body with
    | error fault =>
      rw [hlist] at h
      cases h
    | ok p =>
      rw [hlist] at h
      cases h
      obtain ⟨hts, hrest⟩ := oneLine_typeList hbody hlist
      exact oneLine_describeLast hts (oneLine_description? hrest)

theorem sublist_of_skipRemark? (h : skipRemark? s = some rest) : rest.Sublist s := by
  rw [skipRemark?] at h
  split at h
  · cases h
    exact List.Sublist.refl _
  · next r hafter =>
    split at h
    · cases h
    · next c t hclose =>
      cases h
      have hrest : (c :: t).Sublist r := hclose ▸ List.dropWhile_sublist _
      exact (skipBlanks_sublist t).trans
        ((List.sublist_of_cons_sublist hrest).trans (after?_sublist hafter))

theorem sublist_of_classGenerics? {generics : List Text} (h : classGenerics? s = some (generics, rest)) :
    rest.Sublist s := by
  rw [classGenerics?] at h
  split at h
  · cases h
    exact List.Sublist.refl _
  · next r hafter =>
    split at h
    · cases h
    · next c t hclose =>
      cases h
      have hrest : (c :: rest).Sublist r := hclose ▸ List.dropWhile_sublist _
      exact (List.sublist_of_cons_sublist hrest).trans (after?_sublist hafter)

theorem oneLine_parentTypes (hs : '\n' ∉ s) : ∀ t ∈ parentTypes s, t.OneLine := by
  refine List.forall_mem_map.2 fun part hpart => TypeExpr.oneLine_parse ?_
  obtain ⟨whole, hwhole, rfl⟩ := List.mem_map.1 (List.mem_of_mem_filter hpart)
  exact fun hmem => hs (mem_of_mem_splitOn hwhole ((trim_sublist whole).mem hmem))

theorem oneLine_classParents? {parents : List TypeExpr} (hs : '\n' ∉ s)
    (h : classParents? s = some parents) : ∀ t ∈ parents, t.OneLine := by
  have hskip : '\n' ∉ skipBlanks s := fun hmem => hs ((skipBlanks_sublist s).mem hmem)
  rw [classParents?] at h
  split at h
  · cases h
    exact nofun
  · next rest hcolon =>
    cases h
    rw [hcolon] at hskip
    exact oneLine_parentTypes fun hmem =>
      hskip (List.mem_cons_of_mem _ ((skipBlanks_sublist rest).mem hmem))
  · cases h

theorem oneLine_classHead? {head : ClassHead} (hbody : '\n' ∉ body) (h : classHead? body = some head) :
    '\n' ∉ head.name ∧ ∀ t ∈ head.parents, t.OneLine := by
  simp only [classHead?, Option.bind_eq_bind, Option.bind_eq_some_iff] at h
  obtain ⟨s, hs, ⟨name, s₁⟩, hname, ⟨generics, s₂⟩, hgenerics, parents, hparents, h⟩ := h
  cases h
  have hsub : s.Sublist body := sublist_of_skipRemark? hs
  obtain ⟨-, hname, hrest⟩ := of_name? hname
  have hs₂ := (sublist_of_classGenerics? hgenerics).trans (hrest.trans hsub)
  exact ⟨fun hmem => hbody ((hname.trans hsub).mem hmem),
    oneLine_classParents? (fun hmem => hbody (hs₂.mem hmem)) hparents⟩

theorem oneLine_aliasHead? {head : AliasHead} (hbody : '\n' ∉ body) (h : aliasHead? body = some head) :
    '\n' ∉ head.name ∧ (∀ t ∈ head.type, t.OneLine) ∧ Prose.OneLine head.description := by
  rw [aliasHead?] at h
  split at h
  · cases h
  · next name hname =>
    cases h
    exact ⟨fun hmem => hbody ((of_name? hname).2.1.mem hmem), nofun, nofun⟩
  · next name s _ hname =>
    obtain ⟨r, hr, hhead⟩ := Option.map_eq_some_iff.1 h
    obtain ⟨-, hn, hs⟩ := of_name? hname
    have hnfeed : '\n' ∉ name := fun hmem => hbody (hn.mem hmem)
    have hrfeed : '\n' ∉ r := fun hmem => hbody (((someBlanks?_sublist hr).trans hs).mem hmem)
    split at hhead
    · next t u hread =>
      subst hhead
      obtain ⟨ht, hu⟩ := oneLine_leading? hrfeed hread
      refine ⟨hnfeed, fun v hv => ?_, oneLine_description? hu⟩
      obtain rfl := Option.some.inj hv
      exact ht
    · subst hhead
      exact ⟨hnfeed, nofun, nofun⟩

end Tag

/-! ### Functions -/

/-- What the tables of a function show holds no line feed. -/
structure FunctionDraft.OneLine (d : FunctionDraft) : Prop where
  params : ∀ m ∈ d.params, m.OneLine
  returns : ∀ r ∈ d.returns, r.OneLine

namespace FunctionDraft

variable {d : FunctionDraft} {text body : Text} {variants : Option TypeExpr}

theorem oneLine_empty : OneLine .empty :=
  ⟨nofun, nofun⟩

theorem OneLine.addProse (h : d.OneLine) (htext : '\n' ∉ text) : (d.addProse text).OneLine := by
  rw [FunctionDraft.addProse]
  cases d.target with
  | member i => exact ⟨forall_mem_modify h.params (fun m hm => hm.appendProse htext) i, h.returns⟩
  | returnValue i => exact ⟨h.params, forall_mem_modify h.returns (fun r hr => hr.appendProse htext) i⟩
  | _ => exact ⟨h.params, h.returns⟩

theorem OneLine.addTag (h : d.OneLine) (here : Location) (directive : Directive) (hbody : '\n' ∉ body)
    (hvariants : ∀ t ∈ variants, t.OneLine) : (d.addTag here directive body variants).OneLine := by
  cases directive with
  | param =>
    rw [FunctionDraft.addTag]
    cases hm : Tag.member body variants with
    | error fault => exact ⟨h.params, h.returns⟩
    | ok m =>
      have hone := List.forall_mem_singleton.2 (Tag.oneLine_member hbody hvariants hm)
      exact ⟨List.forall_mem_append.2 ⟨h.params, hone⟩, h.returns⟩
  | returns =>
    rw [FunctionDraft.addTag]
    cases hvalues : Tag.returnValues body variants with
    | error fault => exact ⟨h.params, h.returns⟩
    | ok values =>
      have hall := Tag.oneLine_returnValues hbody hvariants hvalues
      exact ⟨h.params, List.forall_mem_append.2 ⟨h.returns, hall⟩⟩
  | generic =>
    rw [FunctionDraft.addTag]
    cases Tag.genericNames body <;> exact ⟨h.params, h.returns⟩
  | _ => exact ⟨h.params, h.returns⟩

theorem OneLine.read (file : Text) (h : d.OneLine) {block : Block} (hblock : block.OneLine) :
    (d.read file block).OneLine := by
  induction block generalizing d with
  | nil => exact h
  | cons l block ih =>
    obtain ⟨hl, hblock⟩ := List.forall_mem_cons.1 hblock
    rw [FunctionDraft.read]
    cases hcontent : l.content with
    | prose text =>
      rw [hcontent] at hl
      exact ih (h.addProse hl) hblock
    | variant text => exact ih h hblock
    | tag directive body =>
      rw [hcontent] at hl
      exact ih (h.addTag _ directive hl (Tag.oneLine_variantUnion? hblock)) hblock

end FunctionDraft

structure FunctionDoc.OneLine (f : FunctionDoc) : Prop where
  params : ∀ m ∈ f.params, m.OneLine
  returns : ∀ r ∈ f.returns, r.OneLine

theorem FunctionDoc.oneLine_ofBlock {block : Block} {signature : Signature} (hblock : block.OneLine)
    (hparams : ∀ n ∈ signature.params, '\n' ∉ n) (location : Location) :
    (ofBlock block signature location).1.OneLine := by
  have hdraft := FunctionDraft.oneLine_empty.read location.file hblock
  refine ⟨fun m hm => ?_, hdraft.returns⟩
  rw [ofBlock] at hm
  dsimp only at hm
  split at hm
  · obtain ⟨n, hn, rfl⟩ := List.mem_map.1 hm
    exact ⟨hparams n hn, TypeExpr.inherited_oneLine.any, Prose.oneLine_none⟩
  · exact hdraft.params m hm

/-! ### Types -/

def KindDraft.OneLine : KindDraft → Prop
  | record parents fields => (∀ t ∈ parents, t.OneLine) ∧ ∀ m ∈ fields, m.OneLine
  | typeAlias type variants =>
    (∀ t ∈ type, t.OneLine) ∧ ∀ v ∈ variants, v.1.OneLine ∧ Prose.OneLine v.2

def TypeKind.OneLine : TypeKind → Prop
  | record parents fields => (∀ t ∈ parents, t.OneLine) ∧ ∀ m ∈ fields, m.OneLine
  | enumeration variants => ∀ v ∈ variants, v.OneLine
  | typeAlias type => type.OneLine

structure TypeDraft.OneLine (t : TypeDraft) : Prop where
  name : '\n' ∉ t.name
  kind : t.kind.OneLine

/-- What the row of a type shows holds no line feed. -/
structure TypeDoc.OneLine (t : TypeDoc) : Prop where
  name : '\n' ∉ t.name
  kind : t.kind.OneLine

theorem KindDraft.alternatives_eq_parts (type : Option TypeExpr) (variants : List (TypeExpr × Option Text)) :
    alternatives type variants = (type.toList.flatMap TypeExpr.parts).map (·, none) ++ variants := by
  cases type with
  | none => rfl
  | some t =>
    rw [Option.toList_some, List.flatMap_singleton]
    cases t <;> rfl

theorem KindDraft.OneLine.finish {kind : KindDraft} (h : kind.OneLine) : kind.finish.OneLine := by
  cases kind with
  | record parents fields => exact h
  | typeAlias type variants =>
    obtain ⟨htype, hvariants⟩ := h
    have hall : ∀ v ∈ alternatives type variants, v.1.OneLine ∧ Prose.OneLine v.2 := by
      rw [alternatives_eq_parts]
      refine List.forall_mem_append.2 ⟨List.forall_mem_map.2 fun u hu => ?_, hvariants⟩
      obtain ⟨t, ht, hu⟩ := List.mem_flatMap.1 hu
      exact ⟨(htype t (Option.mem_toList.1 ht)).of_mem_parts hu, Prose.oneLine_none⟩
    rw [KindDraft.finish]
    split
    · exact TypeExpr.inherited_oneLine.any
    · split
      · exact List.forall_mem_map.2 fun v hv => ⟨(hall v hv).1, (hall v hv).2⟩
      · exact TypeExpr.oneLine_ofAlternatives (List.forall_mem_map.2 fun v hv => (hall v hv).1)

theorem TypeDraft.OneLine.finish {t : TypeDraft} (h : t.OneLine) : t.finish.OneLine :=
  ⟨h.name, h.kind.finish⟩

namespace TypesDraft

variable {d : TypesDraft} {text name body : Text} {variants : Option TypeExpr} {kind : KindDraft}

structure OneLine (d : TypesDraft) : Prop where
  finished : ∀ t ∈ d.finished, t.OneLine
  current : ∀ t ∈ d.current, t.OneLine

theorem oneLine_empty : OneLine .empty :=
  ⟨nofun, nofun⟩

theorem OneLine.types (h : d.OneLine) : ∀ t ∈ d.types, t.OneLine := by
  refine List.forall_mem_append.2 ⟨h.finished, fun t ht => ?_⟩
  obtain ⟨u, hu, rfl⟩ := Option.map_eq_some_iff.1 (Option.mem_toList.1 ht)
  exact (h.current u hu).finish

theorem OneLine.addProse (h : d.OneLine) (htext : '\n' ∉ text) : (d.addProse text).OneLine := by
  obtain ⟨finished, current, leading, target, diagnostics⟩ := d
  cases current with
  | none => cases target <;> exact ⟨h.finished, nofun⟩
  | some t =>
    have ht : t.OneLine := h.current t rfl
    have hall : ∀ t' : TypeDraft, t'.OneLine → ∀ u ∈ some t', u.OneLine := fun t' ht' u hu =>
      Option.some.inj hu ▸ ht'
    obtain ⟨name, generics, kind, description, location⟩ := t
    obtain ⟨hname, hkind⟩ := ht
    cases target with
    | description => exact ⟨h.finished, hall _ ⟨hname, hkind⟩⟩
    | member i =>
      cases kind with
      | record parents fields =>
        have hfields := forall_mem_modify hkind.2 (fun m hm => hm.appendProse htext) i
        exact ⟨h.finished, hall _ ⟨hname, hkind.1, hfields⟩⟩
      | typeAlias type alts => exact ⟨h.finished, hall _ ⟨hname, hkind⟩⟩
    | variant i =>
      cases kind with
      | record parents fields => exact ⟨h.finished, hall _ ⟨hname, hkind⟩⟩
      | typeAlias type alts =>
        have halts := forall_mem_modify (f := fun v => (v.1, Prose.append v.2 text)) hkind.2
          (fun v hv => ⟨hv.1, hv.2.append htext⟩) i
        exact ⟨h.finished, hall _ ⟨hname, hkind.1, halts⟩⟩
    | _ => exact ⟨h.finished, h.current⟩

theorem OneLine.addVariant (h : d.OneLine) (htext : '\n' ∉ text) : (d.addVariant text).OneLine := by
  obtain ⟨finished, current, leading, target, diagnostics⟩ := d
  cases current with
  | none => exact h
  | some t =>
    have ht : t.OneLine := h.current t rfl
    obtain ⟨name, generics, kind, description, location⟩ := t
    cases kind with
    | record parents fields => exact h
    | typeAlias type alts =>
      rw [TypesDraft.addVariant]
      dsimp only
      split
      · next type' variants' v r hkind hread =>
        cases hkind
        obtain ⟨hv, hr⟩ := Tag.oneLine_leading? htext hread
        have hone : ∀ w ∈ [(v, Tag.description? r.1)], w.1.OneLine ∧ Prose.OneLine w.2 :=
          List.forall_mem_singleton.2 ⟨hv, Tag.oneLine_description? hr⟩
        refine ⟨h.finished, fun u hu => ?_⟩
        obtain rfl := Option.some.inj hu
        exact ⟨ht.name, ht.kind.1, List.forall_mem_append.2 ⟨ht.kind.2, hone⟩⟩
      · exact h

theorem OneLine.close (h : d.OneLine) : d.close.OneLine :=
  ⟨h.types, nofun⟩

theorem OneLine.report (h : d.OneLine) (here : Location) (directive : Directive) (fault : TagFault) :
    (d.report here directive fault).OneLine :=
  ⟨h.finished, h.current⟩

theorem OneLine.start (h : d.OneLine) (here : Location) (hname : '\n' ∉ name) (generics : List Text)
    (hkind : kind.OneLine) : (d.start here name generics kind).OneLine := by
  refine ⟨h.finished, fun t ht => ?_⟩
  obtain rfl := Option.some.inj ht
  exact ⟨hname, hkind⟩

theorem OneLine.addField (h : d.OneLine) (here : Location) (hbody : '\n' ∉ body)
    (hvariants : ∀ t ∈ variants, t.OneLine) : (d.addField here body variants).OneLine := by
  obtain ⟨finished, current, leading, target, diagnostics⟩ := d
  cases current with
  | none => exact ⟨h.finished, nofun⟩
  | some t =>
    have ht : t.OneLine := h.current t rfl
    obtain ⟨name, generics, kind, description, location⟩ := t
    cases kind with
    | typeAlias type alts => exact ⟨h.finished, h.current⟩
    | record parents fields =>
      have hscope : '\n' ∉ Tag.dropScope body := fun hmem =>
        hbody ((Tag.dropScope_sublist body).mem hmem)
      rw [TypesDraft.addField]
      dsimp only
      cases hm : Tag.member (Tag.dropScope body) variants with
      | error fault => exact ⟨h.finished, h.current⟩
      | ok m =>
        have hone := List.forall_mem_singleton.2 (Tag.oneLine_member hscope hvariants hm)
        refine ⟨h.finished, fun u hu => ?_⟩
        obtain rfl := Option.some.inj hu
        exact ⟨ht.name, ht.kind.1, List.forall_mem_append.2 ⟨ht.kind.2, hone⟩⟩

theorem OneLine.addTag (h : d.OneLine) (here : Location) (directive : Directive) (hbody : '\n' ∉ body)
    (hvariants : ∀ t ∈ variants, t.OneLine) : (d.addTag here directive body variants).OneLine := by
  cases directive with
  | record =>
    rw [TypesDraft.addTag]
    cases hhead : Tag.classHead? body with
    | none => exact h.close.report _ _ _
    | some head =>
      obtain ⟨hname, hparents⟩ := Tag.oneLine_classHead? hbody hhead
      exact h.close.start here hname head.generics ⟨hparents, List.forall_mem_nil _⟩
  | typeAlias =>
    rw [TypesDraft.addTag]
    cases hhead : Tag.aliasHead? body with
    | none => exact h.close.report _ _ _
    | some head =>
      obtain ⟨hname, htype, hdescription⟩ := Tag.oneLine_aliasHead? hbody hhead
      have hkind : KindDraft.OneLine (.typeAlias head.type []) := ⟨htype, List.forall_mem_nil _⟩
      have hstart := h.close.start here hname [] hkind
      dsimp only
      cases htext : head.description with
      | none => exact hstart
      | some text => exact hstart.addProse (hdescription text htext)
  | field => exact h.addField here hbody hvariants
  | _ => exact ⟨h.finished, h.current⟩

theorem OneLine.read (file : Text) (h : d.OneLine) {block : Block} (hblock : block.OneLine) :
    (d.read file block).OneLine := by
  induction block generalizing d with
  | nil => exact h
  | cons l block ih =>
    obtain ⟨hl, hblock⟩ := List.forall_mem_cons.1 hblock
    rw [TypesDraft.read]
    cases hcontent : l.content with
    | prose text =>
      rw [hcontent] at hl
      exact ih (h.addProse hl) hblock
    | variant text =>
      rw [hcontent] at hl
      exact ih (h.addVariant hl) hblock
    | tag directive body =>
      rw [hcontent] at hl
      exact ih (h.addTag _ directive hl (Tag.oneLine_variantUnion? hblock)) hblock

end TypesDraft

/-! ### Files -/

namespace ParsedFile

variable {file content : Text} {f : FunctionDoc} {t : TypeDoc}

theorem oneLine_of_mem_functions (hf : f ∈ (ofContent file content).docs.functions) : f.OneLine := by
  obtain ⟨decl, signature, hsignature, rfl⟩ := exists_of_mem_ofContent hf
  obtain ⟨code, hcode, hparse⟩ := Option.bind_eq_some_iff.1 hsignature
  have hfeed : '\n' ∉ code := Source.not_feed_of_codeAt? (fun _ => not_feed_of_mem_lines) hcode
  obtain ⟨-, hparams⟩ := Signature.of_parse? hparse
  exact FunctionDoc.oneLine_ofBlock (Block.oneLine_above _ _)
    (fun n hn hmem => hfeed (hparams n hn _ hmem)) _

theorem oneLine_of_mem_types (ht : t ∈ (ofContent file content).docs.types) : t.OneLine := by
  obtain ⟨found, hfound, ht⟩ := List.mem_flatMap.1 ht
  obtain ⟨decl, -, rfl⟩ := List.mem_map.1 hfound
  rw [Source.declarationAt, FileDocs.ofBlock] at ht
  split at ht
  · exact (TypesDraft.oneLine_empty.read file (Block.oneLine_above _ _)).types t ht
  · split at ht <;> exact absurd ht List.not_mem_nil

end ParsedFile

/-! ### Registries -/

section

variable (known : Text → Bool)

theorem TypeExpr.OneLine.matched {t : TypeExpr} (h : t.OneLine) : (t.matched known).OneLine := by
  rwa [TypeExpr.OneLine, TypeExpr.print_matched]

theorem Member.OneLine.matched {m : Member} (h : m.OneLine) : (m.matched known).OneLine :=
  ⟨h.name, h.type.matched known, h.description⟩

theorem ReturnValue.OneLine.matched {r : ReturnValue} (h : r.OneLine) : (r.matched known).OneLine :=
  ⟨h.type.matched known, h.description⟩

theorem FunctionDoc.OneLine.matched {f : FunctionDoc} (h : f.OneLine) : (f.matched known).OneLine :=
  ⟨List.forall_mem_map.2 fun m hm => (h.params m hm).matched known,
    List.forall_mem_map.2 fun r hr => (h.returns r hr).matched known⟩

theorem TypeKind.OneLine.matched {kind : TypeKind} (h : kind.OneLine) : (kind.matched known).OneLine := by
  cases kind with
  | record parents fields =>
    exact ⟨List.forall_mem_map.2 fun t ht => (h.1 t ht).matched known,
      List.forall_mem_map.2 fun m hm => (h.2 m hm).matched known⟩
  | enumeration variants => exact h
  | typeAlias type => exact TypeExpr.OneLine.matched known h

theorem TypeDoc.OneLine.matched {t : TypeDoc} (h : t.OneLine) : (t.matched known).OneLine :=
  ⟨h.name, h.kind.matched known⟩

end

namespace Registry

variable {sources : List (Text × Text)} {f : FunctionDoc} {t : TypeDoc}

theorem oneLine_of_mem_functions (hf : f ∈ (ofSources sources).functions) : f.OneLine := by
  obtain ⟨source, -, g, hg, rfl⟩ := exists_matched_of_mem_functions hf
  exact (ParsedFile.oneLine_of_mem_functions hg).matched _

theorem oneLine_of_mem_types (ht : t ∈ (ofSources sources).types) : t.OneLine := by
  rw [ofSources_eq, ofParsed_eq_lastOfEach (isSome_lookup_indexFiles sources)] at ht
  obtain ⟨u, hu, rfl⟩ := List.mem_map.1 (List.mem_of_mem_filter ht)
  obtain ⟨file, hfile, hu⟩ := List.mem_flatMap.1 hu
  obtain ⟨source, -, rfl⟩ := List.mem_map.1 (mem_of_mem_lastOfEach hfile)
  exact (ParsedFile.oneLine_of_mem_types hu).matched _

end Registry

end LuaDocs
