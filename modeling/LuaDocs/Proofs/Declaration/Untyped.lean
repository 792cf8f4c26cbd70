import LuaDocs.Proofs.Declaration.TypeLists

/-!
# Tags without a type

A tag that leaves out its type says the rest as it would with the type: the name of its entry, perhaps a
question mark, perhaps a description set off by `#`. Only the scope of a field is told from its name by what
follows it: `private` alone is the name of a field, and with a type behind it the same word is a scope.
-/

namespace LuaDocs.Tag

open Text TypeExpr

variable {b d k n note r s tail w : Text} {c : Char} {marked : Bool} {t : TypeExpr}

/-! ### Remarks -/

/-- What may follow a name or a type in a tag: nothing, or blanks and a description set off by `#`. -/
inductive Remark : Text → Prop
  | empty : Remark []
  | mark {b d : Text} (hb : Blanks b) (hne : b ≠ []) (hd : Solid ('#' :: d)) : Remark (b ++ '#' :: d)

theorem leading?_nil : leading? [] = none :=
  leading?_eq_none_iff.2 blank_nil

theorem trim_blanks_append (hb : Blanks b) (hs : Solid s) : trim (b ++ s) = s := by
  rw [trim, trimStart_append_of_blank hb.blank, ← trim, hs.trim_eq]

theorem description?_trim (s : Text) : description? (trim s) = description? s := by
  rw [description?, description?, trim_trim]

theorem Remark.afterName?_eq (h : Remark note) : afterName? note = some (trim note) := by
  cases h with
  | empty => rfl
  | @mark b d hb hne hd =>
    have hblanks : someBlanks? (b ++ '#' :: d) = some ('#' :: d) := someBlanks?_append hb hne (unblank_cons rfl)
    have hskip : afterName? (b ++ '#' :: d) = someBlanks? (b ++ '#' :: d) := by
      obtain ⟨c, v, rfl⟩ := List.exists_cons_of_ne_nil hne
      rfl
    rw [hskip, hblanks, trim_blanks_append hb hd]

/-- A remark is no type. -/
theorem Remark.type?_trim (h : Remark note) : type? (trim note) = (none, trim note) := by
  cases h with
  | empty =>
    show type? [] = (none, [])
    rw [type?, if_neg (by decide), leading?_nil]
  | mark hb hne hd =>
    rw [trim_blanks_append hb hd, type?, hd.trimStart_eq]
    exact if_pos rfl

theorem Remark.head? (h : Remark note) : ∀ c ∈ note.head?, isBlank c = true := by
  cases h with
  | empty => exact nofun
  | mark hb hne hd =>
    obtain ⟨c, v, rfl⟩ := List.exists_cons_of_ne_nil hne
    exact forall_head?_cons (hb c List.mem_cons_self)

theorem Remark.trimStart_head? (h : Remark note) : ∀ c ∈ (trimStart note).head?, c = '#' := by
  cases h with
  | empty => exact nofun
  | mark hb hne hd =>
    rw [trimStart_append_of_blank hb.blank, hd.trimStart_eq]
    exact fun c hc => (Option.some.inj hc).symm

theorem Remark.afterType (h : Remark note) : AfterType note := by
  have hhead := h.head?
  have hmark := h.trimStart_head?
  cases note with
  | nil => exact .inl rfl
  | cons c v =>
    exact .inr (.inr ⟨⟨c, rfl, isSpace_of_isBlank (hhead c rfl)⟩, fun hbar => absurd (hmark _ hbar) (by decide),
      fun hcolon => absurd (hmark _ hcolon) (by decide)⟩)

theorem Remark.solid_append (h : Remark note) (hw : Solid w) : Solid (w ++ note) := by
  cases h with
  | empty => rwa [List.append_nil]
  | @mark b d hb hne hd =>
    rw [← List.append_assoc]
    exact hw.append b hd

/-! ### Bodies -/

theorem trim_untyped (hw : Solid w) (hnote : Remark note) : trim (' ' :: w ++ note) = w ++ note := by
  rw [List.cons_append, trim_space, (hnote.solid_append hw).trim_eq]

theorem trim_typed (hw : Solid w) (hnote : Remark note) (ht : Canonical t) :
    trim (' ' :: w ++ ' ' :: (t.print ++ note)) = w ++ ' ' :: (t.print ++ note) := by
  have hsolid : Solid (w ++ ' ' :: (t.print ++ note)) := by
    simpa using hw.append [' '] (hnote.solid_append (solid_print ht))
  rw [List.cons_append, trim_space, hsolid.trim_eq]

/-! ### Entries -/

theorem member_untyped (hn : MemberName n) (hnote : Remark note) (t : TypeExpr) :
    member (n ++ (mark marked ++ note)) (some t) = .ok ⟨n, t, description? note, marked || t.isOptional⟩ := by
  have hsolid : Solid (n ++ (mark marked ++ note)) := by
    rw [← List.append_assoc]
    exact hnote.solid_append hn.solid_mark
  have hmember : member (n ++ (mark marked ++ note)) (some t) = .ok ⟨n, t, description? (trim note), _⟩ :=
    member_append hn hsolid hnote.head? hnote.afterName?_eq hnote.type?_trim rfl
  rwa [description?_trim] at hmember

theorem member_remark (hn : MemberName n) (hnote : Remark note) (ht : Canonical t) (variants : Option TypeExpr) :
    member (n ++ (mark marked ++ ' ' :: (t.print ++ note))) variants =
      .ok ⟨n, t, description? note, marked || t.isOptional⟩ :=
  member_typed hn ht hnote.afterType (hnote.solid_append (solid_print ht)) variants

/-! ### Scopes -/

theorem isDottedChar_of_mem_scope (hw : w ∈ scopes) : ∀ c ∈ w, isDottedChar c = true := by
  have hall : ∀ s ∈ scopes, s.all isDottedChar = true := by decide
  exact List.all_eq_true.1 (hall w hw)

theorem dropScope_append (hw : ∀ c ∈ w, isDottedChar c = true) (hr : ∀ c ∈ r.head?, isDottedChar c = false)
    (h : w ∈ scopes → someBlanks? r = none) : dropScope (w ++ r) = w ++ r := by
  have hnone : (scopes.findSome? fun scope => (after? scope (w ++ r)).bind someBlanks?) = none := by
    refine List.findSome?_eq_none_iff.2 fun scope hscope => ?_
    rw [afterWord_append (isDottedChar_of_mem_scope hscope) hw hr]
    split
    · next hword => exact h (hword ▸ hscope)
    · rfl
  rw [dropScope, hnone, Option.getD_none]

theorem dropScope_scope (hw : w ∈ scopes) (hb : Blanks b) (hne : b ≠ []) (hs : Unblank s) :
    dropScope (w ++ (b ++ s)) = s := by
  have hend : ∀ c ∈ (b ++ s).head?, isDottedChar c = false := by
    obtain ⟨c, v, rfl⟩ := List.exists_cons_of_ne_nil hne
    exact forall_head?_cons (not_isDottedChar_of_isSpace (isSpace_of_isBlank (hb c List.mem_cons_self)))
  have hread : ∀ scope ∈ scopes, (after? scope (w ++ (b ++ s))).bind someBlanks? =
      if scope = w then some s else none := by
    intro scope hscope
    rw [afterWord_append (isDottedChar_of_mem_scope hscope) (isDottedChar_of_mem_scope hw) hend,
      someBlanks?_append hb hne hs]
  have hfind : (scopes.findSome? fun scope => (after? scope (w ++ (b ++ s))).bind someBlanks?) = some s := by
    cases hfound : scopes.findSome? fun scope => (after? scope (w ++ (b ++ s))).bind someBlanks? with
    | none =>
      have hnone := List.findSome?_eq_none_iff.1 hfound w hw
      rw [hread w hw, if_pos rfl] at hnone
      cases hnone
    | some x =>
      obtain ⟨scope, hscope, hx⟩ := List.exists_of_findSome?_eq_some hfound
      rw [hread scope hscope] at hx
      split at hx
      · exact hx.symm
      · cases hx
  rw [dropScope, hfind, Option.getD_some]

/-- The front of a field tag, its name and whether that is marked: perhaps a scope, the name and perhaps a question
mark. The name of a field without both is no scope. -/
inductive FieldFront : Text → Text → Bool → Prop
  | plain {n : Text} {marked : Bool} (hn : MemberName n) (h : marked = false → n ∉ scopes) :
      FieldFront (n ++ mark marked) n marked
  | inScope {w b n : Text} {marked : Bool} (hw : w ∈ scopes) (hb : Blanks b) (hne : b ≠ []) (hn : MemberName n) :
      FieldFront (w ++ (b ++ (n ++ mark marked))) n marked

theorem FieldFront.name (h : FieldFront s n marked) : MemberName n := by
  cases h with
  | plain hn _ => exact hn
  | inScope _ _ _ hn => exact hn

theorem FieldFront.solid (h : FieldFront s n marked) : Solid s := by
  cases h with
  | plain hn _ => exact hn.solid_mark
  | @inScope w b n _ hw hb hne hn =>
    have hword : Solid w := by
      have hne' : ∀ v ∈ scopes, v ≠ [] := by decide
      exact solid_of_forall (hne' w hw) fun c hc => not_isSpace_of_isDottedChar (isDottedChar_of_mem_scope hw c hc)
    rw [← List.append_assoc]
    exact hword.append b hn.solid_mark

theorem FieldFront.dropScope_append (h : FieldFront s n marked) (htail : ∀ c ∈ tail.head?, isBlank c = true) :
    dropScope (s ++ tail) = n ++ (mark marked ++ tail) := by
  cases h with
  | plain hn hscope =>
    rw [List.append_assoc]
    cases hn with
    | entry hn =>
      refine Tag.dropScope_append (fun _ => hn.isDottedChar_of_mem) (head?_mark_append htail) fun hmem => ?_
      cases marked with
      | true => rfl
      | false => exact absurd hmem (hscope rfl)
    | key _ =>
      exact Tag.dropScope_append (w := []) nofun (forall_head?_cons rfl) fun hmem => absurd hmem (by decide)
  | inScope hw hb hne hn =>
    rw [List.append_assoc, List.append_assoc, List.append_assoc]
    exact dropScope_scope hw hb hne (hn.solid.unblank _)

/-! ### Return values and aliases -/

theorem reads_leading?_whole (ht : Canonical t) : Reads (TypeExpr.leading? t.print) t [] := by
  have hprint : trimStart t.print = t.print ++ [] := by
    rw [List.append_nil, (solid_print ht).trimStart_eq]
  exact reads_leading?_print hprint ht (.inl rfl)

theorem returnValues_untyped (hnote : Remark note) (t : TypeExpr) :
    returnValues (trim note) (some t) = .ok [⟨t, description? note⟩] := by
  rw [returnValues, hnote.type?_trim]
  dsimp only
  rw [description?_trim]

theorem returnValues_typed (hnote : Remark note) (ht : Canonical t) (variants : Option TypeExpr) :
    returnValues (t.print ++ note) variants = .ok [⟨t, description? note⟩] := by
  have hread : Reads (TypeExpr.leading? (t.print ++ note)) t note :=
    (leading?_print ht hnote.afterType).1
  have hcomma : ',' ∉ (trimStart note).head? := fun h => absurd (hnote.trimStart_head? _ h) (by decide)
  rw [returnValues, type?_print ht hnote.afterType]
  dsimp only
  rw [typeList_last hread hcomma]
  rfl

theorem aliasHead?_untyped (hn : ClassName n) : aliasHead? n = some ⟨n, none, none⟩ := by
  obtain ⟨hstart, hinside⟩ := hn
  have hname := name?_append hstart hinside (r := []) nofun
  rw [List.append_nil] at hname
  rw [aliasHead?, hname]

theorem aliasHead?_typed (hn : ClassName n) (ht : Canonical t) :
    aliasHead? (n ++ ' ' :: t.print) = some ⟨n, some t, none⟩ := by
  obtain ⟨_, hread⟩ := reads_leading?_whole ht
  have hblanks : someBlanks? (' ' :: t.print) = some t.print := by
    have hunblank := (solid_print ht).unblank []
    rw [List.append_nil] at hunblank
    exact someBlanks?_append blanks_space (List.cons_ne_nil _ _) hunblank
  obtain ⟨hstart, hinside⟩ := hn
  have hname := name?_append hstart hinside (r := ' ' :: t.print) (forall_head?_cons rfl)
  rw [aliasHead?, hname]
  dsimp only
  rw [hblanks, Option.map_some, hread]
  rfl

end LuaDocs.Tag
