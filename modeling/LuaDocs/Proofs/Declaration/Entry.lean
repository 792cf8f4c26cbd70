import LuaDocs.Declaration.Function
import LuaDocs.Proofs.TypeExpr.Canonical

/-!
# Written entries

An entry is what a parameter tag says of one parameter: its name, perhaps a question mark, a type and
perhaps a description. Its body is read back part by part, since no part can go on into the next one: a
blank ends the name, and a description that opens with neither `|` nor `:` cannot continue the type. Any tag
on a line of its own is read back with its body, if that is a single line without white space at its ends.
-/

namespace LuaDocs.Tag

open Text TypeExpr

variable {s r n d k tail : Text} {t : TypeExpr} {c : Char} {marked : Bool}

/-! ### Types in front of a description -/

theorem solid_print (h : Canonical t) : Solid t.print := by
  have hread := h.reads.1 [] stop_nil
  rw [List.append_nil] at hread
  obtain ⟨w, hw, hprint⟩ := (union_sound hread).1
  rw [hprint, List.append_nil]
  exact hw.solid

/-- No type opens with a comma or with the mark that sets off a description. -/
theorem opening_of_readsType (h : ReadsType (c :: s) t r) : c ≠ '#' ∧ c ≠ ',' := by
  obtain ⟨u, v, hsuffixed, -⟩ := reads_union?.1 h
  obtain ⟨p, w, hprimary, -⟩ := reads_suffixed?.1 hsuffixed
  have hstep := reads_primary?.1 hprimary
  cases hstep with
  | group _ _ => decide
  | table _ => decide
  | string hq _ => exact ⟨ne_of_test hq rfl, ne_of_test hq rfl⟩
  | number hc _ =>
    rcases hc with hc | rfl
    · exact ⟨ne_of_test hc rfl, ne_of_test hc rfl⟩
    · decide
  | named hname _ =>
    obtain ⟨d, y, hy, hd⟩ := exists_cons_of_reads_ident? hname
    obtain ⟨rfl, -⟩ := List.cons.inj hy
    exact ⟨ne_of_test hd rfl, ne_of_test hd rfl⟩

theorem not_hash_of_readsType (h : ReadsType s t r) : ['#'].isPrefixOf s = false := by
  rw [← Bool.not_eq_true, List.isPrefixOf_iff_prefix]
  rintro ⟨x, rfl⟩
  exact (opening_of_readsType h).1 rfl

theorem type?_print (h : Canonical t) (hr : AfterType r) : type? (t.print ++ r) = (some t, r) := by
  have htype : ReadsType (t.print ++ r) t r := h.reads.1 r hr.stop
  have htrim : trimStart (t.print ++ r) = t.print ++ r := trimStart_eq_of_readsType htype
  obtain ⟨_, hread⟩ : Reads (leading? (t.print ++ r)) t r := by
    refine reads_leading?.2 (.inl ?_)
    rwa [htrim]
  rw [type?, htrim, not_hash_of_readsType htype, if_neg Bool.false_ne_true, hread]

/-! ### Descriptions -/

/-- A description in a tag: it can be told from the type in front of it and has nothing to be
trimmed. -/
structure IsDescription (d : Text) : Prop where
  solid : Solid d
  opening : ∀ c ∈ d.head?, c ≠ '#' ∧ c ≠ '|' ∧ c ≠ ':'

/-- The end of a tag body: a description after a blank, if there is one. -/
def spaced : Option Text → Text
  | none => []
  | some d => ' ' :: d

theorem trimStart_space (s : Text) : trimStart (' ' :: s) = trimStart s :=
  trimStart_append_of_blank blank_space

theorem trim_space (s : Text) : trim (' ' :: s) = trim s := by
  rw [trim, trimStart_space, trim]

theorem description?_spaced {o : Option Text} (h : ∀ d ∈ o, IsDescription d) :
    description? (spaced o) = o := by
  cases o with
  | none => rfl
  | some d =>
    obtain ⟨hsolid, hopening⟩ := h d rfl
    obtain ⟨c, w, rfl⟩ := List.exists_cons_of_ne_nil hsolid.ne_nil
    have hhash : after? ['#'] (c :: w) = none := after?_cons_of_ne (hopening c rfl).1.symm
    rw [spaced, description?, trim_space, hsolid.trim_eq, hhash, Option.getD_none, hsolid.trim_eq,
      List.isEmpty_cons, if_neg Bool.false_ne_true]

theorem afterType_spaced {o : Option Text} (h : ∀ d ∈ o, IsDescription d) : AfterType (spaced o) := by
  cases o with
  | none => exact .inl rfl
  | some d =>
    obtain ⟨hsolid, hopening⟩ := h d rfl
    have hhead : ∀ c ∈ (trimStart (' ' :: d)).head?, c ≠ '|' ∧ c ≠ ':' := by
      rw [trimStart_space, hsolid.trimStart_eq]
      exact fun c hc => (hopening c hc).2
    exact .inr (.inr ⟨⟨' ', rfl, rfl⟩, fun hbar => (hhead _ hbar).1 rfl,
      fun hcolon => (hhead _ hcolon).2 rfl⟩)

theorem solid_append_spaced {w : Text} {o : Option Text} (hw : Solid w) (h : ∀ d ∈ o, IsDescription d) :
    Solid (w ++ spaced o) := by
  cases o with
  | none => rwa [spaced, List.append_nil]
  | some d =>
    have hsolid := hw.append [' '] (h d rfl).solid
    rwa [List.append_assoc] at hsolid

/-! ### Names -/

theorem name?_append {inside : Char → Bool} {v : Text} (hstart : isNameStart c) (hinside : ∀ d ∈ v, inside d)
    (hr : ∀ d ∈ r.head?, inside d = false) : name? inside (c :: v ++ r) = some (c :: v, r) := by
  rw [List.cons_append, name?, if_pos hstart, takeWhile_append_of_head? hinside hr,
    dropWhile_append_of_head? hinside hr]

/-- A word is found in front of blanks only where it is all of the dotted name that stands there. -/
theorem afterWord_append {w : Text} (hw : ∀ c ∈ w, isDottedChar c = true) (hn : ∀ c ∈ n, isDottedChar c = true)
    (hr : ∀ c ∈ r.head?, isDottedChar c = false) :
    (after? w (n ++ r)).bind someBlanks? = if w = n then someBlanks? r else none := by
  split
  · next hword =>
    rw [hword, after?_append, Option.bind_some]
  · next hword =>
    refine Option.bind_eq_none_iff.2 fun s hs => ?_
    have hsplit : w ++ s = n ++ r := List.isPrefixOf?_eq_some_iff_append_eq.1 hs
    cases s with
    | nil => rfl
    | cons c v =>
      rw [someBlanks?]
      split
      · next hc =>
        have hend : ∀ d ∈ (c :: v).head?, isDottedChar d = false :=
          forall_head?_cons (not_isDottedChar_of_isSpace (isSpace_of_isBlank hc))
        exact absurd (append_inj_of_head? hw hn hend hr hsplit).1 hword
      · rfl

/-- The name of a documented parameter: `...`, or a letter or `_` and then letters, digits and `_`. -/
inductive EntryName : Text → Prop
  | rest : EntryName "...".toList
  | simple {c : Char} {v : Text} (hstart : isNameStart c) (hinside : ∀ d ∈ v, isNameChar d) :
      EntryName (c :: v)

theorem isDottedChar_of_isNameChar {c : Char} (h : isNameChar c) : isDottedChar c := by
  rw [isDottedChar, h, Bool.true_or]

/-- Only characters of names and points stand in the name of a parameter. -/
theorem EntryName.isDottedChar_of_mem (h : EntryName n) {c : Char} (hc : c ∈ n) :
    isDottedChar c := by
  cases h with
  | rest =>
    have hpoints : ∀ d ∈ "...".toList, isDottedChar d := List.all_eq_true.1 rfl
    exact hpoints c hc
  | simple hstart hinside =>
    rcases List.mem_cons.1 hc with rfl | hc
    · exact isDottedChar_of_isNameStart hstart
    · exact isDottedChar_of_isNameChar (hinside c hc)

theorem EntryName.ne_nil (h : EntryName n) : n ≠ [] := by
  cases h with
  | rest => decide
  | simple _ _ => exact List.cons_ne_nil _ _

theorem EntryName.solid (h : EntryName n) : Solid n :=
  solid_of_forall h.ne_nil fun _ hc => not_isSpace_of_isDottedChar (h.isDottedChar_of_mem hc)

theorem entryName?_append (h : EntryName n) (hr : ∀ c ∈ r.head?, isNameChar c = false) :
    entryName? (n ++ r) = some (n, r) := by
  cases h with
  | rest => rw [entryName?, after?_append]
  | @simple c v hstart hinside =>
    have hpoints : after? "...".toList (c :: v ++ r) = none :=
      after?_cons_of_ne fun hc => absurd hstart (hc ▸ by decide)
    have hbracket : bracketKey? (c :: v ++ r) = none := by
      have hopen : after? ['['] (c :: v ++ r) = none :=
        after?_cons_of_ne fun hc => absurd hstart (hc ▸ by decide)
      rw [bracketKey?, hopen]
    rw [entryName?, hpoints, hbracket, Option.none_or, name?_append hstart hinside hr]

def mark (marked : Bool) : Text :=
  if marked then ['?'] else []

/-- The name of a parameter or a field: that of a parameter, or a key in brackets. -/
inductive MemberName : Text → Prop
  | entry {n : Text} (h : EntryName n) : MemberName n
  | key {k : Text} (h : ']' ∉ k) : MemberName ('[' :: (k ++ [']']))

theorem MemberName.solid (h : MemberName n) : Solid n := by
  cases h with
  | entry h => exact h.solid
  | @key k _ => exact (solid_singleton (c := '[') (by decide)).concat k (by decide)

theorem MemberName.solid_mark (h : MemberName n) : Solid (n ++ mark marked) := by
  cases marked with
  | true => exact h.solid.concat [] (by decide)
  | false => rw [mark, if_neg Bool.false_ne_true, List.append_nil]; exact h.solid

theorem bracketKey?_append (h : ']' ∉ k) (r : Text) :
    bracketKey? ('[' :: (k ++ ']' :: r)) = some ('[' :: (k ++ [']']), r) := by
  have hinside : ∀ c ∈ k, (c != ']') = true := by
    intro c hc
    rw [bne_iff_ne]
    rintro rfl
    exact h hc
  have hend : ∀ c ∈ (']' :: r).head?, (c != ']') = false := forall_head?_cons rfl
  have hopen : after? ['['] ('[' :: (k ++ ']' :: r)) = some (k ++ ']' :: r) :=
    after?_append ['['] (k ++ ']' :: r)
  rw [bracketKey?, hopen]
  dsimp only
  rw [dropWhile_append_of_head? hinside hend, takeWhile_append_of_head? hinside hend]
  rfl

theorem MemberName.entryName?_append (h : MemberName n) (hr : ∀ c ∈ r.head?, isNameChar c = false) :
    entryName? (n ++ r) = some (n, r) := by
  cases h with
  | entry h => exact Tag.entryName?_append h hr
  | @key k hk =>
    have hpoints : after? "...".toList ('[' :: (k ++ ']' :: r)) = none := after?_cons_of_ne (by decide)
    rw [List.cons_append, List.append_assoc, List.singleton_append, entryName?, hpoints,
      bracketKey?_append hk]
    rfl

/-! ### Entries -/

/-- Neither a question mark nor a blank goes on with a name. -/
theorem head?_mark_append (h : ∀ c ∈ tail.head?, isBlank c = true) :
    ∀ c ∈ (mark marked ++ tail).head?, isDottedChar c = false := by
  intro c hc
  cases marked with
  | true =>
    obtain rfl := Option.some.inj hc
    rfl
  | false => exact not_isDottedChar_of_isSpace (isSpace_of_isBlank (h c hc))

/-- An entry is read part by part: its name, the question mark, its type or the type of the variants, and the
text behind the type. -/
theorem member_append {type variants : Option TypeExpr} {rest left : Text} (hn : MemberName n)
    (hsolid : Solid (n ++ (mark marked ++ tail))) (hblank : ∀ c ∈ tail.head?, isBlank c = true)
    (htail : afterName? tail = some rest) (hrest : type? rest = (type, left)) (ht : type.or variants = some t) :
    member (n ++ (mark marked ++ tail)) variants = .ok ⟨n, t, description? left, marked || t.isOptional⟩ := by
  have hname : ∀ c ∈ (mark marked ++ tail).head?, isNameChar c = false := by
    intro c hc
    by_contra hinside
    have hdotted := isDottedChar_of_isNameChar ((Bool.not_eq_false _).mp hinside)
    rw [head?_mark_append hblank c hc] at hdotted
    cases hdotted
  have hmark : ['?'].isPrefixOf (mark marked ++ tail) = marked := by
    cases marked with
    | true => rfl
    | false =>
      cases tail with
      | nil => rfl
      | cons c v =>
        have hc : ('?' == c) = false := beq_eq_false_iff_ne.2 (ne_of_test (hblank c rfl) rfl).symm
        rw [mark, if_neg Bool.false_ne_true, List.nil_append, List.isPrefixOf, hc]
        rfl
  have hdrop : (if marked then (mark marked ++ tail).drop 1 else mark marked ++ tail) = tail := by
    cases marked <;> rfl
  rw [member, hsolid.trim_eq, hn.entryName?_append hname]
  simp only [hmark, hdrop, htail, hrest, ht]

theorem member_typed (hn : MemberName n) (ht : Canonical t) (hr : AfterType r) (hsolid : Solid (t.print ++ r))
    (variants : Option TypeExpr) :
    member (n ++ (mark marked ++ ' ' :: (t.print ++ r))) variants =
      .ok ⟨n, t, description? r, marked || t.isOptional⟩ := by
  have hwhole : Solid (n ++ (mark marked ++ ' ' :: (t.print ++ r))) := by
    simpa using hn.solid_mark.append [' '] hsolid
  have hafter : afterName? (' ' :: (t.print ++ r)) = some (t.print ++ r) :=
    someBlanks?_append blanks_space (List.cons_ne_nil _ _) ((solid_print ht).unblank r)
  exact member_append hn hwhole (forall_head?_cons rfl) hafter (type?_print ht hr) rfl

/-- What a parameter tag says of a parameter. -/
structure ParamEntry where
  name : Text
  /-- A question mark follows the name. -/
  marked : Bool
  type : TypeExpr
  description : Option Text

namespace ParamEntry

def body (e : ParamEntry) : Text :=
  e.name ++ ((if e.marked then ['?'] else []) ++ ' ' :: (e.type.print ++ spaced e.description))

def member (e : ParamEntry) : Member :=
  ⟨e.name, e.type, e.description, e.marked || e.type.isOptional⟩

/-- An entry that is read back as it was written. -/
structure Readable (e : ParamEntry) : Prop where
  name : EntryName e.name
  type : Canonical e.type
  description : ∀ d ∈ e.description, IsDescription d

variable {e : ParamEntry}

theorem Readable.solid_tail (h : e.Readable) : Solid (e.type.print ++ spaced e.description) :=
  solid_append_spaced (solid_print h.type) h.description

theorem Readable.solid_body (h : e.Readable) : Solid e.body := by
  have hsolid := h.name.solid.append ((if e.marked then ['?'] else []) ++ [' ']) h.solid_tail
  simpa [body] using hsolid

/-- Every part of an entry is read back from the body of its tag. -/
theorem member_body (h : e.Readable) (variants : Option TypeExpr) :
    Tag.member e.body variants = .ok e.member := by
  have hmember : Tag.member e.body variants = .ok ⟨e.name, e.type, _, _⟩ :=
    member_typed (.entry h.name) h.type (afterType_spaced h.description) h.solid_tail variants
  rwa [description?_spaced h.description] at hmember

end ParamEntry

end LuaDocs.Tag

/-! ### Tags on lines -/

namespace LuaDocs

open Text Tag TypeExpr

namespace Directive

variable (directive : Directive) {body tail : Text}

def text (tail : Text) : Text :=
  '@' :: (directive.keyword ++ tail)

def line (tail : Text) : Text :=
  "---".toList ++ directive.text tail

def tagText (body : Text) : Text :=
  '@' :: (directive.keyword ++ ' ' :: body)

def tagLine (body : Text) : Text :=
  "---".toList ++ directive.tagText body

theorem isNameStart_of_mem_keyword (h : directive.isKnown = true) {c : Char} (hc : c ∈ directive.keyword) :
    isNameStart c = true := by
  have hall : directive.keyword.all isNameStart = true := by
    cases directive with
    | other keyword => cases h
    | _ => rfl
  exact List.all_eq_true.1 hall c hc

theorem contains_text (h : directive.isKnown = true) (hfeed : '\n' ∉ tail) :
    (directive.text tail).contains '\n' = false := by
  have hkeyword : '\n' ∉ directive.keyword := fun hc =>
    absurd (directive.isNameStart_of_mem_keyword h hc) (by decide)
  simpa [text, hkeyword] using hfeed

theorem docText?_line (h : directive.isKnown = true) (hfeed : '\n' ∉ tail) :
    Comment.docText? (directive.line tail) = some (directive.text tail) := by
  have hafter : after? "---".toList (skipBlanks (directive.line tail)) = some (directive.text tail) :=
    after?_append "---".toList (directive.text tail)
  rw [Comment.docText?, hafter]
  simp only [directive.contains_text h hfeed, Bool.or_false]
  rfl

/-- A tag is read with the text behind its keyword, where that text does not go on with the keyword. -/
theorem classify_text (h : directive.isKnown = true) (htail : ∀ c ∈ tail.head?, isNameStart c = false)
    (hfeed : '\n' ∉ tail) : LineContent.classify (directive.text tail) = .tag directive (trim tail) := by
  have htag : LineContent.tag? (directive.text tail) = some (.tag directive (trim tail)) := by
    have hkeyword := fun c => directive.isNameStart_of_mem_keyword h (c := c)
    have hafter : after? ['@'] (skipBlanks (directive.text tail)) = some (directive.keyword ++ tail) := rfl
    rw [LineContent.tag?, hafter]
    dsimp only
    rw [takeWhile_append_of_head? hkeyword htail, dropWhile_append_of_head? hkeyword htail]
    cases directive with
    | other keyword => cases h
    | _ => rfl
  rw [LineContent.classify, directive.contains_text h hfeed, if_neg Bool.false_ne_true, htag]
  rfl

theorem not_feed_space (hfeed : '\n' ∉ body) : '\n' ∉ ' ' :: body := by
  simpa using hfeed

theorem docText?_tagLine (h : directive.isKnown = true) (hfeed : '\n' ∉ body) :
    Comment.docText? (directive.tagLine body) = some (directive.tagText body) :=
  directive.docText?_line h (not_feed_space hfeed)

theorem classify_tagText (h : directive.isKnown = true) (hbody : Solid body) (hfeed : '\n' ∉ body) :
    LineContent.classify (directive.tagText body) = .tag directive body := by
  have hspace : ∀ c ∈ (' ' :: body).head?, isNameStart c = false := by
    intro c hc
    obtain rfl := Option.some.inj hc
    rfl
  have hread := directive.classify_text h hspace (not_feed_space hfeed)
  rwa [trim_space, hbody.trim_eq] at hread

end Directive

/-- The block of a tag on a line of its own. -/
theorem Block.ofRun_line {directive : Directive} {tail : Text} (h : directive.isKnown = true)
    (htail : ∀ c ∈ tail.head?, isNameStart c = false) (hfeed : '\n' ∉ tail) (lines : List Text) (first : Nat) :
    ofRun (directive.line tail :: lines) first =
      ⟨.tag directive (trim tail), first⟩ :: ofRun lines (first + 1) := by
  simp [ofRun, directive.docText?_line h hfeed, directive.classify_text h htail hfeed]

theorem Block.ofRun_tagLine {directive : Directive} {body : Text} (h : directive.isKnown = true)
    (hbody : Solid body) (hfeed : '\n' ∉ body) (first : Nat) :
    ofRun [directive.tagLine body] first = [⟨.tag directive body, first⟩] := by
  simp [ofRun, directive.docText?_tagLine h hfeed, directive.classify_tagText h hbody hfeed]

end LuaDocs
