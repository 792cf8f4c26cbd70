import LuaDocs.Declaration.Type
import LuaDocs.Proofs.Declaration.Entry
import LuaDocs.Proofs.Declaration.Segments
import LuaDocs.Proofs.Text.Words

/-!
# Lists of types in tags

The tag of return values and the tag of a class both hold types with commas between them, and they come apart
in different ways. The list in a return tag is read type by type, so a comma inside a type does not end it,
and every list comes back as it was written. The parents of a class are cut at every comma before any of them
is read, so they come back only where no type is written with a comma.
-/

namespace LuaDocs

open Text Tag TypeExpr

/-! ### Written types -/

theorem not_mem_join_print {c : Char} {ts : List TypeExpr} (hc : c ∉ ", ".toList) (h : ∀ t ∈ ts, c ∉ t.print) :
    c ∉ join ", ".toList (ts.map print) :=
  not_mem_join hc (List.forall_mem_map.2 h)

theorem solid_join_print {ts : List TypeExpr} (hne : ts ≠ []) (hts : ∀ t ∈ ts, Canonical t) :
    Solid (join ", ".toList (ts.map print)) :=
  solid_join _ (List.forall_mem_map.2 fun t ht => solid_print (hts t ht)) (List.map_eq_nil_iff.not.2 hne)

/-! ### Return values -/

namespace Tag

variable {s r : Text} {t : TypeExpr} {ts : List TypeExpr}

theorem reads_leading?_print (hs : trimStart s = t.print ++ r) (ht : Canonical t) (hr : AfterType r) :
    Reads (leading? s) t r := by
  refine reads_leading?.2 (.inl ?_)
  rw [hs]
  exact ht.reads.1 r hr.stop

/-- Where a type ends at a comma, the list goes on after it. -/
theorem typeList_more {w : Text} (hread : Reads (leading? s) t (',' :: w)) (hw : typeList w = .ok (ts, r)) :
    typeList s = .ok (t :: ts, r) := by
  obtain ⟨_, hread⟩ := hread
  obtain ⟨_, hcomma⟩ : Leaves (closing? ',' (',' :: w)) w := leaves_closing?_append blank_nil rfl
  rw [typeList, hread]
  dsimp only
  rw [hcomma]
  dsimp only
  rw [hw]
  rfl

theorem typeList_last (hread : Reads (leading? s) t r) (hr : ',' ∉ (trimStart r).head?) :
    typeList s = .ok ([t], r) := by
  obtain ⟨_, hread⟩ := hread
  rw [typeList, hread]
  dsimp only
  rw [closing?_eq_none_iff.2 hr]

/-- Every type of a list is read up to its own end, since what follows it continues no type. -/
theorem typeList_join (hne : ts ≠ []) (hts : ∀ t ∈ ts, Canonical t) (hr : AfterType r)
    (hcomma : ',' ∉ (trimStart r).head?) (hs : trimStart s = join ", ".toList (ts.map print) ++ r) :
    typeList s = .ok (ts, r) := by
  induction ts generalizing s with
  | nil => exact absurd rfl hne
  | cons t ts ih =>
    obtain ⟨ht, hts⟩ := List.forall_mem_cons.1 hts
    cases ts with
    | nil =>
      rw [List.map_cons, List.map_nil, join_singleton] at hs
      exact typeList_last (reads_leading?_print hs ht hr) hcomma
    | cons u us =>
      let rest := join ", ".toList ((u :: us).map print) ++ r
      have hs' : trimStart s = t.print ++ ',' :: ' ' :: rest := by
        rw [hs, List.map_cons, List.map_cons, join_cons_cons]
        simp [rest]
      have hrest : trimStart (' ' :: rest) = rest := by
        rw [trimStart_space]
        exact (solid_join_print (List.cons_ne_nil u us) hts).trimStart_append r
      have htail := ih (List.cons_ne_nil u us) hts hrest
      exact typeList_more (reads_leading?_print hs' ht (.inr (.inl rfl))) htail

end Tag

/-- What a return tag says of the values of a function. -/
structure ReturnList where
  types : List TypeExpr
  /-- The description of the last value. -/
  description : Option Text

namespace ReturnList

variable {l : ReturnList}

def body (l : ReturnList) : Text :=
  join ", ".toList (l.types.map print) ++ spaced l.description

def values (l : ReturnList) : List ReturnValue :=
  l.types.dropLast.map (⟨·, none⟩) ++ l.types.getLast?.toList.map (⟨·, l.description⟩)

/-- A list that is read back as it was written. -/
structure Readable (l : ReturnList) : Prop where
  ne_nil : l.types ≠ []
  types : ∀ t ∈ l.types, Canonical t
  description : ∀ d ∈ l.description, IsDescription d
  comma : ∀ d ∈ l.description, ',' ∉ d.head?

theorem Readable.solid_body (h : l.Readable) : Solid l.body :=
  solid_append_spaced (solid_join_print h.ne_nil h.types) h.description

theorem Readable.typeList_body (h : l.Readable) : typeList l.body = .ok (l.types, spaced l.description) := by
  have hcomma : ',' ∉ (trimStart (spaced l.description)).head? := by
    cases hd : l.description with
    | none => exact nofun
    | some d =>
      rw [Tag.spaced, trimStart_space, (h.description d hd).solid.trimStart_eq]
      exact h.comma d hd
  exact typeList_join h.ne_nil h.types (afterType_spaced h.description) hcomma h.solid_body.trimStart_eq

/-- The body opens with a type, so no variants are asked for one. -/
theorem Readable.type?_body (h : l.Readable) : ∃ t r, type? l.body = (some t, r) := by
  obtain ⟨t, ts, hts⟩ := List.exists_cons_of_ne_nil h.ne_nil
  have ht : Canonical t := h.types t (by rw [hts]; exact List.mem_cons_self)
  cases ts with
  | nil =>
    refine ⟨t, spaced l.description, ?_⟩
    rw [body, hts, List.map_cons, List.map_nil, join_singleton]
    exact type?_print ht (afterType_spaced h.description)
  | cons u us =>
    rw [body, hts, List.map_cons, List.map_cons, join_cons_cons, List.append_assoc]
    exact ⟨t, _, type?_print ht (.inr (.inl rfl))⟩

theorem Readable.returnValues_body (h : l.Readable) (variants : Option TypeExpr) :
    returnValues l.body variants = .ok l.values := by
  obtain ⟨t, r, htype⟩ := h.type?_body
  have hlast : l.types = l.types.dropLast ++ [l.types.getLast h.ne_nil] :=
    (List.dropLast_append_getLast h.ne_nil).symm
  have hvalues : describeLast l.types l.description = l.values := by
    rw [hlast, describeLast_concat, values, List.getLast?_eq_some_getLast h.ne_nil]
    rfl
  rw [returnValues, htype]
  dsimp only
  rw [h.typeList_body]
  exact congrArg Except.ok ((congrArg _ (description?_spaced h.description)).trans hvalues)

end ReturnList

/-- A return tag adds the values of its list to whatever has been read, and nothing else. Alone above a
function it gives exactly these values and no report: all reports there are complain of parameters without a
tag. On a line of its own it is such a block. -/
theorem FunctionDoc.ofBlock_returnList {l : ReturnList} (h : l.Readable) :
    (∀ (d : FunctionDraft) (here : Location) (variants : Option TypeExpr),
      d.addTag here .returns l.body variants =
        { d with
          returns := d.returns ++ l.values
          target := .returnValue ((d.returns ++ l.values).length - 1) }) ∧
      (∀ (n : Nat) (signature : Signature) (location : Location),
        (ofBlock [⟨.tag .returns l.body, n⟩] signature location).1.returns = l.values ∧
          (ofBlock [⟨.tag .returns l.body, n⟩] signature location).2 =
            (Signature.mismatches [] signature.params).map
              (.signatureMismatch location (Signature.lastPart signature.declaredName))) ∧
      ('\n' ∉ l.body → ∀ n,
        Block.ofRun [Directive.returns.tagLine l.body] n = [⟨.tag .returns l.body, n⟩]) := by
  have hadd : ∀ (d : FunctionDraft) (here : Location) (variants : Option TypeExpr),
      d.addTag here .returns l.body variants =
        { d with
          returns := d.returns ++ l.values
          target := .returnValue ((d.returns ++ l.values).length - 1) } := by
    intro d here variants
    rw [FunctionDraft.addTag, h.returnValues_body]
  refine ⟨hadd, fun n signature location => ?_, Block.ofRun_tagLine rfl h.solid_body⟩
  have hread : FunctionDraft.empty.read location.file [⟨.tag .returns l.body, n⟩] =
      { FunctionDraft.empty with
        returns := l.values
        target := .returnValue (l.values.length - 1) } :=
    hadd .empty ⟨location.file, n⟩ none
  rw [ofBlock, hread]
  exact ⟨rfl, rfl⟩

/-- Commas and colons inside a type, and a description that has both. -/
theorem FunctionDoc.ofBlock_returnList_nested :
    (ofBlock (Block.ofRun ["---@return fun(a: any, b?: nil): table<string, Foo>, nil first, or: none".toList] 1)
        ⟨"f".toList, false, false, []⟩ ⟨"a.lua".toList, 2⟩).1.returns =
      [⟨.function [("a".toList, .builtin .any), ("b?".toList, .builtin .nil)]
          [.container "table".toList [.builtin .string, .named "Foo".toList]], none⟩,
        ⟨.builtin .nil, some "first, or: none".toList⟩] := by
  have hname : Canonical (.named "Foo".toList) :=
    .named (ident_of_all rfl rfl (by decide)) (by decide) (by decide) (by decide)
  have hcontainer : Canonical (.container "table".toList [.builtin .string, .named "Foo".toList]) :=
    .container (ident_of_all rfl rfl (by decide)) (List.cons_ne_nil _ _)
      (List.forall_mem_cons.2 ⟨.builtin .string, List.forall_mem_singleton.2 hname⟩)
  have hplain : ParamName "a".toList := .required (ident_of_all rfl rfl (by decide))
  have hmarked : ParamName "b?".toList := .optional (n := "b".toList) (ident_of_all rfl rfl (by decide))
  have hfunction : Canonical (.function [("a".toList, .builtin .any), ("b?".toList, .builtin .nil)]
      [.container "table".toList [.builtin .string, .named "Foo".toList]]) :=
    .function (List.forall_mem_cons.2 ⟨hplain, List.forall_mem_singleton.2 hmarked⟩)
      (List.forall_mem_cons.2 ⟨.builtin .any, List.forall_mem_singleton.2 (.builtin .nil)⟩) (Nat.le_refl 1)
      (List.forall_mem_singleton.2 hcontainer)
  have hdescription : IsDescription "first, or: none".toList := by
    refine ⟨⟨⟨'f', rfl, rfl⟩, 'e', rfl, rfl⟩, fun c hc => ?_⟩
    obtain rfl : 'f' = c := Option.some.inj hc
    decide
  have hreadable : ReturnList.Readable ⟨[.function [("a".toList, .builtin .any), ("b?".toList, .builtin .nil)]
      [.container "table".toList [.builtin .string, .named "Foo".toList]], .builtin .nil],
      some "first, or: none".toList⟩ := by
    refine ⟨List.cons_ne_nil _ _,
      List.forall_mem_cons.2 ⟨hfunction, List.forall_mem_singleton.2 (.builtin .nil)⟩, ?_, ?_⟩
    · intro d hd
      obtain rfl := Option.some.inj hd
      exact hdescription
    · intro d hd
      obtain rfl := Option.some.inj hd
      decide
  obtain ⟨-, hblock, hline⟩ := ofBlock_returnList hreadable
  obtain ⟨hreturns, -⟩ := hblock 1 ⟨"f".toList, false, false, []⟩ ⟨"a.lua".toList, 2⟩
  rw [← hline (by decide) 1] at hreturns
  exact hreturns

/-! ### Parents of a class -/

theorem flatMap_eq_self_iff {α : Type} {f : α → List α} {as : List α} (hne : ∀ a ∈ as, f a ≠ []) :
    as.flatMap f = as ↔ ∀ a ∈ as, f a = [a] := by
  have hlength : ∀ {bs : List α}, (∀ a ∈ bs, f a ≠ []) → bs.length ≤ (bs.flatMap f).length := by
    intro bs hbs
    induction bs with
    | nil => exact Nat.le_refl 0
    | cons b bs ih =>
      obtain ⟨hb, hbs⟩ := List.forall_mem_cons.1 hbs
      have hpos := List.length_pos_iff.2 hb
      have htail := ih hbs
      rw [List.flatMap_cons, List.length_append, List.length_cons]
      omega
  induction as with
  | nil => simp
  | cons a as ih =>
    obtain ⟨ha, has⟩ := List.forall_mem_cons.1 hne
    have htail : as.flatMap f = as ↔ ∀ a ∈ as, f a = [a] := ih has
    rw [List.forall_mem_cons, ← htail, List.flatMap_cons]
    constructor
    · intro h
      obtain ⟨x, xs, hx⟩ := List.exists_cons_of_ne_nil ha
      rw [hx, List.cons_append] at h
      obtain ⟨rfl, hrest⟩ := List.cons.inj h
      have hshort : xs.length + (as.flatMap f).length = as.length := by
        rw [← List.length_append, hrest]
      have hlong := hlength has
      obtain rfl : xs = [] := List.length_eq_zero_iff.1 (by omega)
      exact ⟨hx, hrest⟩
    · rintro ⟨hfa, hrest⟩
      rw [hfa, hrest, List.singleton_append]

/-- The name of a class: a letter or `_`, then letters, digits, `_` and points. -/
inductive ClassName : Text → Prop
  | mk {c : Char} {v : Text} (hstart : isNameStart c) (hinside : ∀ d ∈ v, isDottedChar d) : ClassName (c :: v)

theorem ClassName.isDottedChar_of_mem {n : Text} {c : Char} (h : ClassName n) (hc : c ∈ n) : isDottedChar c := by
  obtain ⟨hstart, hinside⟩ := h
  rcases List.mem_cons.1 hc with rfl | hc
  · exact isDottedChar_of_isNameStart hstart
  · exact hinside c hc

theorem ClassName.solid {n : Text} (h : ClassName n) : Solid n := by
  have hne : n ≠ [] := by
    obtain ⟨-, -⟩ := h
    exact List.cons_ne_nil _ _
  exact solid_of_forall hne fun _ hc => not_isSpace_of_isDottedChar (h.isDottedChar_of_mem hc)

namespace Tag

variable {n s w : Text} {t : TypeExpr} {ts : List TypeExpr}

theorem parentTypes_append_cons (s w : Text) : parentTypes (s ++ ',' :: w) = parentTypes s ++ parentTypes w := by
  simp only [parentTypes, splitOn_append_cons, List.map_append, List.filter_append]

theorem parentTypes_of_not_mem (hs : ',' ∉ s) (hne : trim s ≠ []) : parentTypes s = [parse (trim s)] := by
  rw [parentTypes, splitOn_of_not_mem hs]
  simp [hne]

theorem parentTypes_space (s : Text) : parentTypes (' ' :: s) = parentTypes s := by
  obtain ⟨part, parts, hparts⟩ := List.exists_cons_of_ne_nil (splitOn_ne_nil ',' s)
  have hsplit : splitOn ',' (' ' :: s) = (' ' :: part) :: parts := by
    rw [splitOn] at hparts
    rw [splitOn, splitWhere, hparts]
    rfl
  rw [parentTypes, parentTypes, hsplit, hparts, List.map_cons, List.map_cons, trim_space]

/-- Cutting at commas never takes parts of two types together. -/
theorem parentTypes_join (ts : List TypeExpr) :
    parentTypes (join ", ".toList (ts.map print)) = ts.flatMap fun t => parentTypes t.print := by
  induction ts with
  | nil => rfl
  | cons t ts ih =>
    cases ts with
    | nil => rw [List.map_cons, List.map_nil, join_singleton, List.flatMap_singleton]
    | cons u us =>
      have hcut : parentTypes (t.print ++ (", ".toList ++ join ", ".toList ((u :: us).map print))) =
          parentTypes t.print ++ parentTypes (' ' :: join ", ".toList ((u :: us).map print)) :=
        parentTypes_append_cons t.print (' ' :: join ", ".toList ((u :: us).map print))
      rw [List.map_cons, List.map_cons, join_cons_cons, ← List.map_cons, hcut, parentTypes_space, ih]
      rfl

/-- A text that can go on to a longer type, after text that continues no type, is no type itself. -/
theorem not_derives_of_reads_append {q r : Text} (h : ReadsType (q ++ r) t []) (hr : Stop r) (hne : r ≠ []) :
    ¬ Derives .union q := by
  intro hq
  obtain ⟨u, hu⟩ := hq.accepted.isItem r hr
  exact hne (h.unique hu).2.symm

theorem exists_append_trim (hs : ∀ c ∈ s.head?, isSpace c = false) : ∃ b, Blank b ∧ s = trim s ++ b := by
  have htrim : trim s = trimEnd s := by
    cases s with
    | nil => rfl
    | cons c v => exact congrArg trimEnd (trimStart_cons_of_not_isSpace (hs c rfl))
  rw [htrim]
  exact exists_append_trimEnd s

/-- What stands in front of a comma in a type is no type, since a type is read up to its own end and the comma
lies before that end. -/
theorem opaque_of_comma {q : Text} (ht : Canonical t) (hprint : t.print = q ++ ',' :: s) :
    trim q ≠ [] ∧ ¬ Derives .union (trim q) := by
  have hread : ReadsType (q ++ ',' :: s) t [] := by
    have hread := ht.reads.1 [] stop_nil
    rwa [List.append_nil, hprint] at hread
  have hhead : ∀ c ∈ q.head?, isSpace c = false := by
    intro c hc
    obtain ⟨v, rfl⟩ := mem_head?_iff.1 hc
    have hsolid := solid_print ht
    rw [hprint] at hsolid
    obtain ⟨⟨d, hd, hspace⟩, -⟩ := hsolid
    obtain rfl := Option.some.inj hd
    exact hspace
  obtain ⟨b, hb, hq⟩ := exists_append_trim hhead
  constructor
  · intro hnil
    rw [hnil, List.nil_append] at hq
    cases q with
    | nil => exact (opening_of_readsType hread).2 rfl
    | cons c v =>
      have hblank := hb c (hq ▸ List.mem_cons_self)
      rw [hhead c rfl] at hblank
      cases hblank
  · rw [hq, List.append_assoc] at hread
    exact not_derives_of_reads_append hread (stop_blank_append hb (by decide))
      (List.append_ne_nil_of_right_ne_nil b (List.cons_ne_nil _ _))

/-- A type with a comma in it is cut into pieces, and the first of them is kept as a name. -/
theorem parentTypes_of_comma (ht : Canonical t) (hcomma : ',' ∈ t.print) :
    ∃ q rest, ',' ∉ q ∧ parentTypes t.print = .named q :: rest := by
  obtain ⟨q, s, hprint, hq⟩ := List.eq_append_cons_of_mem hcomma
  obtain ⟨hne, hopaque⟩ := opaque_of_comma ht hprint
  have hname : parse (trim q) = .named (trim q) := by
    rw [parse_eq_named (by rwa [trim_trim]), trim_trim]
  refine ⟨trim q, parentTypes s, fun h => hq ?_, ?_⟩
  · exact (List.dropWhile_sublist _).mem ((List.rdropWhile_prefix _ _).mem h)
  · rw [hprint, parentTypes_append_cons, parentTypes_of_not_mem hq hne, hname, List.singleton_append]

theorem parentTypes_print_ne_nil (ht : Canonical t) : parentTypes t.print ≠ [] := by
  by_cases hcomma : ',' ∈ t.print
  · obtain ⟨q, rest, -, hparents⟩ := parentTypes_of_comma ht hcomma
    rw [hparents]
    exact List.cons_ne_nil _ _
  · have hsolid := solid_print ht
    rw [parentTypes_of_not_mem hcomma (by rw [hsolid.trim_eq]; exact hsolid.ne_nil)]
    exact List.cons_ne_nil _ _

theorem parentTypes_print_iff (ht : Canonical t) : parentTypes t.print = [t] ↔ ',' ∉ t.print := by
  constructor
  · intro h hcomma
    obtain ⟨q, rest, hq, hparents⟩ := parentTypes_of_comma ht hcomma
    obtain ⟨rfl, -⟩ := List.cons.inj (hparents.symm.trans h)
    exact hq hcomma
  · intro hcomma
    have hsolid := solid_print ht
    rw [parentTypes_of_not_mem hcomma (by rw [hsolid.trim_eq]; exact hsolid.ne_nil), hsolid.trim_eq,
      ht.parse_print]

def parentsBody (n : Text) (ts : List TypeExpr) : Text :=
  n ++ (" : ".toList ++ join ", ".toList (ts.map print))

theorem classHead?_parentsBody (hn : ClassName n) (hne : ts ≠ []) (hts : ∀ t ∈ ts, Canonical t) :
    classHead? (parentsBody n ts) = some ⟨n, [], ts.flatMap fun t => parentTypes t.print⟩ := by
  let list := join ", ".toList (ts.map print)
  have hsolid : Solid list := solid_join_print hne hts
  have hparents : classParents? (" : ".toList ++ list) = some (ts.flatMap fun t => parentTypes t.print) := by
    have hlist : skipBlanks (' ' :: list) = list := by
      have hunblank := hsolid.unblank []
      rw [List.append_nil] at hunblank
      exact skipBlanks_append blanks_space hunblank
    have hcolon : classParents? (" : ".toList ++ list) = some (parentTypes (skipBlanks (' ' :: list))) := rfl
    rw [hcolon, hlist, parentTypes_join]
  obtain ⟨hstart, hinside⟩ := hn
  rename_i c v
  have hremark : skipRemark? (c :: v ++ (" : ".toList ++ list)) = some (c :: v ++ (" : ".toList ++ list)) := by
    have hparen : after? ['('] (c :: v ++ (" : ".toList ++ list)) = none :=
      after?_cons_of_ne (ne_of_test hstart rfl).symm
    rw [skipRemark?, hparen]
  have hname : name? isDottedChar (c :: v ++ (" : ".toList ++ list)) = some (c :: v, " : ".toList ++ list) := by
    have hend : ∀ d ∈ (" : ".toList ++ list).head?, isDottedChar d = false := by
      intro d hd
      obtain rfl := Option.some.inj hd
      decide
    exact name?_append hstart hinside hend
  have hgenerics : classGenerics? (" : ".toList ++ list) = some ([], " : ".toList ++ list) := rfl
  change classHead? (c :: v ++ (" : ".toList ++ list)) = _
  simp only [classHead?, hremark, hname, hgenerics, hparents, Option.bind_eq_bind, Option.bind_some]
  rfl

theorem solid_parentsBody (hn : ClassName n) (hne : ts ≠ []) (hts : ∀ t ∈ ts, Canonical t) :
    Solid (parentsBody n ts) := by
  rw [parentsBody, ← List.append_assoc]
  exact hn.solid.append " : ".toList (solid_join_print hne hts)

theorem not_mem_parentsBody (hn : ClassName n) (hfeed : ∀ t ∈ ts, '\n' ∉ t.print) : '\n' ∉ parentsBody n ts := by
  intro h
  rcases List.mem_append.1 h with h | h
  · exact absurd (hn.isDottedChar_of_mem h) (by decide)
  · rcases List.mem_append.1 h with h | h
    · exact absurd h (by decide)
    · exact not_mem_join_print (by decide) hfeed h

end Tag

def TypeDoc.withParents (n : Text) (parents : List TypeExpr) (location : Location) : TypeDoc :=
  ⟨n, [], .record parents [], [], location⟩

theorem FileDocs.ofBlock_classLine {n : Text} {ts : List TypeExpr} (hn : ClassName n) (hne : ts ≠ [])
    (hts : ∀ t ∈ ts, Canonical t) (hfeed : ∀ t ∈ ts, '\n' ∉ t.print) (first : Nat) (source : Option Text)
    (file : Text) (decl : Nat) :
    ofBlock (Block.ofRun [Directive.record.tagLine (parentsBody n ts)] first) source file decl =
      (⟨[], [TypeDoc.withParents n (ts.flatMap fun t => parentTypes t.print) ⟨file, first⟩]⟩, []) := by
  have hadd : TypesDraft.empty.addTag ⟨file, first⟩ .record (parentsBody n ts) none =
      TypesDraft.empty.close.start ⟨file, first⟩ n []
        (.record (ts.flatMap fun t => parentTypes t.print) []) := by
    rw [TypesDraft.addTag, classHead?_parentsBody hn hne hts]
  have hread : TypesDraft.empty.read file [⟨.tag .record (parentsBody n ts), first⟩] = _ := hadd
  have htag : Block.hasTag [⟨.tag .record (parentsBody n ts), first⟩] .record = true := rfl
  rw [Block.ofRun_tagLine rfl (solid_parentsBody hn hne hts) (not_mem_parentsBody hn hfeed), ofBlock, htag,
    Bool.true_or, if_pos rfl, TypeDoc.ofBlock, hread]
  rfl

/-- A class with some parents in its tag has what their written forms are cut into at their commas. These are
the parents themselves only where no written form has a comma. -/
theorem FileDocs.ofBlock_parents {n : Text} {ts : List TypeExpr} (hn : ClassName n) (hne : ts ≠ [])
    (hts : ∀ t ∈ ts, Canonical t) (hfeed : ∀ t ∈ ts, '\n' ∉ t.print) (first : Nat) (source : Option Text)
    (file : Text) (decl : Nat) :
    ofBlock (Block.ofRun [Directive.record.tagLine (parentsBody n ts)] first) source file decl =
        (⟨[], [TypeDoc.withParents n (ts.flatMap fun t => parentTypes t.print) ⟨file, first⟩]⟩, []) ∧
      ((ts.flatMap fun t => parentTypes t.print) = ts ↔ ∀ t ∈ ts, ',' ∉ t.print) := by
  refine ⟨ofBlock_classLine hn hne hts hfeed first source file decl, ?_⟩
  rw [flatMap_eq_self_iff fun t ht => parentTypes_print_ne_nil (hts t ht)]
  exact forall₂_congr fun t ht => parentTypes_print_iff (hts t ht)

/-- The line `---@class M.N : Base, string[]`. -/
theorem FileDocs.ofBlock_parents_plain :
    ofBlock (Block.ofRun ["---@class M.N : Base, string[]".toList] 1) none "a.lua".toList 1 =
      (⟨[], [TypeDoc.withParents "M.N".toList [.named "Base".toList, .array (.builtin .string)]
        ⟨"a.lua".toList, 1⟩]⟩, []) := by
  have hname : ClassName "M.N".toList := .mk (c := 'M') (v := ".N".toList) rfl (List.all_eq_true.1 rfl)
  have hbase : Canonical (.named "Base".toList) :=
    .named (ident_of_all rfl rfl (by decide)) (by decide) (by decide) (by decide)
  obtain ⟨hclass, hsame⟩ := ofBlock_parents hname (List.cons_ne_nil _ _)
    (List.forall_mem_cons.2 ⟨hbase, List.forall_mem_singleton.2 (.array (.builtin .string))⟩) (by decide) 1 none
    "a.lua".toList 1
  rw [hsame.2 (by decide)] at hclass
  exact hclass

/-- The one parent in the line `---@class N : table<string, number>` comes back as two, neither of them a type
of the grammar. -/
theorem FileDocs.ofBlock_parents_cut :
    Canonical (.container "table".toList [.builtin .string, .builtin .number]) ∧
      Directive.record.tagLine (parentsBody "N".toList
        [.container "table".toList [.builtin .string, .builtin .number]]) =
          "---@class N : table<string, number>".toList ∧
      ofBlock (Block.ofRun ["---@class N : table<string, number>".toList] 1) none "a.lua".toList 1 =
        (⟨[], [TypeDoc.withParents "N".toList [.named "table<string".toList, .named "number>".toList]
          ⟨"a.lua".toList, 1⟩]⟩, []) := by
  have hname : ClassName "N".toList := .mk (c := 'N') (v := []) rfl nofun
  have htable : Canonical (.container "table".toList [.builtin .string, .builtin .number]) :=
    .container (ident_of_all rfl rfl (by decide)) (List.cons_ne_nil _ _)
      (List.forall_mem_cons.2 ⟨.builtin .string, List.forall_mem_singleton.2 (.builtin .number)⟩)
  have hclass := ofBlock_classLine hname (List.cons_ne_nil _ _) (List.forall_mem_singleton.2 htable) (by decide) 1
    none "a.lua".toList 1
  have hopen : parse "table<string".toList = .named "table<string".toList :=
    parse_eq_named (not_derives_of_reads_append (htable.reads.1 [] stop_nil) (stop_cons (by decide))
      (List.cons_ne_nil _ _))
  have hclose : parse "number>".toList = .named "number>".toList := by
    have hnumber : Canonical (.builtin .number) := .builtin .number
    have hread : ReadsType "number>".toList (.builtin .number) ['>'] :=
      hnumber.reads.1 ['>'] (stop_cons (by decide))
    refine parse_eq_named fun h => ?_
    obtain ⟨u, hu⟩ := reads_whole_iff.2 h
    exact List.cons_ne_nil _ _ (hread.unique hu).2
  have hparents : parentTypes "table<string, number>".toList =
      [.named "table<string".toList, .named "number>".toList] :=
    calc
      parentTypes "table<string, number>".toList
        = parentTypes "table<string".toList ++ parentTypes " number>".toList :=
          parentTypes_append_cons "table<string".toList " number>".toList
      _ = [parse "table<string".toList] ++ [parse "number>".toList] := by
          rw [parentTypes_of_not_mem (by decide) (by decide), parentTypes_of_not_mem (by decide) (by decide)]
          rfl
      _ = [.named "table<string".toList, .named "number>".toList] := by rw [hopen, hclose]; rfl
  have hflat : [TypeExpr.container "table".toList [.builtin .string, .builtin .number]].flatMap
      (fun t => parentTypes t.print) = [.named "table<string".toList, .named "number>".toList] :=
    (List.flatMap_singleton _ _).trans hparents
  rw [hflat] at hclass
  exact ⟨htable, rfl, hclass⟩

end LuaDocs
