import LuaDocs.Proofs.Render.Contents
import Mathlib.Data.List.Forall2
import Mathlib.Data.Nat.Bits

/-!
# Headings and blocks of code

A heading is listed in the table of contents unless a block of code is open in front of it. A block is
opened by a fence, and here any fence closes it, whether its kind is that of the first or the other. So a
fence of one kind in a block of the other ends the block for the table, what follows counts as text, and the
fence that closes the block opens another. Where blocks hold no fences, the table lists exactly the headings
outside of them.
-/

namespace LuaDocs.Contents

open Text

variable {l t : Text} {ls ms : List Text} {fenced : Bool} {slugs : List Text}
  {closes : Text → Text → Bool}

/-! ### Lines between fences -/

/-- Whether an odd number of lines open or close a block of code. -/
def togglesFence (ls : List Text) : Bool :=
  (ls.countP isFence).bodd

theorem togglesFence_append (ls ms : List Text) :
    togglesFence (ls ++ ms) = (togglesFence ls ^^ togglesFence ms) := by
  rw [togglesFence, List.countP_append, Nat.bodd_add]
  rfl

theorem togglesFence_cons (l : Text) (ls : List Text) :
    togglesFence (l :: ls) = (isFence l ^^ togglesFence ls) := by
  rw [← List.singleton_append, togglesFence_append]
  cases h : isFence l <;> simp [togglesFence, h]

def Entry.heading (e : Entry) : Nat × Text :=
  (e.level, e.title)

def headingsFrom (fenced : Bool) : List Text → List (Nat × Text)
  | [] => []
  | l :: ls => (if isFence l || fenced then [] else (heading? l).toList) ++
      headingsFrom (fenced ^^ isFence l) ls

theorem heading_entriesFrom (fenced : Bool) (slugs ls : List Text) :
    (entriesFrom fenced slugs ls).map Entry.heading = headingsFrom fenced ls := by
  -- Only anchors depend on the slugs before, so these may be any.
  induction ls generalizing fenced slugs with
  | nil => rfl
  | cons l ls ih =>
    rw [entriesFrom, headingsFrom]
    cases isFence l with
    | true => simp [ih]
    | false =>
      cases fenced with
      | true => simp [ih]
      | false =>
        cases heading? l with
        | none => simp [ih]
        | some p => simp [ih, Entry.heading]

theorem headingsFrom_append (fenced : Bool) (ls ms : List Text) :
    headingsFrom fenced (ls ++ ms) =
      headingsFrom fenced ls ++ headingsFrom (fenced ^^ togglesFence ls) ms := by
  induction ls generalizing fenced with
  | nil =>
    change headingsFrom fenced ms = headingsFrom (fenced ^^ false) ms
    rw [Bool.xor_false]
  | cons l ls ih =>
    rw [List.cons_append, headingsFrom, ih, headingsFrom, togglesFence_cons, List.append_assoc,
      Bool.xor_assoc]

theorem headingsFrom_eq_nil (fenced : Bool) (h : ∀ l ∈ ls, heading? l = none) :
    headingsFrom fenced ls = [] := by
  induction ls generalizing fenced with
  | nil => rfl
  | cons l ls ih =>
    obtain ⟨hl, hls⟩ := List.forall_mem_cons.1 h
    rw [headingsFrom, ih _ hls, hl, List.append_nil]
    exact ite_self []

theorem headingsFrom_dropTrailingEmpty (fenced : Bool) (ls : List Text) :
    headingsFrom fenced (dropTrailingEmpty ls) = headingsFrom fenced ls := by
  obtain ⟨empties, hempties, hls⟩ := exists_append_dropTrailingEmpty ls
  have hnone : ∀ l ∈ empties, heading? l = none := by
    intro l hl
    rw [hempties l hl]
    rfl
  conv => rhs; rw [hls, headingsFrom_append, headingsFrom_eq_nil _ hnone, List.append_nil]

theorem togglesFence_of_quiet (h : Quiet ls) : togglesFence ls = false := by
  rw [togglesFence, List.countP_eq_zero.2 fun l hl => by simp [(h l hl).1]]
  rfl

def isPlain (c : Char) : Bool :=
  !(isBlank c || c == '\x60' || c == '~' || c == '#')

theorem quiet_cons {c : Char} (hc : isPlain c = true) (s : Text) :
    isFence (c :: s) = false ∧ heading? (c :: s) = none := by
  simp only [isPlain, Bool.not_eq_true', Bool.or_eq_false_iff, beq_eq_false_iff_ne] at hc
  obtain ⟨⟨⟨hblank, htick⟩, htilde⟩, hhash⟩ := hc
  have hskip : skipBlanks (c :: s) = c :: s := List.dropWhile_cons_of_neg (by simp [hblank])
  constructor
  · rw [isFence, hskip, Bool.or_eq_false_iff]
    exact ⟨by simp [List.isPrefixOf, htick.symm], by simp [List.isPrefixOf, htilde.symm]⟩
  · rw [heading?, List.takeWhile_cons_of_neg (by simpa using hhash)]
    rfl

/-! ### Blocks of code -/

/-- The fence of a line that can open or close a block of code. -/
def fence? (line : Text) : Option Text :=
  ["\x60\x60\x60".toList, "~~~".toList].find? (·.isPrefixOf (skipBlanks line))

theorem isFence_eq (l : Text) : isFence l = (fence? l).isSome := by
  rw [isFence, fence?]
  cases hticks : "\x60\x60\x60".toList.isPrefixOf (skipBlanks l) <;>
    cases htildes : "~~~".toList.isPrefixOf (skipBlanks l) <;>
    simp only [List.find?, hticks, htildes] <;> rfl

/-- A line outside of blocks of code, or a block with the line that opens it and the lines it holds. -/
inductive Region
  | line (l : Text)
  | block (opening : Text) (body : List Text)

/-- The regions of some lines. A block is opened by a fence, and ends with the next line that `closes` what
the fence has opened, or with the last line. -/
def regions (closes : Text → Text → Bool) : List Text → List Region
  | [] => []
  | l :: ls =>
    if isFence l then
      .block l (ls.takeWhile (!closes l ·)) :: regions closes ((ls.dropWhile (!closes l ·)).drop 1)
    else .line l :: regions closes ls
termination_by ls => ls.length
decreasing_by
  · have hrest := (List.dropWhile_sublist (l := ls) (!closes l ·)).length_le
    rw [List.length_drop, List.length_cons]
    omega
  · exact Nat.lt_succ_self _

def Region.line? : Region → Option Text
  | .line l => some l
  | .block _ _ => none

def outside (closes : Text → Text → Bool) (ls : List Text) : List Text :=
  (regions closes ls).filterMap Region.line?

/-- The fence that closes a block is of the kind that opened it. -/
def sameFence (opening line : Text) : Bool :=
  fence? line == fence? opening

def anyFence (_ line : Text) : Bool :=
  isFence line

def Region.HoldsNoFence : Region → Prop
  | .line _ => True
  | .block _ body => ∀ l ∈ body, isFence l = false

/-- No block of code holds a fence. One that does holds it of the other kind only. -/
def Unmixed (ls : List Text) : Prop :=
  ∀ r ∈ regions sameFence ls, r.HoldsNoFence

theorem outside_cons_of_isFence (h : isFence l = true) :
    outside closes (l :: ls) = outside closes ((ls.dropWhile (!closes l ·)).drop 1) := by
  rw [outside, regions, if_pos h]
  rfl

theorem outside_cons_of_not_isFence (h : isFence l = false) :
    outside closes (l :: ls) = l :: outside closes ls := by
  rw [outside, regions, if_neg (by simp [h])]
  rfl

/-- In a block nothing is listed up to the next fence. -/
theorem headingsFrom_true (ls : List Text) :
    headingsFrom true ls = headingsFrom false ((ls.dropWhile (!isFence ·)).drop 1) := by
  induction ls with
  | nil => rfl
  | cons l ls ih =>
    rw [headingsFrom, Bool.or_true, if_pos rfl, List.nil_append]
    cases hl : isFence l with
    | true =>
      rw [List.dropWhile_cons_of_neg (by simp [hl])]
      rfl
    | false =>
      rw [List.dropWhile_cons_of_pos (by simp [hl]), ← ih]
      rfl

theorem headingsFrom_false (ls : List Text) :
    headingsFrom false ls = (outside anyFence ls).filterMap heading? := by
  fun_induction regions anyFence ls with
  | case1 =>
    rw [outside, regions]
    rfl
  | case2 l ls hl ih =>
    rw [outside_cons_of_isFence hl, ← ih, headingsFrom, hl]
    exact headingsFrom_true ls
  | case3 l ls hl ih =>
    rw [Bool.not_eq_true] at hl
    rw [outside_cons_of_not_isFence hl, List.filterMap_cons, ← ih, headingsFrom, hl]
    cases heading? l <;> rfl

/-- A test and a stricter one cut lines alike if and only if both accept all lines in front of the cut. -/
theorem takeWhile_eq_takeWhile_iff {p q : Text → Bool} (hqp : ∀ l, q l = true → p l = true) :
    ls.takeWhile p = ls.takeWhile q ↔ ∀ l ∈ ls.takeWhile p, q l = true := by
  constructor
  · intro h l hl
    rw [h] at hl
    exact List.mem_takeWhile_imp hl
  · intro h
    induction ls with
    | nil => rfl
    | cons l ls ih =>
      by_cases hl : p l = true
      · rw [List.takeWhile_cons_of_pos hl, List.forall_mem_cons] at h
        rw [List.takeWhile_cons_of_pos hl, List.takeWhile_cons_of_pos h.1, ih h.2]
      · rw [List.takeWhile_cons_of_neg hl, List.takeWhile_cons_of_neg (mt (hqp l) hl)]

theorem dropWhile_eq_dropWhile {p q : Text → Bool} (h : ls.takeWhile p = ls.takeWhile q) :
    ls.dropWhile p = ls.dropWhile q := by
  have hsame : ls.takeWhile p ++ ls.dropWhile p = ls.takeWhile p ++ ls.dropWhile q := by
    rw [List.takeWhile_append_dropWhile, h, List.takeWhile_append_dropWhile]
  exact List.append_cancel_left hsame

theorem isFence_of_sameFence (hl : isFence l = true) (h : sameFence l t = true) : isFence t = true := by
  rw [isFence_eq] at hl ⊢
  rwa [beq_iff_eq.1 h]

/-- Any fence ends a block where one of the same kind does, if and only if the block holds no fence. -/
theorem body_eq_iff (hl : isFence l = true) :
    ls.takeWhile (!sameFence l ·) = ls.takeWhile (!anyFence l ·) ↔
      ∀ m ∈ ls.takeWhile (!sameFence l ·), isFence m = false := by
  have hstricter : ∀ m, (!anyFence l m) = true → (!sameFence l m) = true := by
    intro m hm
    rw [Bool.not_eq_true'] at hm ⊢
    exact Bool.eq_false_iff.2 fun hsame => Bool.eq_false_iff.1 hm (isFence_of_sameFence hl hsame)
  rw [takeWhile_eq_takeWhile_iff hstricter]
  simp only [anyFence, Bool.not_eq_true']

/-- The two ways to close blocks divide lines alike if and only if no block holds a fence. -/
theorem regions_eq_iff (ls : List Text) :
    regions sameFence ls = regions anyFence ls ↔ Unmixed ls := by
  rw [Unmixed]
  fun_induction regions sameFence ls with
  | case1 => simp [regions]
  | case2 l ls hl ih =>
    rw [regions, if_pos hl, List.cons.injEq, Region.block.injEq, List.forall_mem_cons, ← ih,
      and_iff_right rfl, body_eq_iff hl]
    refine and_congr_right fun hbody => ?_
    rw [dropWhile_eq_dropWhile ((body_eq_iff hl).2 hbody)]
  | case3 l ls hl ih =>
    rw [regions, if_neg hl, List.cons.injEq, List.forall_mem_cons, ← ih, and_iff_right rfl]
    exact (and_iff_right trivial).symm

/-! ### Entries -/

/-- A line is a heading of some level with some title. -/
def IsHeadingLine (line : Text) : Prop :=
  ∃ level title, IsHeading level title line

theorem isHeadingLine_iff : IsHeadingLine l ↔ (heading? l).isSome = true := by
  simp only [IsHeadingLine, Option.isSome_iff_exists, Prod.exists, heading?_eq_some_iff]

instance : DecidablePred IsHeadingLine :=
  fun _ => decidable_of_iff _ isHeadingLine_iff.symm

/-- The line of a heading in a table of contents: two spaces for every level below the second, and a link
that shows the title. -/
def IsEntryOf (heading entry : Text) : Prop :=
  ∃ level title anchor, IsHeading level title heading ∧
    entry = spaces (2 * (level - 2)) ++ "- [".toList ++ title ++ "](#".toList ++ anchor ++ [')']

theorem forall₂_isEntryOf {es : List Entry} (h : es.map Entry.heading = ls.filterMap heading?) :
    List.Forall₂ IsEntryOf (ls.filter (IsHeadingLine ·)) (es.map Entry.line) := by
  induction ls generalizing es with
  | nil =>
    obtain rfl := List.map_eq_nil_iff.1 h
    exact .nil
  | cons l ls ih =>
    cases hl : heading? l with
    | none =>
      rw [List.filterMap_cons_none hl] at h
      rw [List.filter_cons_of_neg (by simp [isHeadingLine_iff, hl])]
      exact ih h
    | some p =>
      rw [List.filterMap_cons_some hl] at h
      obtain ⟨e, es, rfl, rfl, hes⟩ := List.map_eq_cons_iff.1 h
      rw [List.filter_cons_of_pos (by simp [isHeadingLine_iff, hl])]
      exact .cons ⟨e.level, e.title, e.anchor, heading?_eq_some_iff.1 hl, rfl⟩ (ih hes)

/-- The table of contents lists, in order, the headings outside of blocks of code where any fence closes a
block. These blocks are the ones that a fence of the same kind closes if and only if none of those holds a
fence; and then the headings outside of those are listed. -/
theorem generate_listed (ls : List Text) :
    List.Forall₂ IsEntryOf ((outside anyFence ls).filter (IsHeadingLine ·)) (generate ls) ∧
      (regions sameFence ls = regions anyFence ls ↔ Unmixed ls) ∧
      (Unmixed ls →
        List.Forall₂ IsEntryOf ((outside sameFence ls).filter (IsHeadingLine ·)) (generate ls)) := by
  have hall : List.Forall₂ IsEntryOf ((outside anyFence ls).filter (IsHeadingLine ·)) (generate ls) :=
    forall₂_isEntryOf ((heading_entriesFrom false [] ls).trans (headingsFrom_false ls))
  refine ⟨hall, regions_eq_iff ls, fun hunmixed => ?_⟩
  rwa [outside, (regions_eq_iff ls).2 hunmixed]

/-- A heading in a block of code that holds a fence of the other kind. -/
theorem generate_mixed :
    let ls := ["\x60\x60\x60", "~~~", "## A", "\x60\x60\x60"].map String.toList
    generate ls = ["- [A](#a)".toList] ∧ outside sameFence ls = [] ∧
      ¬List.Forall₂ IsEntryOf ((outside sameFence ls).filter (IsHeadingLine ·)) (generate ls) := by
  intro ls
  have hgenerate : generate ls = ["- [A](#a)".toList] := by decide +kernel
  have houtside : outside sameFence ls = [] := by cbv
  refine ⟨hgenerate, houtside, ?_⟩
  rw [hgenerate, houtside]
  intro hentries
  cases hentries

end LuaDocs.Contents
