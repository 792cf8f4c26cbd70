import LuaDocs.Proofs.Text.Lines
import LuaDocs.Section.Basic
import Mathlib.Data.List.Basic

/-!
# Texts with several sections

A text in which some sections stand side by side, each between two lines that only mark it. `Cut` says
where one section stands: it comes first of its kind and no marker stands inside. A splice then changes
the body of that section and nothing else, and as long as the new body holds no marker, all other
sections still stand where they stood.
-/

namespace LuaDocs

open Text

variable {ls before body after : List Text} {x y : Text} {closed : Bool}

/-! ### Marker lines -/

def anchored (w : Text) : Text :=
  '^' :: w ++ ['$']

/-- The two lines between which a section stands. -/
structure Bounds where
  start : Text
  stop : Text
  deriving DecidableEq

namespace Bounds

variable {b : Bounds}

def markers (b : Bounds) : Markers :=
  ⟨anchored b.start, anchored b.stop⟩

/-- The markers are matched by the lines themselves. -/
structure Literal [MarkerLanguage] (b : Bounds) : Prop where
  start : MarkerLanguage.compile (anchored b.start) = .ok (· == b.start)
  stop : MarkerLanguage.compile (anchored b.stop) = .ok (· == b.stop)

theorem compile_start [MarkerLanguage] (h : b.Literal) :
    Markers.compile b.markers.start = .ok (· == b.start) := by
  rw [Markers.compile, markers, h.start]
  rfl

theorem compile_stop [MarkerLanguage] (h : b.Literal) :
    Markers.compile b.markers.stop = .ok (· == b.stop) := by
  rw [Markers.compile, markers, h.stop]
  rfl

/-- No line of one section's bounds is one of the other's. -/
structure Apart (b c : Bounds) : Prop where
  start_start : b.start ≠ c.start
  start_stop : b.start ≠ c.stop
  stop_start : b.stop ≠ c.start
  stop_stop : b.stop ≠ c.stop

instance (b c : Bounds) : Decidable (Apart b c) :=
  decidable_of_iff
    (b.start ≠ c.start ∧ b.start ≠ c.stop ∧ b.stop ≠ c.start ∧ b.stop ≠ c.stop)
    ⟨fun ⟨h₁, h₂, h₃, h₄⟩ => ⟨h₁, h₂, h₃, h₄⟩, fun ⟨h₁, h₂, h₃, h₄⟩ => ⟨h₁, h₂, h₃, h₄⟩⟩

def Bare (all : List Bounds) (ls : List Text) : Prop :=
  ∀ b ∈ all, b.start ∉ ls ∧ b.stop ∉ ls

instance (all : List Bounds) (ls : List Text) : Decidable (Bare all ls) :=
  inferInstanceAs (Decidable (∀ b ∈ all, _ ∧ _))

end Bounds

open Bounds

/-! ### Splicing a text -/

def linesOf (body : List Text) : List Text :=
  body.flatMap (splitOn '\n')

theorem unlines_linesOf (ls : List Text) : unlines (linesOf ls) = unlines ls := by
  induction ls with
  | nil => rfl
  | cons l ls ih =>
    cases ls with
    | nil => rw [linesOf, List.flatMap_singleton, unlines, unlines, join_splitOn, join_singleton]
    | cons k ks =>
      have hne : linesOf (k :: ks) ≠ [] := by
        intro h
        exact splitOn_ne_nil '\n' k (List.append_eq_nil_iff.1 h).1
      have hsplit : linesOf (l :: k :: ks) = splitOn '\n' l ++ linesOf (k :: ks) := rfl
      rw [hsplit, unlines, join_append (splitOn_ne_nil _ _) hne, join_splitOn, ← unlines, ih,
        unlines, unlines, join_cons_cons]

theorem not_mem_of_mem_linesOf (h : x ∈ linesOf ls) : '\n' ∉ x :=
  let ⟨_, _, hsplit⟩ := List.mem_flatMap.1 h
  not_mem_of_mem_splitOn hsplit

theorem linesOf_append (ls ms : List Text) : linesOf (ls ++ ms) = linesOf ls ++ linesOf ms := by
  simp [linesOf]

theorem linesOf_of_isLine (h : ∀ l ∈ ls, '\n' ∉ l) : linesOf ls = ls := by
  induction ls with
  | nil => rfl
  | cons l ls ih =>
    obtain ⟨hl, hls⟩ := List.forall_mem_cons.1 h
    rw [linesOf, List.flatMap_cons, splitOn_of_not_mem hl, ← linesOf, ih hls]
    rfl

theorem cutAt?_eq {p : Text → Bool} (hbefore : ∀ l ∈ before, p l = false) (hx : p x = true) :
    SectionSplit.cutAt? p (before ++ x :: after) = some (before, x, after) := by
  have hskip : ∀ l ∈ before, (!p l) = true := fun l hl => by simp [hbefore l hl]
  rw [SectionSplit.cutAt?, List.dropWhile_append_of_pos hskip, List.takeWhile_append_of_pos hskip]
  simp [hx]

theorem cutAt?_eq_none {p : Text → Bool} (h : ∀ l ∈ ls, p l = false) :
    SectionSplit.cutAt? p ls = none := by
  have hskip : ∀ l ∈ ls, (!p l) = true := fun l hl => by simp [h l hl]
  have hdrop : (ls ++ []).dropWhile (!p ·) = ([] : List Text).dropWhile (!p ·) :=
    List.dropWhile_append_of_pos hskip
  rw [List.append_nil, List.dropWhile_nil] at hdrop
  rw [SectionSplit.cutAt?, hdrop]

namespace Bounds

variable {b c : Bounds} {all : List Bounds}

theorem beq_eq_false_of_not_mem {w : Text} (h : w ∉ ls) : ∀ l ∈ ls, (l == w) = false := by
  intro l hl
  rw [beq_eq_false_iff_ne]
  rintro rfl
  exact h hl

variable [MarkerLanguage]

theorem ofLines_eq (hb : b.Literal) (hstart : b.start ∉ before) (hstop : b.stop ∉ body) :
    SectionSplit.ofLines b.markers (before ++ b.start :: (body ++ b.stop :: after)) =
      .ok ⟨before ++ [b.start], body, b.stop :: after⟩ := by
  simp only [SectionSplit.ofLines, compile_start hb, compile_stop hb, bind, Except.bind,
    cutAt?_eq (beq_eq_false_of_not_mem hstart) (beq_self_eq_true b.start),
    cutAt?_eq (beq_eq_false_of_not_mem hstop) (beq_self_eq_true b.stop)]
  rfl

theorem ofLines_absent (hb : b.Literal) (h : b.start ∉ ls) :
    SectionSplit.ofLines b.markers ls = .error (.missingStart b.markers.start) := by
  simp only [SectionSplit.ofLines, compile_start hb, compile_stop hb, bind, Except.bind,
    cutAt?_eq_none (beq_eq_false_of_not_mem h)]
  rfl

theorem splice_absent (hb : b.Literal) (hls : Lined ls closed) (h : b.start ∉ ls)
    (new : List Text) :
    b.markers.splice (written ls closed) new = .error (.missingStart b.markers.start) := by
  simp only [Markers.splice, lines_written hls, ofLines_absent hb h, bind, Except.bind]

theorem occurs_eq (hb : b.Literal) (text : Text) :
    Markers.occurs b.markers.start text = .ok ((lines text).contains b.start) := by
  rw [Markers.occurs, compile_start hb]
  have hany : (lines text).any (· == b.start) = (lines text).contains b.start := by
    rw [Bool.eq_iff_iff, List.any_eq_true, List.contains_iff_mem]
    simp
  exact congrArg Except.ok hany

end Bounds

/-- Where a section stands in some lines: it is the first one that its start marks, and no marker of any
section stands inside. -/
structure Cut (all : List Bounds) (b : Bounds) (ls before body after : List Text) : Prop where
  eq : ls = before ++ b.start :: (body ++ b.stop :: after)
  first : b.start ∉ before
  bare : Bare all body

namespace Cut

variable {b c : Bounds} {all : List Bounds} {before' body' after' new : List Text}

theorem append_cons_eq {α : Type} {as bs cs ds : List α} {x y : α}
    (h : as ++ x :: bs = cs ++ y :: ds) (hxy : x ≠ y) :
    (∃ ms, cs = as ++ x :: ms ∧ bs = ms ++ y :: ds) ∨
      ∃ ms, as = cs ++ y :: ms ∧ ds = ms ++ x :: bs := by
  obtain ⟨ms, hcs, hms⟩ | ⟨ms, has, hms⟩ := List.append_eq_append_iff.1 h
  · cases ms with
    | nil =>
      obtain ⟨rfl, -⟩ := List.cons.inj hms
      exact absurd rfl hxy
    | cons m ms =>
      obtain ⟨rfl, hbs⟩ := List.cons.inj hms
      exact .inl ⟨ms, hcs, hbs⟩
  · cases ms with
    | nil =>
      obtain ⟨rfl, -⟩ := List.cons.inj hms
      exact absurd rfl hxy
    | cons m ms =>
      obtain ⟨rfl, hds⟩ := List.cons.inj hms
      exact .inr ⟨ms, has, hds⟩

/-- The section with another body. -/
theorem withBody (h : Cut all b ls before body after) (hnew : Bare all new) :
    Cut all b (before ++ b.start :: (new ++ b.stop :: after)) before new after :=
  ⟨rfl, h.first, hnew⟩

/-- Another section stands where it stood. -/
theorem other (h : Cut all b ls before body after) (h' : Cut all c ls before' body' after')
    (hb : b ∈ all) (hc : c ∈ all) (hapart : Apart b c) (hnew : Bare all new) :
    ∃ before'' after'',
      Cut all c (before ++ b.start :: (new ++ b.stop :: after)) before'' body' after'' := by
  have heq := h.eq.symm.trans h'.eq
  obtain ⟨ms, hbefore', hrest⟩ | ⟨ms, hbefore, hrest⟩ := append_cons_eq heq hapart.start_start
  · obtain ⟨ns, hms, hafter⟩ | ⟨ns, hbody, -⟩ := append_cons_eq hrest hapart.stop_start
    · refine ⟨before ++ b.start :: (new ++ b.stop :: ns), after', ?_, ?_, h'.bare⟩
      · rw [hafter]
        simp
      · have hfirst := h'.first
        rw [hbefore', hms] at hfirst
        simp only [List.mem_append, List.mem_cons, not_or] at hfirst ⊢
        exact ⟨hfirst.1, hfirst.2.1, (hnew c hc).1, hapart.stop_start.symm, hfirst.2.2.2.2⟩
    · refine absurd ?_ (h.bare c hc).1
      simp [hbody]
  · obtain ⟨ns, hms, hafter⟩ | ⟨ns, hbody, -⟩ := append_cons_eq hrest hapart.start_stop.symm
    · refine ⟨before', ns ++ b.start :: (new ++ b.stop :: after), ?_, h'.first, h'.bare⟩
      rw [hbefore, hms]
      simp
    · refine absurd ?_ (h'.bare b hb).1
      simp [hbody]

theorem absent (h : Cut all b ls before body after) (hc : c ∈ all) (hnew : Bare all new)
    (habsent : c.start ∉ ls) :
    c.start ∉ before ++ b.start :: (new ++ b.stop :: after) := by
  rw [h.eq] at habsent
  simp only [List.mem_append, List.mem_cons, not_or] at habsent ⊢
  exact ⟨habsent.1, habsent.2.1, (hnew c hc).1, habsent.2.2.2⟩

/-- A splice puts the lines of the new body in the place of the old one. -/
theorem splice_written [MarkerLanguage] (h : Cut all b ls before body after) (hb : b ∈ all)
    (hlit : b.Literal) (hls : Lined ls closed) (new : List Text) :
    b.markers.splice (written ls closed) new =
      .ok (written (before ++ b.start :: (linesOf new ++ b.stop :: after)) closed) := by
  have hsplit : SectionSplit.ofLines b.markers ls =
      .ok ⟨before ++ [b.start], body, b.stop :: after⟩ := by
    rw [h.eq]
    exact ofLines_eq hlit h.first (h.bare b hb).2
  have hfeed : ∀ l ∈ ls, '\n' ∉ l := fun l hl => (hls.isLine l hl).1
  rw [h.eq] at hfeed
  simp only [List.forall_mem_append, List.forall_mem_cons] at hfeed
  obtain ⟨hbefore, hstart, -, hstop, hafter⟩ := hfeed
  have hlines : linesOf (before ++ [b.start] ++ new ++ b.stop :: after) =
      before ++ b.start :: (linesOf new ++ b.stop :: after) := by
    rw [linesOf_append, linesOf_append, linesOf_append, linesOf_of_isLine hbefore,
      linesOf_of_isLine (List.forall_mem_singleton.2 hstart),
      linesOf_of_isLine (List.forall_mem_cons.2 ⟨hstop, hafter⟩)]
    simp
  have hunlines := unlines_linesOf (before ++ [b.start] ++ new ++ b.stop :: after)
  rw [hlines] at hunlines
  simp only [Markers.splice, lines_written hls, endsWith_written hls, hsplit, bind, Except.bind,
    SectionSplit.withBody, ← hunlines]
  rfl

theorem bodyOf_written [MarkerLanguage] (h : Cut all b ls before body after) (hb : b ∈ all)
    (hlit : b.Literal) (hls : Lined ls closed) : b.markers.bodyOf (written ls closed) = .ok body := by
  simp only [Markers.bodyOf, lines_written hls, bind, Except.bind]
  rw [h.eq, ofLines_eq hlit h.first (h.bare b hb).2]
  rfl

theorem lined (h : Cut all b ls before body after) (hls : Lined ls closed)
    (hnew : ∀ l ∈ new, IsLine l) :
    Lined (before ++ b.start :: (new ++ b.stop :: after)) closed := by
  have hparts (ms : List Text) : before ++ b.start :: (ms ++ b.stop :: after) =
      (before ++ [b.start]) ++ ms ++ b.stop :: after := by
    simp
  rw [h.eq, hparts] at hls
  rw [hparts]
  exact hls.replace (List.cons_ne_nil b.stop after) hnew

end Cut

/-! ### Texts with sections apart from each other -/

section

variable [MarkerLanguage]

/-- A line matches a marker. -/
def Matches (marker line : Text) : Prop :=
  ∃ isMatch, Markers.compile marker = .ok isMatch ∧ isMatch line = true

/-- Some line, told by its number, matches a marker. -/
def StandsAt (ls : List Text) (marker : Text) (i : Nat) : Prop :=
  ∃ line, ls[i]? = some line ∧ Matches marker line

/-- Some lines with some sections: every marker matches at most one line, the markers of a section stand
in order or not at all, and no two sections overlap. -/
structure Sectioned (sections : List Markers) (ls : List Text) : Prop where
  once : ∀ m ∈ sections, ∀ marker ∈ [m.start, m.stop], ∀ i j,
    StandsAt ls marker i → StandsAt ls marker j → i = j
  paired : ∀ m ∈ sections, (∀ i, ¬StandsAt ls m.start i ∧ ¬StandsAt ls m.stop i) ∨
    ∃ i j, i < j ∧ StandsAt ls m.start i ∧ StandsAt ls m.stop j
  apart : ∀ m ∈ sections, ∀ n ∈ sections, m ≠ n → ∀ i j k l,
    StandsAt ls m.start i → StandsAt ls m.stop j → StandsAt ls n.start k → StandsAt ls n.stop l →
    j < k ∨ l < i

/-- No line of some texts matches a marker of the sections, and none has a carriage return. -/
def Unmarked (sections : List Markers) (body : List Text) : Prop :=
  ∀ line ∈ linesOf body, '\r' ∉ line ∧ ∀ m ∈ sections, ¬Matches m.start line ∧ ¬Matches m.stop line

end

namespace Bounds

variable {b c : Bounds} {all : List Bounds} {i : Nat} {w : Text}

section

variable [MarkerLanguage]

theorem matches_start (h : b.Literal) (line : Text) :
    Matches b.markers.start line ↔ line = b.start := by
  simp [Matches, compile_start h]

theorem matches_stop (h : b.Literal) (line : Text) :
    Matches b.markers.stop line ↔ line = b.stop := by
  simp [Matches, compile_stop h]

theorem standsAt_start (h : b.Literal) : StandsAt ls b.markers.start i ↔ ls[i]? = some b.start := by
  simp [StandsAt, matches_start h]

theorem standsAt_stop (h : b.Literal) : StandsAt ls b.markers.stop i ↔ ls[i]? = some b.stop := by
  simp [StandsAt, matches_stop h]

theorem unmarked_iff (hlit : ∀ b ∈ all, b.Literal) :
    Unmarked (all.map markers) body ↔ Bare all (linesOf body) ∧ ∀ l ∈ linesOf body, '\r' ∉ l := by
  constructor
  · intro h
    refine ⟨fun b hb => ⟨fun hmem => ?_, fun hmem => ?_⟩, fun l hl => (h l hl).1⟩
    · exact ((h _ hmem).2 _ (List.mem_map_of_mem hb)).1 ((matches_start (hlit b hb) _).2 rfl)
    · exact ((h _ hmem).2 _ (List.mem_map_of_mem hb)).2 ((matches_stop (hlit b hb) _).2 rfl)
  · rintro ⟨hbare, hreturn⟩ l hl
    refine ⟨hreturn l hl, fun m hm => ?_⟩
    obtain ⟨b, hb, rfl⟩ := List.mem_map.1 hm
    rw [matches_start (hlit b hb), matches_stop (hlit b hb)]
    exact ⟨fun h => (hbare b hb).1 (h ▸ hl), fun h => (hbare b hb).2 (h ▸ hl)⟩

end

theorem anchored_injective : Function.Injective anchored := by
  intro v w h
  simpa [anchored] using h

theorem markers_injective : Function.Injective markers := by
  intro b c h
  have hstart : b.start = c.start := anchored_injective (congrArg Markers.start h)
  have hstop : b.stop = c.stop := anchored_injective (congrArg Markers.stop h)
  cases b
  cases c
  exact (mk.injEq ..).mpr ⟨hstart, hstop⟩

/-- The lines of the bounds of some sections stand as `Sectioned` has it of markers. -/
structure Placed (all : List Bounds) (ls : List Text) : Prop where
  start_once : ∀ b ∈ all, ∀ i j : Nat, ls[i]? = some b.start → ls[j]? = some b.start → i = j
  stop_once : ∀ b ∈ all, ∀ i j : Nat, ls[i]? = some b.stop → ls[j]? = some b.stop → i = j
  paired : ∀ b ∈ all, (∀ i : Nat, ls[i]? ≠ some b.start ∧ ls[i]? ≠ some b.stop) ∨
    ∃ i j : Nat, i < j ∧ ls[i]? = some b.start ∧ ls[j]? = some b.stop
  apart : ∀ b ∈ all, ∀ c ∈ all, b ≠ c → ∀ i j k l : Nat, ls[i]? = some b.start →
    ls[j]? = some b.stop → ls[k]? = some c.start → ls[l]? = some c.stop → j < k ∨ l < i

theorem sectioned_iff [MarkerLanguage] (hlit : ∀ b ∈ all, b.Literal) :
    Sectioned (all.map markers) ls ↔ Placed all ls := by
  have hstart {b : Bounds} (hb : b ∈ all) (i : Nat) :
      StandsAt ls b.markers.start i ↔ ls[i]? = some b.start := standsAt_start (hlit b hb)
  have hstop {b : Bounds} (hb : b ∈ all) (i : Nat) :
      StandsAt ls b.markers.stop i ↔ ls[i]? = some b.stop := standsAt_stop (hlit b hb)
  constructor
  · intro h
    have hmem {b : Bounds} (hb : b ∈ all) : b.markers ∈ all.map markers := List.mem_map_of_mem hb
    constructor
    case start_once =>
      intro b hb i j
      simpa only [hstart hb] using h.once _ (hmem hb) b.markers.start (by simp) i j
    case stop_once =>
      intro b hb i j
      simpa only [hstop hb] using h.once _ (hmem hb) b.markers.stop (by simp) i j
    case paired =>
      intro b hb
      simpa only [hstart hb, hstop hb] using h.paired _ (hmem hb)
    case apart =>
      intro b hb c hc hbc
      have hne : b.markers ≠ c.markers := fun heq => hbc (markers_injective heq)
      simpa only [hstart hb, hstop hb, hstart hc, hstop hc] using
        h.apart _ (hmem hb) _ (hmem hc) hne
  · intro h
    constructor
    case once =>
      intro m hm marker hmarker i j
      obtain ⟨b, hb, rfl⟩ := List.mem_map.1 hm
      simp only [List.mem_cons, List.not_mem_nil, or_false] at hmarker
      obtain rfl | rfl := hmarker
      · simpa only [hstart hb] using h.start_once b hb i j
      · simpa only [hstop hb] using h.stop_once b hb i j
    case paired =>
      intro m hm
      obtain ⟨b, hb, rfl⟩ := List.mem_map.1 hm
      simpa only [hstart hb, hstop hb] using h.paired b hb
    case apart =>
      intro m hm n hn hmn
      obtain ⟨b, hb, rfl⟩ := List.mem_map.1 hm
      obtain ⟨c, hc, rfl⟩ := List.mem_map.1 hn
      have hbc : b ≠ c := fun heq => hmn (congrArg markers heq)
      simpa only [hstart hb, hstop hb, hstart hc, hstop hc] using h.apart b hb c hc hbc

theorem eq_take_append {α : Type} {ls : List α} {x : α} (h : ls[i]? = some x) :
    ls = ls.take i ++ x :: ls.drop (i + 1) := by
  obtain ⟨hi, rfl⟩ := List.getElem?_eq_some_iff.1 h
  rw [← List.drop_eq_getElem_cons hi, List.take_append_drop]

theorem mem_between {α : Type} {ls : List α} {x : α} {i j : Nat}
    (h : x ∈ (ls.drop (i + 1)).take (j - (i + 1))) : ∃ k, i < k ∧ k < j ∧ ls[k]? = some x := by
  obtain ⟨k, hk⟩ := List.mem_iff_getElem?.1 h
  rw [List.getElem?_take] at hk
  split at hk
  · next hlt =>
    rw [List.getElem?_drop] at hk
    exact ⟨i + 1 + k, by omega, by omega, hk⟩
  · cases hk

namespace Placed

variable {j : Nat}

/-- No marker stands inside a section: it would be a second one of this section, or its section would
overlap with this one. -/
theorem inside (h : Placed all ls) (hb : b ∈ all) (hstart : ls[i]? = some b.start)
    (hstop : ls[j]? = some b.stop) (hc : c ∈ all) {k : Nat} (hik : i < k) (hkj : k < j) :
    ls[k]? ≠ some c.start ∧ ls[k]? ≠ some c.stop := by
  by_cases hbc : b = c
  · subst hbc
    constructor
    · intro hk
      have := h.start_once b hb i k hstart hk
      omega
    · intro hk
      have := h.stop_once b hb j k hstop hk
      omega
  · obtain hnone | ⟨i', j', hij', hstart', hstop'⟩ := h.paired c hc
    · exact hnone k
    have hapart := h.apart b hb c hc hbc i j i' j' hstart hstop hstart' hstop'
    constructor
    · intro hk
      have := h.start_once c hc i' k hstart' hk
      omega
    · intro hk
      have := h.stop_once c hc j' k hstop' hk
      omega

/-- A section of such lines is missing, or it can be cut out. -/
theorem cut (h : Placed all ls) (hb : b ∈ all) :
    b.start ∉ ls ∨ ∃ before body after, Cut all b ls before body after := by
  obtain hnone | ⟨i, j, hij, hstart, hstop⟩ := h.paired b hb
  · left
    intro hmem
    obtain ⟨i, hi⟩ := List.mem_iff_getElem?.1 hmem
    exact (hnone i).1 hi
  right
  have hrest : (ls.drop (i + 1))[j - (i + 1)]? = some b.stop := by
    rw [List.getElem?_drop]
    have : i + 1 + (j - (i + 1)) = j := by omega
    rw [this, hstop]
  refine ⟨ls.take i, (ls.drop (i + 1)).take (j - (i + 1)),
    (ls.drop (i + 1)).drop (j - (i + 1) + 1), ?_, ?_, ?_⟩
  · rw [← eq_take_append hrest]
    exact eq_take_append hstart
  · intro hmem
    obtain ⟨k, hk⟩ := List.mem_iff_getElem?.1 hmem
    rw [List.getElem?_take] at hk
    split at hk
    · have := h.start_once b hb i k hstart hk
      omega
    · cases hk
  · intro c hc
    constructor
    · intro hmem
      obtain ⟨k, hik, hkj, hk⟩ := mem_between hmem
      exact (h.inside hb hstart hstop hc hik hkj).1 hk
    · intro hmem
      obtain ⟨k, hik, hkj, hk⟩ := mem_between hmem
      exact (h.inside hb hstart hstop hc hik hkj).2 hk

end Placed

end Bounds

end LuaDocs
