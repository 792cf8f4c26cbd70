import LuaDocs.Proofs.Section.Document

/-!
# The parts of a text with sections

A text whose sections stand apart from each other is a row of parts: lines that mark nothing, and whole
sections. A splice gives one of the sections another body. As the parts stay where they are, several
splices one after another come to one row of parts with the newest body in each section.
-/

namespace LuaDocs

open Text Bounds

variable {all : List Bounds} {b c : Bounds} {ls before body after new : List Text}
  {l : Text} {closed : Bool}

inductive Part where
  /-- A line outside of all sections. -/
  | line (text : Text)
  | sec (b : Bounds) (body : List Text)

namespace Part

def lines : Part → List Text
  | line text => [text]
  | sec b body => b.start :: (body ++ [b.stop])

def bounds? : Part → Option Bounds
  | line _ => none
  | sec b _ => some b

/-- The part with the body that some edits give its section. The first edit of a section counts. -/
def withBodies (edits : List (Bounds × List Text)) : Part → Part
  | line text => line text
  | sec b body => sec b ((edits.lookup b).getD body)

@[simp] theorem bounds?_withBodies (edits : List (Bounds × List Text)) (part : Part) :
    (part.withBodies edits).bounds? = part.bounds? := by
  cases part <;> rfl

theorem withBodies_nil (part : Part) : part.withBodies [] = part := by
  cases part <;> rfl

theorem withBodies_withBodies (edits older : List (Bounds × List Text)) (part : Part) :
    (part.withBodies older).withBodies edits = part.withBodies (edits ++ older) := by
  cases part with
  | line text => rfl
  | sec b body =>
    rw [withBodies, withBodies, withBodies, List.lookup_append]
    cases edits.lookup b <;> rfl

theorem withBodies_of_ne {part : Part} (h : part.bounds? ≠ some b) (new : List Text) :
    part.withBodies [(b, new)] = part := by
  cases part with
  | line text => rfl
  | sec c body =>
    have hne : (c == b) = false := beq_eq_false_iff_ne.2 fun hcb => h (congrArg some hcb)
    simp only [withBodies, List.lookup_cons, hne, List.lookup_nil, Option.getD_none]

end Part

def edited (parts : List Part) (edits : List (Bounds × List Text)) : List Text :=
  (parts.map (Part.withBodies edits)).flatMap Part.lines

theorem map_withBodies_nil (parts : List Part) : parts.map (Part.withBodies []) = parts := by
  rw [List.map_congr_left fun part _ => Part.withBodies_nil part, List.map_id']

theorem map_withBodies (parts : List Part) (edits older : List (Bounds × List Text)) :
    (parts.map (Part.withBodies older)).map (Part.withBodies edits) =
      parts.map (Part.withBodies (edits ++ older)) := by
  rw [List.map_map]
  exact List.map_congr_left fun part _ => Part.withBodies_withBodies edits older part

theorem edited_nil (parts : List Part) : edited parts [] = parts.flatMap Part.lines := by
  rw [edited, map_withBodies_nil]

theorem edited_map_withBodies (parts : List Part) (edits older : List (Bounds × List Text)) :
    edited (parts.map (Part.withBodies older)) edits = edited parts (edits ++ older) := by
  rw [edited, map_withBodies, edited]

/-- Lines that are made of some parts: no marker stands outside of the bounds of its section, and no
section stands there twice. -/
structure Parted (all : List Bounds) (ls : List Text) (parts : List Part) : Prop where
  eq : ls = parts.flatMap Part.lines
  line : ∀ text, .line text ∈ parts → Bare all [text]
  sec : ∀ b body, .sec b body ∈ parts → b ∈ all ∧ Bare all body
  once : (parts.filterMap Part.bounds?).Nodup

namespace Parted

variable {parts : List Part}

/-- The markers of a section stand in the lines of the section only. -/
theorem absent (h : Parted all ls parts) (hapart : ∀ b ∈ all, ∀ c ∈ all, b ≠ c → Apart b c)
    (hb : b ∈ all) {rest : List Part} (hrest : rest ⊆ parts) (hnone : ∀ body, .sec b body ∉ rest) :
    b.start ∉ rest.flatMap Part.lines ∧ b.stop ∉ rest.flatMap Part.lines := by
  have hpart : ∀ part ∈ rest, b.start ∉ part.lines ∧ b.stop ∉ part.lines := by
    intro part hpart
    cases part with
    | line text => exact h.line text (hrest hpart) b hb
    | sec c body =>
      have hne : b ≠ c := by
        rintro rfl
        exact hnone body hpart
      obtain ⟨hc, hbare⟩ := h.sec c body (hrest hpart)
      obtain ⟨hstart, hstart', hstop, hstop'⟩ := hapart b hb c hc hne
      simp [Part.lines, hbare b hb, hstart, hstart', hstop, hstop']
  simp only [List.mem_flatMap, not_exists, not_and]
  exact ⟨fun part hmem => (hpart part hmem).1, fun part hmem => (hpart part hmem).2⟩

theorem ne_of_append {front back : List Part} (h : Parted all ls (front ++ .sec b body :: back)) :
    ∀ part ∈ front ++ back, part.bounds? ≠ some b := by
  have honce := h.once
  have hbounds : (Part.sec b body).bounds? = some b := rfl
  rw [List.filterMap_append, List.filterMap_cons_some hbounds] at honce
  obtain ⟨hnot, -⟩ := List.nodup_cons.1 (List.perm_middle.nodup_iff.1 honce)
  rw [← List.filterMap_append] at hnot
  intro part hpart hbounds
  exact hnot (List.mem_filterMap.2 ⟨part, hpart, hbounds⟩)

/-- A section among the parts can be cut out, and its body is all that an edit of it changes. -/
theorem cut (h : Parted all ls parts) (hapart : ∀ b ∈ all, ∀ c ∈ all, b ≠ c → Apart b c)
    (hsec : .sec b body ∈ parts) :
    ∃ before after, Cut all b ls before body after ∧
      ∀ new, edited parts [(b, new)] = before ++ b.start :: (new ++ b.stop :: after) := by
  obtain ⟨hb, hbare⟩ := h.sec b body hsec
  obtain ⟨front, back, rfl⟩ := List.append_of_mem hsec
  have hne := h.ne_of_append
  have hsame (rest : List Part) (hrest : rest ⊆ front ++ back) (new : List Text) :
      rest.map (Part.withBodies [(b, new)]) = rest := by
    have hpart : ∀ part ∈ rest, part.withBodies [(b, new)] = part :=
      fun part hpart => Part.withBodies_of_ne (hne part (hrest hpart)) new
    rw [List.map_congr_left hpart, List.map_id']
  refine ⟨front.flatMap Part.lines, back.flatMap Part.lines, ⟨?_, ?_, hbare⟩, fun new => ?_⟩
  · rw [h.eq]
    simp [Part.lines]
  · refine (h.absent hapart hb (List.subset_append_left front _) fun body' hmem => ?_).1
    exact hne _ (List.mem_append_left back hmem) rfl
  · rw [edited, List.map_append, List.map_cons, hsame front (List.subset_append_left front back),
      hsame back (List.subset_append_right front back)]
    simp [Part.withBodies, Part.lines]

/-- The edits of a section that is not there change nothing. -/
theorem edited_absent (h : Parted all ls parts) (hnone : ∀ body, .sec b body ∉ parts)
    (new : List Text) : edited parts [(b, new)] = ls := by
  have hsame : ∀ part ∈ parts, part.withBodies [(b, new)] = part := by
    intro part hpart
    refine Part.withBodies_of_ne (fun hbounds => ?_) new
    cases part with
    | line text => cases hbounds
    | sec c body =>
      obtain rfl := Option.some.inj hbounds
      exact hnone body hpart
  rw [edited, List.map_congr_left hsame, List.map_id', h.eq]

/-- Parts stay parts when a section gets a body that marks nothing. -/
theorem withBody (h : Parted all ls parts) (b : Bounds) (hnew : Bare all new) :
    Parted all (edited parts [(b, new)]) (parts.map (Part.withBodies [(b, new)])) where
  eq := rfl
  line text hmem := by
    obtain ⟨part, hpart, heq⟩ := List.mem_map.1 hmem
    cases part with
    | line text' =>
      cases heq
      exact h.line text hpart
    | sec c body => cases heq
  sec c body hmem := by
    obtain ⟨part, hpart, heq⟩ := List.mem_map.1 hmem
    cases part with
    | line text => cases heq
    | sec c' body' =>
      by_cases hcb : c' = b
      · subst hcb
        cases heq
        simpa using ⟨(h.sec c body' hpart).1, hnew⟩
      · rw [Part.withBodies_of_ne (by simpa [Part.bounds?] using hcb)] at heq
        cases heq
        exact h.sec c body hpart
  once := by
    rw [List.filterMap_map]
    have hsame : Part.bounds? ∘ Part.withBodies [(b, new)] = Part.bounds? :=
      funext (Part.bounds?_withBodies _)
    rw [hsame]
    exact h.once

theorem lined (h : Parted all ls parts) (hapart : ∀ b ∈ all, ∀ c ∈ all, b ≠ c → Apart b c)
    (hls : Lined ls closed) (hnew : ∀ l ∈ new, IsLine l) : Lined (edited parts [(b, new)]) closed := by
  by_cases hsec : ∃ body, .sec b body ∈ parts
  · obtain ⟨body, hsec⟩ := hsec
    obtain ⟨before, after, hcut, hedited⟩ := h.cut hapart hsec
    rw [hedited new]
    exact hcut.lined hls hnew
  · rwa [h.edited_absent (not_exists.1 hsec) new]

end Parted

/-! ### Where the markers of parts stand -/

theorem getElem?_middle_iff {α : Type} {as bs : List α} {x : α} (has : x ∉ as) (hbs : x ∉ bs) (i : Nat) :
    (as ++ x :: bs)[i]? = some x ↔ i = as.length := by
  constructor
  · intro h
    rcases Nat.lt_trichotomy i as.length with hlt | heq | hgt
    · rw [List.getElem?_append_left hlt] at h
      exact absurd (List.mem_of_getElem? h) has
    · exact heq
    · obtain ⟨k, rfl⟩ : ∃ k, i = as.length + (k + 1) := ⟨i - as.length - 1, by omega⟩
      rw [List.getElem?_append_right (by omega), Nat.add_sub_cancel_left,
        List.getElem?_cons_succ] at h
      exact absurd (List.mem_of_getElem? h) hbs
  · rintro rfl
    simp

namespace Parted

variable {parts front back : List Part}

theorem places (h : Parted all ls (front ++ .sec b body :: back))
    (hapart : ∀ b ∈ all, ∀ c ∈ all, b ≠ c → Apart b c) (hne : b.start ≠ b.stop) (i : Nat) :
    (ls[i]? = some b.start ↔ i = (front.flatMap Part.lines).length) ∧
      (ls[i]? = some b.stop ↔ i = (front.flatMap Part.lines).length + body.length + 1) := by
  have hsec : .sec b body ∈ front ++ .sec b body :: back := by simp
  obtain ⟨hb, hbare⟩ := h.sec b body hsec
  have hbounds := h.ne_of_append
  have hfront := h.absent hapart hb (List.subset_append_left front _) fun body' hmem =>
    hbounds _ (List.mem_append_left back hmem) rfl
  have hsubset : back ⊆ front ++ .sec b body :: back :=
    List.Subset.trans (List.subset_cons_self _ back) (List.subset_append_right front _)
  have hback := h.absent hapart hb hsubset fun body' hmem =>
    hbounds _ (List.mem_append_right front hmem) rfl
  have hbody := hbare b hb
  have hstart : ls = front.flatMap Part.lines ++ b.start ::
      (body ++ b.stop :: back.flatMap Part.lines) := by
    rw [h.eq]
    simp [Part.lines]
  have hstop : ls = (front.flatMap Part.lines ++ b.start :: body) ++ b.stop ::
      back.flatMap Part.lines := by
    rw [hstart]
    simp
  constructor
  · rw [hstart]
    exact getElem?_middle_iff hfront.1 (by simp [hbody.1, hne, hback.1]) i
  · rw [hstop, getElem?_middle_iff (by simp [hfront.2, hne.symm, hbody.2]) hback.2 i]
    simp only [List.length_append, List.length_cons]
    omega

/-- Lines made of parts have sections that stand apart from each other. -/
theorem placed (h : Parted all ls parts) (hapart : ∀ b ∈ all, ∀ c ∈ all, b ≠ c → Apart b c)
    (hne : ∀ b ∈ all, b.start ≠ b.stop) : Placed all ls := by
  have hsplit (b : Bounds) (hb : b ∈ all) :
      (∀ i : Nat, ls[i]? ≠ some b.start ∧ ls[i]? ≠ some b.stop) ∨
        ∃ front body back, parts = front ++ .sec b body :: back := by
    by_cases hsec : ∃ body, .sec b body ∈ parts
    · obtain ⟨body, hsec⟩ := hsec
      obtain ⟨front, back, heq⟩ := List.append_of_mem hsec
      exact .inr ⟨front, body, back, heq⟩
    · have habsent := h.absent hapart hb (List.Subset.refl parts) (not_exists.1 hsec)
      rw [← h.eq] at habsent
      exact .inl fun i => ⟨fun hi => habsent.1 (List.mem_of_getElem? hi),
        fun hi => habsent.2 (List.mem_of_getElem? hi)⟩
  constructor
  case start_once =>
    intro b hb i j hi hj
    obtain hnone | ⟨front, body, back, rfl⟩ := hsplit b hb
    · exact absurd hi (hnone i).1
    · have hplaces := h.places hapart (hne b hb)
      rw [(hplaces _).1] at hi hj
      rw [hi, hj]
  case stop_once =>
    intro b hb i j hi hj
    obtain hnone | ⟨front, body, back, rfl⟩ := hsplit b hb
    · exact absurd hi (hnone i).2
    · have hplaces := h.places hapart (hne b hb)
      rw [(hplaces _).2] at hi hj
      rw [hi, hj]
  case paired =>
    intro b hb
    obtain hnone | ⟨front, body, back, rfl⟩ := hsplit b hb
    · exact .inl hnone
    · have hplaces := h.places hapart (hne b hb)
      exact .inr ⟨_, _, by omega, (hplaces _).1.2 rfl, (hplaces _).2.2 rfl⟩
  case apart =>
    intro b hb c hc hbc i j k r hi hj hk hr
    obtain hnone | ⟨front, body, back, rfl⟩ := hsplit b hb
    · exact absurd hi (hnone i).1
    obtain hnone | ⟨front', body', back', hparts⟩ := hsplit c hc
    · exact absurd hk (hnone k).1
    have hplaces := h.places hapart (hne b hb)
    rw [(hplaces _).1] at hi
    rw [(hplaces _).2] at hj
    rw [hparts] at h
    have hplaces' := h.places hapart (hne c hc)
    rw [(hplaces' _).1] at hk
    rw [(hplaces' _).2] at hr
    -- The other section is one of the parts before this one, or one of those after it.
    obtain ⟨ms, rfl, -⟩ | ⟨ms, rfl, -⟩ :=
      Cut.append_cons_eq hparts (fun heq => hbc (Part.sec.inj heq).1)
    · left
      simp only [List.flatMap_append, List.flatMap_cons, List.length_append, Part.lines,
        List.length_cons] at hk
      omega
    · right
      simp only [List.flatMap_append, List.flatMap_cons, List.length_append, Part.lines,
        List.length_cons] at hi
      omega

end Parted

/-! ### Parts of lines with sections -/

/-- Each section stands in some lines once, with both of its bounds, or not at all. -/
def Neat (all : List Bounds) (ls : List Text) : Prop :=
  ∀ b ∈ all, b.start ∉ ls ∧ b.stop ∉ ls ∨
    ∃ before body after, Cut all b ls before body after ∧
      b.stop ∉ before ∧ b.start ∉ after ∧ b.stop ∉ after

theorem not_mem_of_once {α : Type} {as bs : List α} {x : α}
    (h : ∀ i j : Nat, (as ++ x :: bs)[i]? = some x → (as ++ x :: bs)[j]? = some x → i = j) :
    x ∉ as ∧ x ∉ bs := by
  have hx : (as ++ x :: bs)[as.length]? = some x := by simp
  constructor
  · intro hmem
    obtain ⟨i, hi⟩ := List.mem_iff_getElem?.1 hmem
    obtain ⟨hlt, -⟩ := List.getElem?_eq_some_iff.1 hi
    have := h i as.length (by rwa [List.getElem?_append_left hlt]) hx
    omega
  · intro hmem
    obtain ⟨i, hi⟩ := List.mem_iff_getElem?.1 hmem
    have hi' : (as ++ x :: bs)[as.length + (i + 1)]? = some x := by
      rw [List.getElem?_append_right (by omega)]
      simpa using hi
    have := h _ as.length hi' hx
    omega

theorem neat_of_placed (h : Placed all ls) : Neat all ls := by
  intro b hb
  have hstart := h.start_once b hb
  have hstop := h.stop_once b hb
  obtain hnone | ⟨before, body, after, hcut⟩ := h.cut hb
  · refine .inl ⟨hnone, fun hmem => ?_⟩
    obtain ⟨j, hj⟩ := List.mem_iff_getElem?.1 hmem
    obtain habsent | ⟨i, -, -, hi, -⟩ := h.paired b hb
    · exact (habsent j).2 hj
    · exact hnone (List.mem_of_getElem? hi)
  · refine .inr ⟨before, body, after, hcut, ?_⟩
    obtain rfl := hcut.eq
    have hlast : before ++ b.start :: (body ++ b.stop :: after) =
        (before ++ b.start :: body) ++ b.stop :: after := by simp
    obtain ⟨-, hrest⟩ := not_mem_of_once hstart
    rw [hlast] at hstop
    obtain ⟨hfront, hafter⟩ := not_mem_of_once hstop
    simp only [List.mem_append, List.mem_cons, not_or] at hrest hfront
    exact ⟨hfront.1, hrest.2.2, hafter⟩

theorem Neat.of_line (h : Neat all (l :: ls)) (hl : ∀ b ∈ all, l ≠ b.start) :
    Bare all [l] ∧ Neat all ls := by
  have hneat (b : Bounds) (hb : b ∈ all) : l ≠ b.stop ∧
      (b.start ∉ ls ∧ b.stop ∉ ls ∨ ∃ before body after, Cut all b ls before body after ∧
        b.stop ∉ before ∧ b.start ∉ after ∧ b.stop ∉ after) := by
    obtain ⟨hstart, hstop⟩ | ⟨before, body, after, hcut, hbefore, hafter⟩ := h b hb
    · simp only [List.mem_cons, not_or] at hstart hstop
      exact ⟨Ne.symm hstop.1, .inl ⟨hstart.2, hstop.2⟩⟩
    · cases before with
      | nil =>
        obtain ⟨heq, -⟩ := List.cons.inj hcut.eq
        exact absurd heq (hl b hb)
      | cons k before =>
        obtain ⟨rfl, heq⟩ := List.cons.inj hcut.eq
        have hfirst := hcut.first
        simp only [List.mem_cons, not_or] at hfirst hbefore
        exact ⟨Ne.symm hbefore.1,
          .inr ⟨before, body, after, ⟨heq, hfirst.2, hcut.bare⟩, hbefore.2, hafter⟩⟩
  refine ⟨fun b hb => ?_, fun b hb => (hneat b hb).2⟩
  simp only [List.mem_singleton]
  exact ⟨Ne.symm (hl b hb), Ne.symm (hneat b hb).1⟩

theorem Neat.of_section (h : Neat all (b.start :: ls))
    (hapart : ∀ b ∈ all, ∀ c ∈ all, b ≠ c → Apart b c) (hb : b ∈ all) :
    ∃ body after, ls = body ++ b.stop :: after ∧ Bare all body ∧ b.start ∉ after ∧
      Neat all after := by
  obtain ⟨hnone, -⟩ | ⟨before, body, after, hcut, -, hstart, hstop⟩ := h b hb
  · exact absurd List.mem_cons_self hnone
  cases before with
  | cons k before =>
    obtain ⟨rfl, -⟩ := List.cons.inj hcut.eq
    exact absurd List.mem_cons_self hcut.first
  | nil =>
    obtain ⟨-, rfl⟩ := List.cons.inj hcut.eq
    refine ⟨body, after, rfl, hcut.bare, hstart, fun c hc => ?_⟩
    by_cases hne : b = c
    · subst hne
      exact .inl ⟨hstart, hstop⟩
    have hbc := hapart b hb c hc hne
    obtain ⟨hnone, hnone'⟩ | ⟨before', body', after', hcut', hbefore', hafter'⟩ := h c hc
    · simp only [List.mem_cons, List.mem_append, not_or] at hnone hnone'
      exact .inl ⟨hnone.2.2.2, hnone'.2.2.2⟩
    -- The other section comes after this one: it cannot start in its body.
    obtain ⟨ms, hms, hrest⟩ | ⟨ms, hms, -⟩ :=
      Cut.append_cons_eq (hcut.eq.symm.trans hcut'.eq) hbc.start_start
    · obtain ⟨ns, rfl, hafter⟩ | ⟨ns, hbody, -⟩ := Cut.append_cons_eq hrest hbc.stop_start
      · have hfirst := hcut'.first
        rw [hms] at hfirst hbefore'
        simp only [List.nil_append, List.mem_cons, List.mem_append, not_or] at hfirst hbefore'
        exact .inr ⟨ns, body', after', ⟨hafter, hfirst.2.2.2, hcut'.bare⟩, hbefore'.2.2.2, hafter'⟩
      · refine absurd ?_ (hcut.bare c hc).1
        simp [hbody]
    · simp at hms

theorem start_mem_of_bounds {parts : List Part} (h : b ∈ parts.filterMap Part.bounds?) :
    b.start ∈ parts.flatMap Part.lines := by
  obtain ⟨part, hpart, hbounds⟩ := List.mem_filterMap.1 h
  cases part with
  | line text => cases hbounds
  | sec c body =>
    obtain rfl := Option.some.inj hbounds
    exact List.mem_flatMap.2 ⟨_, hpart, List.mem_cons_self⟩

theorem Parted.nil : Parted all [] [] :=
  ⟨rfl, nofun, nofun, .nil⟩

theorem Parted.cons_line {parts : List Part} (h : Parted all ls parts) (hl : Bare all [l]) :
    Parted all (l :: ls) (.line l :: parts) where
  eq := by
    rw [h.eq]
    simp [Part.lines]
  line text hmem := by
    obtain heq | hmem := List.mem_cons.1 hmem
    · cases heq
      exact hl
    · exact h.line text hmem
  sec c body hmem := by
    obtain heq | hmem := List.mem_cons.1 hmem
    · cases heq
    · exact h.sec c body hmem
  once := h.once

theorem Parted.cons_sec {parts : List Part} (h : Parted all ls parts) (hb : b ∈ all)
    (hbody : Bare all body) (hfirst : b.start ∉ ls) :
    Parted all (b.start :: (body ++ b.stop :: ls)) (.sec b body :: parts) where
  eq := by
    rw [h.eq]
    simp [Part.lines]
  line text hmem := by
    obtain heq | hmem := List.mem_cons.1 hmem
    · cases heq
    · exact h.line text hmem
  sec c body' hmem := by
    obtain heq | hmem := List.mem_cons.1 hmem
    · cases heq
      exact ⟨hb, hbody⟩
    · exact h.sec c body' hmem
  once := by
    have hbounds : (Part.sec b body).bounds? = some b := rfl
    rw [List.filterMap_cons_some hbounds, List.nodup_cons]
    refine ⟨fun hmem => hfirst ?_, h.once⟩
    rw [h.eq]
    exact start_mem_of_bounds hmem

theorem exists_parted (h : Neat all ls) (hapart : ∀ b ∈ all, ∀ c ∈ all, b ≠ c → Apart b c) :
    ∃ parts, Parted all ls parts := by
  -- A section is taken off in one step, so the rest is shorter by more than a line.
  induction hn : ls.length using Nat.strongRecOn generalizing ls with
  | ind n ih =>
    cases ls with
    | nil => exact ⟨[], .nil⟩
    | cons l ls =>
      rw [List.length_cons] at hn
      by_cases hstart : ∃ b ∈ all, l = b.start
      · obtain ⟨b, hb, rfl⟩ := hstart
        obtain ⟨body, after, rfl, hbare, hfirst, hafter⟩ := h.of_section hapart hb
        rw [List.length_append, List.length_cons] at hn
        obtain ⟨parts, hparts⟩ := ih after.length (by omega) hafter rfl
        exact ⟨_, hparts.cons_sec hb hbare hfirst⟩
      · simp only [not_exists, not_and] at hstart
        obtain ⟨hline, hrest⟩ := h.of_line hstart
        obtain ⟨parts, hparts⟩ := ih ls.length (by omega) hrest rfl
        exact ⟨_, hparts.cons_line hline⟩

end LuaDocs
