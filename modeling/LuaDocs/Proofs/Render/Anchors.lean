import LuaDocs.Proofs.Render.Contents
import Mathlib.Data.List.Count
import Mathlib.Data.List.Nodup

/-!
# Anchors

A heading whose slug has come up before gets a number behind a hyphen, so headings with one slug have
different anchors. The number is that of the slug and not of the anchor, though, and a slug may end in a
number itself. The anchors of a table of contents are all different exactly if no heading has a slug that is
given to the repetition of another.
-/

namespace LuaDocs.Contents

open Text

variable {s t : Text} {m n : ℕ} {before slugs ls : List Text} {fenced : Bool}

/-- The anchor that a line of a table of contents leads to: what stands behind the last hash sign, without
the closing parenthesis. -/
def target (line : Text) : Text :=
  line.dropLast.rtakeWhile (· != '#')

/-- The slug of a heading, which is its anchor if no other heading has it. -/
def Entry.slug (e : Entry) : Text :=
  Contents.slug e.title

/-! ### Numbered slugs -/

theorem ofNat_injective : Function.Injective ofNat :=
  Function.LeftInverse.injective (g := (Nat.ofDigitChars 10 · 0)) fun _ =>
    Nat.ofDigitChars_ten_toDigits

theorem hyphen_not_mem_ofNat (n : ℕ) : '-' ∉ ofNat n :=
  fun h => absurd (isDigit_of_mem_ofNat h) (by decide)

/-- A numbered slug tells its number and what is numbered, since a number has no hyphens. -/
theorem numbered_inj (h : s ++ '-' :: ofNat m = t ++ '-' :: ofNat n) : s = t ∧ m = n := by
  have hnumber : ofNat m = ofNat n := by
    have hlast := congrArg (List.rtakeWhile (· != '-')) h
    rwa [rtakeWhile_append_cons (hyphen_not_mem_ofNat m),
      rtakeWhile_append_cons (hyphen_not_mem_ofNat n)] at hlast
  rw [hnumber] at h
  exact ⟨List.append_cancel_right h, ofNat_injective hnumber⟩

theorem anchor_of_pos (s : Text) (h : 0 < n) : anchor s n = s ++ '-' :: ofNat n :=
  if_neg h.ne'

/-- Anchors are the same for one slug and number only, or if the slug of the one is the numbered slug of the
other. -/
theorem anchor_eq_iff : anchor s m = anchor t n ↔ (s = t ∧ m = n) ∨
    (m = 0 ∧ 0 < n ∧ s = t ++ '-' :: ofNat n) ∨ (n = 0 ∧ 0 < m ∧ t = s ++ '-' :: ofNat m) := by
  rcases Nat.eq_zero_or_pos m with rfl | hm <;> rcases Nat.eq_zero_or_pos n with rfl | hn
  · simp [anchor]
  · rw [anchor_of_pos t hn]
    simp [anchor, hn, hn.ne, hn.ne']
  · rw [anchor_of_pos s hm]
    simp [anchor, hm, hm.ne', eq_comm]
  · rw [anchor_of_pos s hm, anchor_of_pos t hn]
    simp only [hm.ne', hn.ne', false_and, or_false]
    refine ⟨numbered_inj, ?_⟩
    rintro ⟨rfl, rfl⟩
    rfl

theorem anchor_ne_of_ne (s : Text) (h : m ≠ n) : anchor s m ≠ anchor s n := by
  rw [Ne, anchor_eq_iff]
  simp [h]

/-! ### The slugs of a text -/

def occurrences (before : List Text) : List Text → List (Text × ℕ)
  | [] => []
  | s :: slugs => (s, before.count s) :: occurrences (before ++ [s]) slugs

theorem mem_occurrences :
    (s, n) ∈ occurrences before slugs ↔ before.count s ≤ n ∧ n < (before ++ slugs).count s := by
  induction slugs generalizing before with
  | nil =>
    rw [List.append_nil]
    exact iff_of_false List.not_mem_nil (by omega)
  | cons t slugs ih =>
    rw [occurrences, List.mem_cons, Prod.mk.injEq, ih, List.append_assoc, List.singleton_append]
    by_cases hst : s = t
    · subst hst
      simp only [List.count_append, List.count_cons_self, List.count_nil, true_and]
      omega
    · have hts : t ≠ s := Ne.symm hst
      simp [List.count_append, List.count_cons_of_ne hts, hst]

theorem nodup_occurrences (before slugs : List Text) : (occurrences before slugs).Nodup := by
  induction slugs generalizing before with
  | nil => exact List.nodup_nil
  | cons s slugs ih =>
    refine List.nodup_cons.2 ⟨fun h => ?_, ih _⟩
    rw [mem_occurrences, List.count_append, List.count_singleton_self] at h
    omega

/-- Entries get the anchors of their slugs in the order in which they come up. -/
theorem slug_anchor_entriesFrom (fenced : Bool) (before ls : List Text) :
    (entriesFrom fenced before ls).map (fun e => (e.slug, e.anchor)) =
      (occurrences before ((entriesFrom fenced before ls).map Entry.slug)).map
        fun p => (p.1, anchor p.1 p.2) := by
  induction ls generalizing fenced before with
  | nil => rfl
  | cons l ls ih =>
    rw [entriesFrom]
    split
    · exact ih _ _
    split
    · exact ih _ _
    split
    · exact ih _ _
    · rw [List.map_cons, ih]
      rfl

theorem target_line {e : Entry} (h : '#' ∉ e.anchor) : target e.line = e.anchor := by
  have hline : e.line = (spaces (2 * (e.level - 2)) ++ "- [".toList ++ e.title ++ "](".toList ++
      '#' :: e.anchor) ++ [')'] := by
    simp [Entry.line]
  rw [target, hline, List.dropLast_concat, rtakeWhile_append_cons h]

theorem hash_not_mem_anchor (fenced : Bool) (before ls : List Text) :
    ∀ e ∈ entriesFrom fenced before ls, '#' ∉ e.anchor := by
  intro e he
  have hmem := List.mem_map_of_mem (f := fun e => (e.slug, e.anchor)) he
  rw [slug_anchor_entriesFrom] at hmem
  obtain ⟨p, hp, heq⟩ := List.mem_map.1 hmem
  obtain ⟨hslug, hanchor⟩ := Prod.mk.inj heq
  rw [← hanchor, hslug]
  exact not_mem_anchor (by decide) (by decide) (by decide)

/-- The lines of a table of contents lead to the anchors of its entries. -/
theorem targets_generate (ls : List Text) : (generate ls).map target = (entries ls).map Entry.anchor := by
  rw [generate, List.map_map]
  exact List.map_congr_left fun e he => target_line (hash_not_mem_anchor _ _ _ e he)

theorem anchors_entries (ls : List Text) : (entries ls).map Entry.anchor =
    (occurrences [] ((entries ls).map Entry.slug)).map fun p => anchor p.1 p.2 := by
  have hanchors := congrArg (List.map Prod.snd) (slug_anchor_entriesFrom false [] ls)
  rw [List.map_map, List.map_map] at hanchors
  exact hanchors

/-- Headings with one slug have different anchors. -/
theorem pairwise_anchor (ls : List Text) :
    (entries ls).Pairwise fun e e' => e.slug = e'.slug → e.anchor ≠ e'.anchor := by
  have hpairs : ((entries ls).map fun e => (e.slug, e.anchor)).Pairwise
      fun a b => a.1 = b.1 → a.2 ≠ b.2 := by
    rw [entries, slug_anchor_entriesFrom, List.pairwise_map]
    refine (nodup_occurrences _ _).imp fun {p q} hne hslug => ?_
    change p.1 = q.1 at hslug
    change anchor p.1 p.2 ≠ anchor q.1 q.2
    rw [← hslug]
    exact anchor_ne_of_ne p.1 fun hnumber => hne (Prod.ext hslug hnumber)
  exact List.pairwise_map.1 hpairs

/-- The anchors in a table of contents are all different if and only if no heading has the numbered slug of
a repeated one. Headings with one slug always have different anchors. -/
theorem nodup_targets_iff (ls : List Text) :
    (((generate ls).map target).Nodup ↔
      ∀ s n, 0 < n → n < ((entries ls).map Entry.slug).count s →
        s ++ '-' :: ofNat n ∉ (entries ls).map Entry.slug) ∧
      (entries ls).Pairwise fun e e' => e.slug = e'.slug → target e.line ≠ target e'.line := by
  have hoccurrences := nodup_occurrences [] ((entries ls).map Entry.slug)
  constructor
  · rw [targets_generate, anchors_entries, List.nodup_map_iff_inj_on hoccurrences]
    constructor
    · intro hinj s n hpos hcount hmem
      have hslug : (s ++ '-' :: ofNat n, 0) ∈ occurrences [] ((entries ls).map Entry.slug) :=
        mem_occurrences.2 ⟨Nat.le_refl 0, List.count_pos_iff.2 hmem⟩
      have hrepeated : (s, n) ∈ occurrences [] ((entries ls).map Entry.slug) :=
        mem_occurrences.2 ⟨Nat.zero_le n, hcount⟩
      have hsame := hinj _ hslug _ hrepeated (anchor_of_pos s hpos).symm
      exact hpos.ne (congrArg Prod.snd hsame)
    · rintro hfree ⟨s, m⟩ hs ⟨t, n⟩ ht hanchor
      rw [mem_occurrences, List.nil_append] at hs ht
      rcases anchor_eq_iff.1 hanchor with ⟨rfl, rfl⟩ | ⟨rfl, hpos, rfl⟩ | ⟨rfl, hpos, rfl⟩
      · rfl
      · exact absurd (List.count_pos_iff.1 hs.2) (hfree t n hpos ht.2)
      · exact absurd (List.count_pos_iff.1 ht.2) (hfree s m hpos hs.2)
  · refine (pairwise_anchor ls).imp_of_mem fun he he' hdifferent hslug => ?_
    rw [target_line (hash_not_mem_anchor _ _ _ _ he), target_line (hash_not_mem_anchor _ _ _ _ he')]
    exact hdifferent hslug

/-- The second of two headings with one slug gets the slug of a third. -/
theorem not_nodup_targets_numbered :
    let ls := ["## A-1", "## A", "## A"].map String.toList
    generate ls = ["- [A-1](#a-1)", "- [A](#a)", "- [A](#a-1)"].map String.toList ∧
      ¬((generate ls).map target).Nodup := by
  intro ls
  have hgenerate : generate ls = ["- [A-1](#a-1)", "- [A](#a)", "- [A](#a-1)"].map String.toList := by
    decide +kernel
  refine ⟨hgenerate, ?_⟩
  rw [hgenerate]
  decide

end LuaDocs.Contents
