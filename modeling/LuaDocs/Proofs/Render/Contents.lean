import LuaDocs.Proofs.Text.Reading
import LuaDocs.Render.Contents

/-!
# Tables of contents as lines of the text they are made of

A heading is read as `IsHeading` says. A table of contents becomes part of the text whose headings it
lists. It lists none of its own lines: none of them is a heading or opens a block of code, so that they can
be put in or taken out of a text without any change to its table of contents.
-/

namespace LuaDocs.Contents

open Text

variable {ls ms ms' rest : List Text} {slugs : List Text} {fenced : Bool} {l s t : Text} {c : Char}

/-! ### Headings -/

def isTrailing (c : Char) : Bool :=
  isBlank c || c == '#'

/-- A line is a heading: hash signs, blanks and a title, and perhaps blanks and hash signs behind it. -/
structure IsHeading (level : Nat) (title line : Text) : Prop where
  two_le : 2 ≤ level
  le_six : level ≤ 6
  line_eq : ∃ blanks tail, line = List.replicate level '#' ++ (blanks ++ (title ++ tail)) ∧
    Blanks blanks ∧ blanks ≠ [] ∧ ∀ c ∈ tail, isTrailing c = true
  ne_nil : title ≠ []
  unblank : Unblank title
  last : ∀ c ∈ title.getLast?, isTrailing c = false
  not_feed : '\n' ∉ line

theorem heading?_eq_some_iff {level : Nat} :
    heading? l = some (level, t) ↔ IsHeading level t l := by
  constructor
  · intro h
    rw [heading?] at h
    split at h
    · next hguard =>
      split at h
      · cases h
      · next s hblanks =>
        split at h
        · cases h
        · next hne =>
          obtain ⟨rfl, rfl⟩ := Prod.mk.inj (Option.some.inj h)
          simp only [Bool.and_eq_true, decide_eq_true_eq, Bool.not_eq_true', List.contains_eq_mem,
            decide_eq_false_iff_not] at hguard
          obtain ⟨hline, -⟩ := (frontRun_eq_iff (s := l) (c := '#')).1 ⟨rfl, rfl⟩
          obtain ⟨blanks, hdrop, hblanks, hsome, hunblank⟩ := someBlanks?_eq_some_iff.1 hblanks
          obtain ⟨⟨tail, hsplit, htail⟩, hlast⟩ :=
            (dropEndWhile_eq_iff (s := s) (p := isTrailing)).1 rfl
          change dropEndWhile isTrailing s ≠ [] at hne
          rw [hsplit, unblank_append_iff hne] at hunblank
          rw [hdrop, hsplit] at hline
          exact ⟨hguard.1.1, hguard.1.2, ⟨blanks, tail, hline, hblanks, hsome, htail⟩, hne, hunblank,
            hlast, hguard.2⟩
    · cases h
  · rintro ⟨htwo, hsix, ⟨blanks, tail, hline, hblanks, hsome, htail⟩, hne, hunblank, hlast, hfeed⟩
    have hguard : (2 ≤ level && level ≤ 6 && !l.contains '\n') = true := by
      simp [htwo, hsix, hfeed]
    have hnext : (blanks ++ (t ++ tail)).head? ≠ some '#' := by
      rw [List.head?_append_of_ne_nil _ hsome]
      exact fun hhash => absurd (hblanks '#' (List.mem_of_mem_head? hhash)) (by decide)
    obtain ⟨hlevel, hdrop⟩ := frontRun_eq_iff.2 ⟨hline, hnext⟩
    have hskip := someBlanks?_append hblanks hsome ((unblank_append_iff (t := tail) hne).2 hunblank)
    have hend : dropEndWhile (fun c => isBlank c || c == '#') (t ++ tail) = t :=
      dropEndWhile_eq_iff.2 ⟨⟨tail, rfl, htail⟩, hlast⟩
    obtain ⟨c, v, rfl⟩ := List.exists_cons_of_ne_nil hne
    simp only [heading?, hlevel, hdrop, hguard, hskip, hend, if_true]

/-! ### Lines that do not count -/

/-- Lines that are no headings and open or close no block of code. -/
def Quiet (ls : List Text) : Prop :=
  ∀ l ∈ ls, isFence l = false ∧ heading? l = none

theorem entriesFrom_append_quiet (h : Quiet ms) (fenced : Bool) (slugs rest : List Text) :
    entriesFrom fenced slugs (ms ++ rest) = entriesFrom fenced slugs rest := by
  induction ms with
  | nil => rfl
  | cons m ms ih =>
    obtain ⟨⟨hfence, hheading⟩, hms⟩ := List.forall_mem_cons.1 h
    rw [List.cons_append, entriesFrom, hfence, hheading, ih hms]
    cases fenced <;> rfl

theorem entriesFrom_replace (h : Quiet ms) (h' : Quiet ms') (fenced : Bool)
    (slugs ls rest : List Text) :
    entriesFrom fenced slugs (ls ++ (ms ++ rest)) = entriesFrom fenced slugs (ls ++ (ms' ++ rest)) := by
  induction ls generalizing fenced slugs with
  | nil => exact (entriesFrom_append_quiet h _ _ _).trans (entriesFrom_append_quiet h' _ _ _).symm
  | cons l ls ih =>
    rw [List.cons_append, List.cons_append, entriesFrom, entriesFrom]
    simp only [ih]

/-- Quiet lines in the place of quiet lines leave the table of contents as it is. -/
theorem generate_replace (h : Quiet ms) (h' : Quiet ms') (ls rest : List Text) :
    generate (ls ++ (ms ++ rest)) = generate (ls ++ (ms' ++ rest)) := by
  rw [generate, entries, entriesFrom_replace h h', generate, entries]

/-! ### The lines of a table of contents -/

theorem line_eq (e : Entry) : ∃ n s, e.line = spaces n ++ '-' :: s :=
  ⟨2 * (e.level - 2), ' ' :: '[' :: (e.title ++ "](#".toList ++ e.anchor ++ [')']), by simp [Entry.line]⟩

theorem line_head (e : Entry) : ∃ c s, e.line = c :: s ∧ (c = ' ' ∨ c = '-') := by
  obtain ⟨n, s, hline⟩ := line_eq e
  cases n with
  | zero => exact ⟨'-', s, hline, .inr rfl⟩
  | succ n => exact ⟨' ', spaces n ++ '-' :: s, hline, .inl rfl⟩

theorem isFence_line (e : Entry) : isFence e.line = false := by
  obtain ⟨n, s, hline⟩ := line_eq e
  have hblanks : ∀ c ∈ spaces n, isBlank c = true := by
    intro c hc
    rw [List.eq_of_mem_replicate hc]
    rfl
  have hskip : skipBlanks e.line = '-' :: s := by
    rw [hline, skipBlanks, List.dropWhile_append_of_pos hblanks]
    rfl
  rw [isFence, hskip]
  rfl

theorem heading?_line (e : Entry) : heading? e.line = none := by
  obtain ⟨c, s, hline, hc⟩ := line_head e
  have hlevel : e.line.takeWhile (· == '#') = [] := by
    rw [hline]
    rcases hc with rfl | rfl <;> rfl
  rw [heading?, hlevel]
  rfl

theorem quiet_generate (ls : List Text) : Quiet (generate ls) := by
  intro l hl
  obtain ⟨e, -, rfl⟩ := List.mem_map.1 hl
  exact ⟨isFence_line e, heading?_line e⟩

/-- A table of contents between two empty lines can be put in anywhere in a text. Whatever is open in front
of the text and whichever slugs have come up there, its headings keep their anchors. -/
theorem generate_insert (above below ls : List Text) :
    (∀ fenced slugs, entriesFrom fenced slugs (above ++ [[]] ++ generate ls ++ [[]] ++ below) =
        entriesFrom fenced slugs (above ++ below)) ∧
      generate (above ++ [[]] ++ generate ls ++ [[]] ++ below) = generate (above ++ below) := by
  have hempty : Quiet [[]] := List.forall_mem_singleton.2 ⟨rfl, rfl⟩
  have hquiet : Quiet ([[]] ++ generate ls ++ [[]]) :=
    List.forall_mem_append.2 ⟨List.forall_mem_append.2 ⟨hempty, quiet_generate ls⟩, hempty⟩
  have hentries (fenced : Bool) (slugs : List Text) :
      entriesFrom fenced slugs (above ++ [[]] ++ generate ls ++ [[]] ++ below) =
        entriesFrom fenced slugs (above ++ below) := by
    have hsame := entriesFrom_replace hquiet (List.forall_mem_nil _) fenced slugs above below
    simpa only [List.append_assoc, List.nil_append] using hsame
  exact ⟨hentries, congrArg (List.map Entry.line) (hentries false [])⟩

/-! ### The characters of a table -/

theorem mem_slug (h : c ∈ slug t) : isAlphanumeric c = true ∨ c = '-' ∨ c = '_' := by
  rw [slug, replaceChar, List.mem_flatMap] at h
  obtain ⟨d, hd, hc⟩ := h
  have hkept := (List.mem_filter.1 hd).2
  split at hc
  · exact .inr (.inl (List.mem_singleton.1 hc))
  · next hspace =>
    obtain rfl := List.mem_singleton.1 hc
    simp only [Bool.or_eq_true, beq_iff_eq] at hkept hspace
    tauto

theorem isDigit_of_mem_ofNat {n : Nat} (h : c ∈ ofNat n) : c.isDigit = true :=
  Nat.isDigit_of_mem_toDigits (by decide) (by decide) h

theorem isAlphanumeric_of_isDigit (h : c.isDigit = true) : isAlphanumeric c = true := by
  rw [Char.isDigit, Bool.and_eq_true, decide_eq_true_eq, decide_eq_true_eq] at h
  have hfirst (ranges : List (Nat × Nat)) : inRanges ((0x30, 0x39) :: ranges) c = true := by
    have hlow : 0x30 ≤ c.toNat := h.1
    have hhigh : c.toNat ≤ 0x39 := h.2
    rw [inRanges, decide_eq_true hlow, decide_eq_true hhigh]
    rfl
  exact hfirst _

theorem mem_anchor {n : Nat} (h : c ∈ anchor (slug t) n) :
    isAlphanumeric c = true ∨ c = '-' ∨ c = '_' := by
  rw [anchor] at h
  split at h
  · exact mem_slug h
  · rcases List.mem_append.1 h with h | h
    · exact mem_slug h
    · rcases List.mem_cons.1 h with rfl | h
      · exact .inr (.inl rfl)
      · exact .inl (isAlphanumeric_of_isDigit (isDigit_of_mem_ofNat h))

theorem not_mem_anchor {n : Nat} (hkind : isAlphanumeric c = false) (hhyphen : c ≠ '-')
    (hunderscore : c ≠ '_') : c ∉ anchor (slug t) n := by
  intro h
  simpa [hkind, hhyphen, hunderscore] using mem_anchor h

theorem isLine_anchor (t : Text) (n : Nat) : IsLine (anchor (slug t) n) :=
  ⟨not_mem_anchor (by decide) (by decide) (by decide),
    not_mem_anchor (by decide) (by decide) (by decide)⟩

theorem mem_title {level : Nat} (h : heading? l = some (level, t)) : ∀ c ∈ t, c ∈ l := by
  obtain ⟨blanks, tail, rfl, -⟩ := (heading?_eq_some_iff.1 h).line_eq
  intro c hc
  simp [hc]

theorem isLine_entriesFrom (h : ∀ l ∈ ls, IsLine l) (fenced : Bool) (slugs : List Text) :
    ∀ e ∈ entriesFrom fenced slugs ls, IsLine e.title ∧ IsLine e.anchor := by
  induction ls generalizing fenced slugs with
  | nil => exact nofun
  | cons l ls ih =>
    obtain ⟨hl, hls⟩ := List.forall_mem_cons.1 h
    rw [entriesFrom]
    split
    · exact ih hls _ _
    split
    · exact ih hls _ _
    split
    · exact ih hls _ _
    · next level title hheading =>
      exact List.forall_mem_cons.2
        ⟨⟨hl.of_subset (mem_title hheading), isLine_anchor _ _⟩, ih hls _ _⟩

/-- A table of contents of lines is made of lines. -/
theorem isLine_generate (h : ∀ l ∈ ls, IsLine l) : ∀ l ∈ generate ls, IsLine l := by
  intro l hl
  obtain ⟨e, he, rfl⟩ := List.mem_map.1 hl
  obtain ⟨htitle, hanchor⟩ := isLine_entriesFrom h _ _ e he
  have hspaces : IsLine (spaces (2 * (e.level - 2))) :=
    ⟨fun hc => absurd (List.eq_of_mem_replicate hc) (by decide),
      fun hc => absurd (List.eq_of_mem_replicate hc) (by decide)⟩
  have hopen : IsLine "- [".toList := by decide
  have hlink : IsLine "](#".toList := by decide
  have hclose : IsLine [')'] := by decide
  exact ((((hspaces.append hopen).append htitle).append hlink).append hanchor).append hclose

end LuaDocs.Contents
