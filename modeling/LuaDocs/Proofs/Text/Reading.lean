import LuaDocs.Proofs.Text.Lines
import LuaDocs.Text.Reader
import Mathlib.Data.List.DropRight
import Mathlib.Data.List.TakeWhile

/-!
# What readers leave

A reader's result carries a proof that what it leaves is shorter than what it was given. Statements
about readers compare texts only, so `Reads` and `Leaves` say what a reader takes and leaves and
keep the bound out of sight; `Reads.length_lt` and `Leaves.length_lt` bring it back where a
recursion needs it. White space is treated here as well, since the readers of punctuation skip it:
`Blank` is any run of it, and `Solid` is a text that trimming leaves alone.
-/

namespace LuaDocs.Text

variable {α β : Type} {s t r v w : Text} {c d : Char}

/-- A reader takes `a` and leaves the text `r`. -/
def Reads {s : Text} (o : Option (α × Rest s)) (a : α) (r : Text) : Prop :=
  ∃ h, o = some (a, ⟨r, h⟩)

/-- A reader of punctuation leaves the text `r`. -/
def Leaves {s : Text} (o : Option (Rest s)) (r : Text) : Prop :=
  ∃ h, o = some ⟨r, h⟩

theorem Reads.length_lt {o : Option (α × Rest s)} {a : α} (h : Reads o a r) :
    r.length < s.length :=
  h.1

theorem Leaves.length_lt {o : Option (Rest s)} (h : Leaves o r) : r.length < s.length :=
  h.1

theorem Reads.of_eq_some {o : Option (α × Rest s)} {p : α × Rest s} (h : o = some p) :
    Reads o p.1 p.2.1 :=
  ⟨p.2.2, h⟩

theorem Reads.unique {o : Option (α × Rest s)} {a b : α} (h : Reads o a r) (h' : Reads o b v) :
    a = b ∧ r = v := by
  obtain ⟨_, rfl⟩ := h
  obtain ⟨_, h'⟩ := h'
  simpa using h'

theorem Leaves.unique {o : Option (Rest s)} (h : Leaves o r) (h' : Leaves o v) : r = v := by
  obtain ⟨_, rfl⟩ := h
  obtain ⟨_, h'⟩ := h'
  simpa using h'

theorem not_reads_none {a : α} : ¬ Reads (none : Option (α × Rest s)) a r :=
  fun ⟨_, h⟩ => nomatch h

theorem not_leaves_none : ¬ Leaves (none : Option (Rest s)) r :=
  fun ⟨_, h⟩ => nomatch h

theorem reads_some {p : α × Rest s} {a : α} : Reads (some p) a r ↔ p.1 = a ∧ p.2.1 = r := by
  constructor
  · intro h
    obtain ⟨_, h⟩ := h
    obtain rfl := Option.some.inj h
    exact ⟨rfl, rfl⟩
  · intro h
    obtain ⟨rfl, rfl⟩ := h
    exact ⟨p.2.2, rfl⟩

theorem leaves_some {x : Rest s} : Leaves (some x) r ↔ x.1 = r := by
  constructor
  · intro h
    obtain ⟨_, h⟩ := h
    obtain rfl := Option.some.inj h
    rfl
  · rintro rfl
    exact ⟨x.2, rfl⟩

theorem leaves_map {o : Option (Rest s)} {f : Rest s → Rest t} (hf : ∀ x, (f x).1 = x.1) :
    Leaves (o.map f) r ↔ Leaves o r := by
  cases o with
  | none => exact iff_of_false not_leaves_none not_leaves_none
  | some x => rw [Option.map_some, leaves_some, leaves_some, hf]

theorem reads_map {o : Option (α × Rest s)} {g : α → β} {f : α × Rest s → Rest t} {b : β}
    (hf : ∀ p, (f p).1 = p.2.1) :
    Reads (o.map fun p => (g p.1, f p)) b r ↔ ∃ a, Reads o a r ∧ g a = b := by
  cases o with
  | none => exact iff_of_false not_reads_none fun ⟨_, h, _⟩ => not_reads_none h
  | some p =>
    rw [Option.map_some, reads_some, hf]
    constructor
    · intro h
      obtain ⟨hb, hr⟩ := h
      exact ⟨p.1, reads_some.2 ⟨rfl, hr⟩, hb⟩
    · intro h
      obtain ⟨a, ha, hb⟩ := h
      obtain ⟨rfl, hr⟩ := reads_some.1 ha
      exact ⟨hb, hr⟩

theorem reads_bind {o : Option (α × Rest s)} {f : α × Rest s → Option (β × Rest t)} {b : β} :
    Reads (o.bind f) b r ↔ ∃ p, o = some p ∧ Reads (f p) b r := by
  cases o with
  | none => exact iff_of_false not_reads_none nofun
  | some p => simp

theorem reads_map_rest {o : Option (Rest s)} {f : Rest s → Rest t} {a b : β}
    (hf : ∀ x, (f x).1 = x.1) : Reads (o.map fun x => (a, f x)) b r ↔ Leaves o r ∧ a = b := by
  cases o with
  | none => exact iff_of_false not_reads_none fun ⟨h, _⟩ => not_leaves_none h
  | some x => rw [Option.map_some, reads_some, leaves_some, hf, and_comm]

/-! ### White space -/

def Blank (w : Text) : Prop :=
  ∀ c ∈ w, isSpace c

theorem blank_nil : Blank [] :=
  fun _ h => nomatch h

theorem blank_space : Blank [' '] := by
  intro c hc
  obtain rfl := List.mem_singleton.1 hc
  decide

theorem Blank.append (hv : Blank v) (hw : Blank w) : Blank (v ++ w) :=
  fun c hc => (List.mem_append.1 hc).elim (hv c) (hw c)

theorem trimStart_append_of_blank (h : Blank w) : trimStart (w ++ s) = trimStart s :=
  List.dropWhile_append_of_pos h

theorem trim_of_blank (h : Blank w) : trim w = [] := by
  have hstart : trimStart w = [] := List.dropWhile_eq_nil_iff.2 h
  rw [trim, hstart]
  rfl

theorem trimEnd_of_blank (h : Blank w) : trimEnd w = [] :=
  List.rdropWhile_eq_nil_iff.2 h

theorem trimStart_cons_of_not_isSpace (h : isSpace c = false) : trimStart (c :: s) = c :: s :=
  List.dropWhile_cons_of_neg (by simp [h])

/-- White space in front of a text is a run of it, and the text without it opens with none. -/
theorem exists_blank_append_trimStart (s : Text) : ∃ w, Blank w ∧ s = w ++ trimStart s :=
  ⟨s.takeWhile isSpace, fun _ h => List.mem_takeWhile_imp h, List.takeWhile_append_dropWhile.symm⟩

theorem not_isSpace_of_mem_head?_trimStart (h : c ∈ (trimStart s).head?) : isSpace c = false := by
  have := List.head?_dropWhile_not isSpace s
  rw [trimStart] at h
  rw [Option.mem_def.1 h] at this
  exact this

theorem trimStart_trimStart (s : Text) : trimStart (trimStart s) = trimStart s :=
  List.dropWhile_idempotent _ _

/-- A text with characters, the first and the last of them no white space. -/
def Solid (w : Text) : Prop :=
  (∃ c ∈ w.head?, isSpace c = false) ∧ ∃ c ∈ w.getLast?, isSpace c = false

theorem solid_singleton (h : isSpace c = false) : Solid [c] :=
  ⟨⟨c, rfl, h⟩, c, rfl, h⟩

theorem solid_of_forall (hne : w ≠ []) (h : ∀ c ∈ w, isSpace c = false) : Solid w :=
  ⟨⟨w.head hne, List.head?_eq_some_head hne, h _ (List.head_mem hne)⟩, w.getLast hne,
    List.getLast?_eq_some_getLast hne, h _ (List.getLast_mem hne)⟩

/-- What stands between two solid texts does not matter. -/
theorem Solid.append (hv : Solid v) (m : Text) (hw : Solid w) : Solid (v ++ m ++ w) := by
  obtain ⟨⟨c, hc, hcs⟩, -⟩ := hv
  obtain ⟨-, d, hd, hds⟩ := hw
  refine ⟨⟨c, ?_, hcs⟩, d, ?_, hds⟩
  · rw [Option.mem_def] at hc ⊢
    rw [List.append_assoc, List.head?_append, hc, Option.some_or]
  · rw [Option.mem_def] at hd ⊢
    rw [List.getLast?_append, hd]
    rfl

theorem Solid.concat (hv : Solid v) (m : Text) (hc : isSpace c = false) :
    Solid (v ++ (m ++ [c])) := by
  rw [← List.append_assoc]
  exact hv.append m (solid_singleton hc)

theorem Solid.append_cons (hv : Solid v) (m : Text) (c : Char) (r : Text) (hw : Solid w) :
    Solid (v ++ (m ++ c :: (r ++ w))) := by
  simpa using hv.append (m ++ c :: r) hw

theorem solid_join {ls : List Text} (v : Text) (hls : ∀ l ∈ ls, Solid l) (hne : ls ≠ []) :
    Solid (join v ls) := by
  induction ls with
  | nil => exact absurd rfl hne
  | cons l ls ih =>
    obtain ⟨hl, hls⟩ := List.forall_mem_cons.1 hls
    cases ls with
    | nil => rwa [join_singleton]
    | cons k ks =>
      rw [join_cons_cons, ← List.append_assoc]
      exact hl.append v (ih hls (List.cons_ne_nil k ks))

theorem Solid.trimStart_append (h : Solid w) (s : Text) : trimStart (w ++ s) = w ++ s := by
  obtain ⟨⟨c, hc, hcs⟩, -⟩ := h
  obtain ⟨v, rfl⟩ := List.head?_eq_some_iff.1 hc
  exact trimStart_cons_of_not_isSpace hcs

theorem Solid.trimStart_eq (h : Solid w) : trimStart w = w := by
  simpa using h.trimStart_append []

theorem trimStart_append_cons (hc : isSpace c = false) (s t : Text) :
    trimStart (s ++ c :: t) = trimStart s ++ c :: t := by
  induction s with
  | nil => exact trimStart_cons_of_not_isSpace hc
  | cons d s ih =>
    simp only [trimStart, List.cons_append, List.dropWhile_cons] at ih ⊢
    split
    · exact ih
    · rfl

theorem trimEnd_append_cons (hc : isSpace c = false) (s t : Text) :
    trimEnd (s ++ c :: t) = s ++ c :: trimEnd t := by
  have hreverse := trimStart_append_cons hc t.reverse s.reverse
  simp only [trimStart] at hreverse
  simp [trimEnd, dropEndWhile, hreverse]

theorem Solid.trimEnd_append (hw : Solid w) (s t : Text) :
    trimEnd (s ++ (w ++ t)) = s ++ (w ++ trimEnd t) := by
  obtain ⟨-, c, hc, hspace⟩ := hw
  obtain ⟨v, rfl⟩ := List.getLast?_eq_some_iff.1 hc
  simpa using trimEnd_append_cons hspace (s ++ v) t

theorem Solid.trim_eq (h : Solid w) : trim w = w := by
  rw [trim, h.trimStart_eq]
  obtain ⟨-, c, hc, hcs⟩ := h
  obtain ⟨v, rfl⟩ := List.getLast?_eq_some_iff.1 hc
  exact List.rdropWhile_concat_neg _ _ _ (by simp [hcs])

theorem Solid.ne_nil (h : Solid w) : w ≠ [] := by
  rintro rfl
  obtain ⟨⟨_, hc, _⟩, _⟩ := h
  cases hc

/-- Trimming leaves nothing or a solid text. -/
theorem trim_eq_nil_or_solid (s : Text) : trim s = [] ∨ Solid (trim s) := by
  by_cases h : trim s = []
  · exact .inl h
  · refine .inr ⟨?_, (trim s).getLast h, List.getLast?_eq_some_getLast h, ?_⟩
    · obtain ⟨c, v, hv⟩ := List.exists_cons_of_ne_nil h
      obtain ⟨e, he⟩ : trim s <+: trimStart s := List.rdropWhile_prefix isSpace _
      have hc : c ∈ (trimStart s).head? := by rw [← he, hv]; rfl
      exact ⟨c, by rw [hv]; rfl, not_isSpace_of_mem_head?_trimStart hc⟩
    · exact (Bool.not_eq_true _).mp (List.rdropWhile_last_not isSpace (trimStart s) h)

theorem eq_nil_of_trim_eq_append (hs : trim s = w ++ r) (hr : Blank r) : r = [] := by
  by_contra hne
  rcases trim_eq_nil_or_solid s with h | ⟨-, c, hc, hspace⟩
  · exact hne (List.append_eq_nil_iff.1 (hs.symm.trans h)).2
  · have hlast : (w ++ r).getLast? = some (r.getLast hne) := by
      rw [List.getLast?_append, List.getLast?_eq_some_getLast hne, Option.some_or]
    rw [hs, Option.mem_def, hlast] at hc
    have hblank := hr _ (List.getLast_mem hne)
    rw [Option.some.inj hc, hspace] at hblank
    cases hblank

theorem trim_trim (s : Text) : trim (trim s) = trim s := by
  rcases trim_eq_nil_or_solid s with h | h
  · rw [h]
    rfl
  · exact h.trim_eq

theorem trimStart_trim (s : Text) : trimStart (trim s) = trim s := by
  rcases trim_eq_nil_or_solid s with h | h
  · rw [h]
    rfl
  · exact h.trimStart_eq

theorem Solid.isSpace_of_mem_head? (h : Solid w) (hc : c ∈ (w ++ s).head?) : isSpace c = false := by
  obtain ⟨⟨d, hd, hspace⟩, -⟩ := h
  obtain ⟨v, rfl⟩ := List.head?_eq_some_iff.1 hd
  obtain rfl := Option.some.inj hc
  exact hspace

theorem not_isBlank_of_not_isSpace (h : isSpace c = false) : isBlank c = false := by
  rw [← Bool.not_eq_true, isBlank, Bool.or_eq_true, beq_iff_eq, beq_iff_eq]
  rintro (rfl | rfl)
  · exact absurd h (by decide)
  · exact absurd h (by decide)

/-! ### Blanks -/

def Blanks (b : Text) : Prop :=
  ∀ c ∈ b, isBlank c = true

def Unblank (s : Text) : Prop :=
  ∀ c ∈ s.head?, isBlank c = false

theorem blanks_nil : Blanks [] :=
  nofun

theorem blanks_space : Blanks [' '] :=
  List.forall_mem_singleton.2 rfl

theorem isSpace_of_isBlank (h : isBlank c = true) : isSpace c = true := by
  by_contra hspace
  rw [not_isBlank_of_not_isSpace (by simpa using hspace)] at h
  cases h

theorem Blanks.blank (h : Blanks w) : Blank w :=
  fun c hc => isSpace_of_isBlank (h c hc)

theorem Blanks.not_dash (h : Blanks w) : '-' ∉ w :=
  fun hmem => absurd (h _ hmem) (by decide)

theorem forall_head?_cons {p : Char → Prop} (h : p c) : ∀ d ∈ (c :: s).head?, p d := by
  intro d hd
  obtain rfl := Option.some.inj hd
  exact h

theorem unblank_cons (hc : isBlank c = false) : Unblank (c :: s) :=
  forall_head?_cons hc

theorem Solid.unblank (h : Solid w) (s : Text) : Unblank (w ++ s) :=
  fun _ hc => not_isBlank_of_not_isSpace (h.isSpace_of_mem_head? hc)

theorem skipBlanks_append (hw : Blanks w) (hs : Unblank s) : skipBlanks (w ++ s) = s := by
  rw [skipBlanks, List.dropWhile_append_of_pos hw]
  cases s with
  | nil => rfl
  | cons c s => exact List.dropWhile_cons_of_neg (by simp [hs c rfl])

theorem someBlanks?_append (hw : Blanks w) (hne : w ≠ []) (hs : Unblank s) :
    someBlanks? (w ++ s) = some s := by
  obtain ⟨c, v, rfl⟩ := List.exists_cons_of_ne_nil hne
  obtain ⟨hc, hv⟩ := List.forall_mem_cons.1 hw
  rw [List.cons_append, someBlanks?, if_pos hc, skipBlanks_append hv hs]

theorem unblank_append_iff (hne : s ≠ []) : Unblank (s ++ t) ↔ Unblank s := by
  rw [Unblank, Unblank, List.head?_append_of_ne_nil s hne]

theorem someBlanks?_eq_some_iff :
    someBlanks? s = some t ↔ ∃ b, s = b ++ t ∧ Blanks b ∧ b ≠ [] ∧ Unblank t := by
  constructor
  · intro h
    cases s with
    | nil => cases h
    | cons c s =>
      rw [someBlanks?] at h
      split at h
      · next hc =>
        obtain rfl := Option.some.inj h
        refine ⟨c :: s.takeWhile isBlank, ?_, ?_, List.cons_ne_nil _ _, fun d hd => ?_⟩
        · rw [skipBlanks, List.cons_append, List.takeWhile_append_dropWhile]
        · exact List.forall_mem_cons.2 ⟨hc, fun d hd => List.mem_takeWhile_imp hd⟩
        · have hstop := List.head?_dropWhile_not isBlank s
          rw [skipBlanks, Option.mem_def] at hd
          rw [hd] at hstop
          exact hstop
      · cases h
  · rintro ⟨b, rfl, hb, hne, ht⟩
    exact someBlanks?_append hb hne ht

/-! ### Runs at either end -/

/-- The run of a character at the front of a text, and what follows it. -/
theorem frontRun_eq_iff {n : ℕ} : (s.takeWhile (· == c)).length = n ∧ s.drop n = t ↔
    s = List.replicate n c ++ t ∧ t.head? ≠ some c := by
  constructor
  · rintro ⟨rfl, rfl⟩
    have hrun : s.takeWhile (· == c) = List.replicate (s.takeWhile (· == c)).length c :=
      List.eq_replicate_of_mem fun d hd => by simpa using List.mem_takeWhile_imp hd
    have hdrop : s.drop (s.takeWhile (· == c)).length = s.dropWhile (· == c) :=
      calc s.drop (s.takeWhile (· == c)).length
          = (s.takeWhile (· == c) ++ s.dropWhile (· == c)).drop (s.takeWhile (· == c)).length := by
            rw [List.takeWhile_append_dropWhile]
        _ = s.dropWhile (· == c) := List.drop_left' rfl
    rw [← hrun, hdrop, List.takeWhile_append_dropWhile]
    refine ⟨rfl, fun h => ?_⟩
    have hstop := List.head?_dropWhile_not (· == c) s
    rw [h] at hstop
    simp at hstop
  · rintro ⟨rfl, ht⟩
    have hstop : t.takeWhile (· == c) = [] := by
      cases t with
      | nil => rfl
      | cons d t => exact List.takeWhile_cons_of_neg (by simpa using ht)
    rw [List.takeWhile_append_of_pos (by simp +contextual), hstop, List.append_nil]
    exact ⟨List.length_replicate, List.drop_left' List.length_replicate⟩

theorem dropEndWhile_eq_iff {p : Char → Bool} : dropEndWhile p s = t ↔
    (∃ r, s = t ++ r ∧ ∀ c ∈ r, p c = true) ∧ ∀ c ∈ t.getLast?, p c = false := by
  constructor
  · rintro rfl
    refine ⟨⟨s.rtakeWhile p, List.rdropWhile_append_rtakeWhile.symm,
      fun c hc => List.mem_rtakeWhile_imp hc⟩, fun c hc => ?_⟩
    obtain ⟨hne, rfl⟩ := List.mem_getLast?_eq_getLast hc
    exact (Bool.not_eq_true _).mp (List.rdropWhile_last_not p s hne)
  · rintro ⟨⟨r, rfl, hr⟩, hlast⟩
    rw [dropEndWhile, List.reverse_append, List.dropWhile_append_of_pos (by simpa using hr)]
    change t.rdropWhile p = t
    rw [List.rdropWhile_eq_self_iff]
    intro hne
    simpa using hlast _ (List.getLast?_eq_some_getLast hne)

/-- What stands behind the last of some characters. -/
theorem rtakeWhile_append_cons (h : c ∉ t) : (s ++ c :: t).rtakeWhile (· != c) = t := by
  have hother : ∀ d ∈ t.reverse, (d != c) = true := by
    intro d hd
    rw [bne_iff_ne]
    rintro rfl
    exact h (List.mem_reverse.1 hd)
  rw [List.rtakeWhile, List.reverse_append, List.reverse_cons, List.append_assoc,
    List.takeWhile_append_of_pos hother, List.singleton_append,
    List.takeWhile_cons_of_neg (by simp), List.append_nil, List.reverse_reverse]

/-! ### Openings -/

theorem after?_append (w s : Text) : after? w (w ++ s) = some s :=
  List.isPrefixOf?_eq_some_iff_append_eq.2 rfl

theorem after?_cons_of_ne (h : c ≠ d) : after? (c :: w) (d :: s) = none := by
  rw [after?, List.isPrefixOf?, if_neg (by simpa using h)]

/-! ### Punctuation -/

theorem mark?_cons_self : mark? c (c :: s) = some (.afterFirst c s) := by
  rw [mark?, if_pos (beq_self_eq_true c)]

theorem leaves_mark? : Leaves (mark? c s) r ↔ s = c :: r := by
  cases s with
  | nil => exact iff_of_false not_leaves_none nofun
  | cons d s =>
    by_cases h : d = c
    · subst h
      rw [mark?_cons_self, leaves_some, List.cons.injEq]
      exact (and_iff_right rfl).symm
    · simp [mark?, h, not_leaves_none]

theorem leaves_closing? : Leaves (closing? c s) r ↔ trimStart s = c :: r := by
  rw [closing?, leaves_map (f := .ofLe (length_trimStart_le s)) (fun _ => rfl), leaves_mark?]

theorem leaves_between? :
    Leaves (between? c s) r ↔ ∃ v, trimStart s = c :: v ∧ trimStart v = r := by
  rw [between?]
  cases h : closing? c s with
  | none =>
    refine iff_of_false not_leaves_none ?_
    intro h
    obtain ⟨v, hv, -⟩ := h
    exact not_leaves_none (h ▸ leaves_closing?.2 hv)
  | some x =>
    have hx : trimStart s = c :: x.1 := leaves_closing?.1 (h ▸ leaves_some.2 rfl)
    rw [Option.map_some, leaves_some, hx]
    simp [Rest.followedBy, Tail.skip, trimStart]

theorem eq_none_iff_not_leaves {o : Option (Rest s)} : o = none ↔ ∀ r, ¬ Leaves o r := by
  cases o with
  | none => exact iff_of_true rfl fun _ => not_leaves_none
  | some x => exact iff_of_false nofun fun h => h x.1 (leaves_some.2 rfl)

theorem mem_head?_iff : c ∈ s.head? ↔ ∃ r, s = c :: r :=
  List.head?_eq_some_iff

theorem mark?_eq_none_iff : mark? c s = none ↔ c ∉ s.head? := by
  simp only [eq_none_iff_not_leaves, leaves_mark?, mem_head?_iff, not_exists]

theorem closing?_eq_none_iff : closing? c s = none ↔ c ∉ (trimStart s).head? := by
  simp only [eq_none_iff_not_leaves, leaves_closing?, mem_head?_iff, not_exists]

theorem between?_eq_none_iff : between? c s = none ↔ c ∉ (trimStart s).head? := by
  rw [between?, Option.map_eq_none_iff, closing?_eq_none_iff]

theorem leaves_closing?_append (hv : Blank v) (hc : isSpace c = false) :
    Leaves (closing? c (v ++ c :: r)) r := by
  rw [leaves_closing?, trimStart_append_of_blank hv, trimStart_cons_of_not_isSpace hc]

theorem leaves_between?_append (hv : Blank v) (hw : Blank w) (hc : isSpace c = false) :
    Leaves (between? c (v ++ c :: (w ++ r))) (trimStart r) := by
  refine leaves_between?.2 ⟨w ++ r, ?_, trimStart_append_of_blank hw⟩
  rw [trimStart_append_of_blank hv, trimStart_cons_of_not_isSpace hc]

theorem leaves_between?_append_solid (hv : Blank v) (hw : Blank w) (ht : Solid t)
    (hc : isSpace c = false) : Leaves (between? c (v ++ c :: (w ++ (t ++ r)))) (t ++ r) := by
  have h := leaves_between?_append (r := t ++ r) hv hw hc
  rwa [ht.trimStart_append] at h

/-- White space, the mark and white space make up what a separator takes. -/
theorem exists_blank_of_leaves_between? (h : Leaves (between? c s) r) :
    ∃ v w, Blank v ∧ Blank w ∧ s = v ++ c :: (w ++ r) := by
  obtain ⟨x, hx, rfl⟩ := leaves_between?.1 h
  obtain ⟨v, hv, hs⟩ := exists_blank_append_trimStart s
  obtain ⟨w, hw, hxw⟩ := exists_blank_append_trimStart x
  exact ⟨v, w, hv, hw, by rw [← hxw, ← hx, ← hs]⟩

theorem exists_blank_of_leaves_closing? (h : Leaves (closing? c s) r) :
    ∃ v, Blank v ∧ s = v ++ c :: r := by
  obtain ⟨v, hv, hs⟩ := exists_blank_append_trimStart s
  exact ⟨v, hv, by rw [← leaves_closing?.1 h, ← hs]⟩

/-! ### Parts of a text -/

section

variable {n part : Text} {p : Char → Bool}

theorem skipBlanks_sublist (s : Text) : (skipBlanks s).Sublist s :=
  List.dropWhile_sublist _

theorem trimEnd_sublist (s : Text) : (trimEnd s).Sublist s := by
  have hreverse := (List.dropWhile_sublist (p := isSpace) (l := s.reverse)).reverse
  rwa [List.reverse_reverse] at hreverse

theorem trim_sublist (s : Text) : (trim s).Sublist s :=
  (trimEnd_sublist _).trans (List.dropWhile_sublist _)

theorem after?_sublist (h : after? w s = some r) : r.Sublist s := by
  rw [after?, List.isPrefixOf?_eq_some_iff_append_eq] at h
  rw [← h]
  exact List.sublist_append_right w r

theorem someBlanks?_sublist (h : someBlanks? s = some r) : r.Sublist s := by
  cases s with
  | nil => cases h
  | cons c s =>
    rw [someBlanks?] at h
    split at h
    · cases h
      exact (skipBlanks_sublist s).cons c
    · cases h

theorem mem_splitWhere (h : part ∈ splitWhere p s) (hc : c ∈ part) : c ∈ s ∧ p c = false := by
  rw [splitWhere_eq] at h
  exact mem_of_mem_splitOnP h hc

/-- A name and what follows it are parts of the text, and the name has the characters of one. -/
theorem of_name? (h : name? p s = some (n, r)) :
    (∀ c ∈ n, isNameStart c = true ∨ p c = true) ∧ n.Sublist s ∧ r.Sublist s := by
  cases s with
  | nil => cases h
  | cons d s =>
    rw [name?] at h
    split at h
    · next hd =>
      cases h
      refine ⟨List.forall_mem_cons.2 ⟨.inl hd, fun c hc => .inr (List.mem_takeWhile_imp hc)⟩, ?_, ?_⟩
      · exact (List.takeWhile_sublist p).cons_cons d
      · exact (List.dropWhile_sublist p).cons d
    · cases h

end

end LuaDocs.Text
