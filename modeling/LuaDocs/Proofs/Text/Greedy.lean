import LuaDocs.Proofs.Text.Reading
import LuaDocs.Proofs.Text.Words
import Mathlib.Data.List.Chain
import Mathlib.Data.List.Forall2

/-!
# Greedy filling

What it means that lines are filled greedily is said here without filling them. A word is cut from the left
into parts of equal length; the parts of all words stand in order on rows, none of them empty; and a row ends
exactly where the next part would not fit on it. There is one way only to arrange the parts so, and
`wrap_eq_iff` says that filling finds it.
-/

namespace LuaDocs.Text

variable {s w q indent opening subsequent : Text} {parts ps front more : List Text} {width size i j : ℕ}

/-! ### Words cut into parts -/

/-- A word cut from the left into parts of `size` characters, the last perhaps shorter. -/
structure CutInto (size : ℕ) (w : Text) (parts : List Text) : Prop where
  flatten : parts.flatten = w
  full : ∀ p ∈ parts.dropLast, p.length = size
  last : ∀ p ∈ parts.getLast?, 0 < p.length ∧ p.length ≤ size

theorem chunks_of_lt_length (hsize : 0 < size) (hw : size < w.length) :
    chunks size w = w.take size :: chunks size (w.drop size) := by
  rw [chunks, if_neg (by omega)]

theorem chunks_ne_nil (size : ℕ) (w : Text) : chunks size w ≠ [] := by
  rw [chunks]
  split <;> exact List.cons_ne_nil _ _

theorem cutInto_chunks (hsize : 0 < size) (hw : w ≠ []) : CutInto size w (chunks size w) := by
  fun_induction chunks size w with
  | case1 w hshort =>
    have hpos := List.length_pos_iff.2 hw
    exact ⟨by simp, by simp, by simpa using ⟨hpos, by omega⟩⟩
  | case2 w hlong ih =>
    have hrest := ih (by simp; omega)
    obtain ⟨p, ps, hps⟩ := List.exists_cons_of_ne_nil (chunks_ne_nil size (w.drop size))
    rw [hps] at hrest ⊢
    refine ⟨?_, ?_, by simpa using hrest.last⟩
    · rw [List.flatten_cons, hrest.flatten, List.take_append_drop]
    · rw [List.dropLast_cons_of_ne_nil (List.cons_ne_nil p ps)]
      refine List.forall_mem_cons.2 ⟨?_, hrest.full⟩
      rw [List.length_take]
      omega

theorem CutInto.eq_chunks (h : CutInto size w parts) (hsize : 0 < size) (hw : w ≠ []) :
    parts = chunks size w := by
  obtain ⟨rfl, hfull, hlast⟩ := h
  induction parts with
  | nil => exact absurd rfl hw
  | cons p ps ih =>
    cases ps with
    | nil =>
      have hp : p.length ≤ size := (hlast p rfl).2
      simp [chunks_of_length_le hp]
    | cons q ps =>
      have hp : p.length = size := hfull p (by simp)
      have hfull' : ∀ r ∈ (q :: ps).dropLast, r.length = size := fun r hr => hfull r (by simp_all)
      have hlast' : ∀ r ∈ (q :: ps).getLast?, 0 < r.length ∧ r.length ≤ size := by simpa using hlast
      -- The parts behind the first one are not empty, so it is the whole front of the word.
      have hne : (q :: ps).flatten ≠ [] := by
        intro hnil
        obtain ⟨r, hr⟩ := Option.isSome_iff_exists.1 (List.getLast?_isSome.2 (List.cons_ne_nil q ps))
        have hempty := List.flatten_eq_nil_iff.1 hnil r (List.mem_of_getLast? hr)
        simpa [hempty] using (hlast' r hr).1
      have hpos := List.length_pos_iff.2 hne
      rw [List.flatten_cons, chunks_of_lt_length hsize (by rw [List.length_append]; omega),
        List.take_left' hp, List.drop_left' hp, ← ih hfull' hlast' hne]

theorem forall₂_cutInto_iff (hsize : 0 < size) {ws : List Text} (hws : ∀ w ∈ ws, w ≠ [])
    {cuts : List (List Text)} : List.Forall₂ (CutInto size) ws cuts ↔ cuts = ws.map (chunks size) := by
  induction ws generalizing cuts with
  | nil => simp
  | cons w ws ih =>
    obtain ⟨hw, hws⟩ := List.forall_mem_cons.1 hws
    rw [List.forall₂_cons_left_iff]
    constructor
    · rintro ⟨parts, cuts, hparts, hcuts, rfl⟩
      rw [hparts.eq_chunks hsize hw, (ih hws).1 hcuts, List.map_cons]
    · rintro rfl
      exact ⟨_, _, cutInto_chunks hsize hw, (ih hws).2 rfl, rfl⟩

/-! ### Rows -/

/-- What stands on a line: its opening and, with a space between each and the next, some pieces. -/
structure Row where
  opening : Text
  pieces : List Text

namespace Row

variable {r : Row} {rows rest : List Row}

def text (r : Row) : Text :=
  r.opening ++ join [' '] r.pieces

def HasRoom (width : ℕ) (r : Row) (q : Text) : Prop :=
  r.text.length + 1 + q.length ≤ width

instance (width : ℕ) (r : Row) (q : Text) : Decidable (r.HasRoom width q) :=
  inferInstanceAs (Decidable (_ ≤ _))

def push (r : Row) (q : Text) : Row :=
  ⟨r.opening, r.pieces ++ [q]⟩

theorem text_push (hr : r.pieces ≠ []) (q : Text) : (r.push q).text = r.text ++ ' ' :: q := by
  simp [text, push, join_append hr (List.cons_ne_nil q []), join_singleton]

/-- Each piece of a row but the first fitted when its turn came. -/
def Filled (width : ℕ) (r : Row) : Prop :=
  ∀ front q back, r.pieces = front ++ q :: back → front ≠ [] → HasRoom width ⟨r.opening, front⟩ q

theorem filled_singleton (width : ℕ) (opening q : Text) : Filled width ⟨opening, [q]⟩ := by
  intro front p back heq hfront
  obtain ⟨c, front, rfl⟩ := List.exists_cons_of_ne_nil hfront
  simp at heq

theorem Filled.push (hr : r.Filled width) (hroom : r.HasRoom width q) : (r.push q).Filled width := by
  intro front p back heq hfront
  rcases List.eq_nil_or_concat' back with rfl | ⟨back, p', rfl⟩
  · obtain ⟨hpieces, rfl⟩ : r.pieces = front ∧ q = p := by simpa [Row.push] using heq
    rwa [← hpieces]
  · have hpieces : r.pieces ++ [q] = front ++ p :: back ++ [p'] := by simpa [Row.push] using heq
    exact hr front p back (List.append_inj' hpieces rfl).1 hfront

end Row

/-- Pieces on rows that are filled greedily: a row ends only where the next piece does not fit. -/
structure Fills (width : ℕ) (indent subsequent : Text) (ps : List Text) (rows : List Row) : Prop where
  pieces : rows.flatMap Row.pieces = ps
  nonempty : ∀ r ∈ rows, r.pieces ≠ []
  first : ∀ r ∈ rows.head?, r.opening = indent
  further : ∀ r ∈ rows.tail, r.opening = subsequent
  filled : ∀ r ∈ rows, r.Filled width
  ends : rows.IsChain fun r next => ∀ q ∈ next.pieces.head?, ¬r.HasRoom width q

def rowsFrom (width : ℕ) (subsequent : Text) (r : Row) : List Text → List Row
  | [] => [r]
  | q :: ps =>
    if r.HasRoom width q then rowsFrom width subsequent (r.push q) ps
    else r :: rowsFrom width subsequent ⟨subsequent, [q]⟩ ps

variable {r : Row} {rows rest : List Row}

theorem rowsFrom_eq_cons (width : ℕ) (subsequent : Text) (r : Row) (ps : List Text) :
    ∃ more rest, rowsFrom width subsequent r ps = ⟨r.opening, r.pieces ++ more⟩ :: rest := by
  induction ps generalizing r with
  | nil => exact ⟨[], [], by simp [rowsFrom]⟩
  | cons q ps ih =>
    rw [rowsFrom]
    split
    · obtain ⟨more, rest, hrows⟩ := ih (r.push q)
      exact ⟨q :: more, rest, by simpa [Row.push] using hrows⟩
    · exact ⟨[], _, by rw [List.append_nil]⟩

theorem fills_rowsFrom (hne : r.pieces ≠ []) (hr : r.Filled width) :
    Fills width r.opening subsequent (r.pieces ++ ps) (rowsFrom width subsequent r ps) := by
  induction ps generalizing r with
  | nil => exact ⟨by simp [rowsFrom], by simpa [rowsFrom], by simp [rowsFrom], by simp [rowsFrom],
      by simpa [rowsFrom], by simp [rowsFrom]⟩
  | cons q ps ih =>
    rw [rowsFrom]
    split
    · next hroom =>
      have hpush := ih (r := r.push q) (by simp [Row.push]) (hr.push hroom)
      simpa [Row.push] using hpush
    · next hroom =>
      obtain ⟨more, rest, hrows⟩ := rowsFrom_eq_cons width subsequent ⟨subsequent, [q]⟩ ps
      have hnext := ih (List.cons_ne_nil q []) (Row.filled_singleton width subsequent q)
      rw [hrows] at hnext ⊢
      refine ⟨?_, ?_, by simp, ?_, ?_, ?_⟩
      · rw [List.flatMap_cons, hnext.pieces]
        rfl
      · exact List.forall_mem_cons.2 ⟨hne, hnext.nonempty⟩
      · exact List.forall_mem_cons.2 ⟨rfl, hnext.further⟩
      · exact List.forall_mem_cons.2 ⟨hr, hnext.filled⟩
      · exact List.isChain_cons_cons.2 ⟨by simpa using hroom, hnext.ends⟩

theorem Fills.tail (h : Fills width indent subsequent ps (r :: rows)) :
    Fills width subsequent subsequent (rows.flatMap Row.pieces) rows where
  pieces := rfl
  nonempty := (List.forall_mem_cons.1 h.nonempty).2
  first r' hr' := h.further r' (List.mem_of_mem_head? hr')
  further r' hr' := h.further r' (List.mem_of_mem_tail hr')
  filled := (List.forall_mem_cons.1 h.filled).2
  ends := h.ends.tail

/-- Rows that are filled greedily and begin with the pieces of some row are the rows from that one on. -/
theorem Fills.eq_rowsFrom (h : Fills width opening subsequent (front ++ ps) (⟨opening, front ++ more⟩ :: rest))
    (hfront : front ≠ []) :
    ⟨opening, front ++ more⟩ :: rest = rowsFrom width subsequent ⟨opening, front⟩ ps := by
  induction ps generalizing opening front more rest with
  | nil =>
    have hpieces := h.pieces
    simp only [List.flatMap_cons, List.append_assoc, List.append_cancel_left_eq,
      List.append_eq_nil_iff] at hpieces
    obtain ⟨rfl, hrest⟩ := hpieces
    cases rest with
    | nil => rw [List.append_nil, rowsFrom]
    | cons r rest =>
      have hr := h.nonempty r (by simp)
      simp [List.flatMap_cons, hr] at hrest
  | cons q ps ih =>
    have hpieces : more ++ rest.flatMap Row.pieces = q :: ps := by
      simpa [List.flatMap_cons] using h.pieces
    cases more with
    | nil =>
      -- The row has ended, so `q` opens the next one.
      cases rest with
      | nil => simp at hpieces
      | cons r rest =>
        obtain ⟨p, more, hr⟩ := List.exists_cons_of_ne_nil (h.nonempty r (by simp))
        obtain ⟨rfl, hps⟩ : p = q ∧ more ++ rest.flatMap Row.pieces = ps := by
          simpa [List.flatMap_cons, hr] using hpieces
        obtain rfl : r = ⟨subsequent, [p] ++ more⟩ := by
          have hopening := h.further r (by simp)
          cases r
          simp_all
        have hroom := (List.isChain_cons_cons.1 h.ends).1 p rfl
        rw [List.append_nil] at hroom ⊢
        have hnext : Fills width subsequent subsequent ([p] ++ ps) (⟨subsequent, [p] ++ more⟩ :: rest) := by
          have htail := h.tail
          rwa [List.flatMap_cons, List.append_assoc, hps] at htail
        rw [rowsFrom, if_neg hroom, ih hnext (List.cons_ne_nil p [])]
    | cons p more =>
      obtain ⟨rfl, -⟩ := List.cons.inj hpieces
      have hroom : Row.HasRoom width ⟨opening, front⟩ p :=
        h.filled ⟨opening, front ++ p :: more⟩ (by simp) front p more rfl hfront
      have hpush : Fills width opening subsequent ((front ++ [p]) ++ ps)
          (⟨opening, (front ++ [p]) ++ more⟩ :: rest) := by
        simpa using h
      rw [rowsFrom, if_pos hroom, Row.push, ← ih hpush (by simp), List.append_assoc,
        List.singleton_append]

/-- There is one way to fill rows greedily. -/
theorem fills_cons_iff {p : Text} : Fills width indent subsequent (p :: ps) rows ↔
    rows = rowsFrom width subsequent ⟨indent, [p]⟩ ps := by
  constructor
  · intro h
    cases rows with
    | nil => exact absurd h.pieces (by simp)
    | cons r rows =>
      obtain ⟨q, more, hr⟩ := List.exists_cons_of_ne_nil (h.nonempty r (by simp))
      obtain rfl : q = p := by
        have hpieces := h.pieces
        rw [List.flatMap_cons, hr] at hpieces
        exact (List.cons.inj hpieces).1
      obtain rfl : r = ⟨indent, [q] ++ more⟩ := by
        have hopening := h.first r rfl
        cases r
        simp_all
      have hfront : Fills width indent subsequent ([q] ++ ps) (⟨indent, [q] ++ more⟩ :: rows) := h
      exact hfront.eq_rowsFrom (List.cons_ne_nil q [])
  · rintro rfl
    exact fills_rowsFrom (r := ⟨indent, [p]⟩) (List.cons_ne_nil p []) (Row.filled_singleton width indent p)

theorem fills_nil_iff : Fills width indent subsequent [] rows ↔ rows = [] := by
  constructor
  · intro h
    cases rows with
    | nil => rfl
    | cons r rows =>
      have hpieces := h.pieces
      rw [List.flatMap_cons, List.append_eq_nil_iff] at hpieces
      exact absurd hpieces.1 (h.nonempty r (by simp))
  · rintro rfl
    exact ⟨rfl, by simp, by simp, by simp, by simp, List.IsChain.nil⟩

theorem Fills.unique {rows' : List Row} (h : Fills width indent subsequent ps rows)
    (h' : Fills width indent subsequent ps rows') : rows = rows' := by
  cases ps with
  | nil => rw [fills_nil_iff.1 h, fills_nil_iff.1 h']
  | cons p ps => rw [fills_cons_iff.1 h, fills_cons_iff.1 h']

theorem Fills.mem_of_mem_pieces {p : Text} (h : Fills width indent subsequent ps rows) (hr : r ∈ rows)
    (hp : p ∈ r.pieces) : p ∈ ps := by
  rw [← h.pieces]
  exact List.mem_flatMap_of_mem hr hp

theorem Fills.opening_eq (h : Fills width indent subsequent ps rows) (hr : r ∈ rows) :
    r.opening = indent ∨ r.opening = subsequent := by
  cases rows with
  | nil => cases hr
  | cons first rest =>
    rcases List.mem_cons.1 hr with rfl | hr
    · exact .inl (h.first r rfl)
    · exact .inr (h.further r hr)

/-- The words of an indented row are its pieces. -/
theorem Fills.words_text (h : Fills width (spaces i) (spaces j) ps rows) (hps : ∀ p ∈ ps, words p = [p])
    (hr : r ∈ rows) : words r.text = r.pieces := by
  have hopening : ∀ c ∈ r.opening, isSpace c = true := by
    obtain hopening | hopening := h.opening_eq hr <;> rw [hopening] <;> exact isSpace_of_mem_spaces _
  rw [Row.text, words_append_of_spaces hopening,
    words_join fun p hp => hps p (h.mem_of_mem_pieces hr hp)]

/-! ### Filled lines -/

theorem Row.trimEnd_text (hr : r.pieces ≠ []) (hsolid : ∀ p ∈ r.pieces, Solid p) :
    trimEnd r.text = r.text := by
  simpa [Row.text, trimEnd, dropEndWhile] using
    (solid_join [' '] hsolid hr).trimEnd_append r.opening []

theorem fillFrom_eq (hr : r.pieces ≠ []) (hsolid : ∀ p ∈ r.pieces, Solid p)
    (hps : ∀ p ∈ ps, Solid p) :
    fillFrom width subsequent r.text ps = (rowsFrom width subsequent r ps).map Row.text := by
  induction ps generalizing r with
  | nil => simp [fillFrom, rowsFrom, Row.trimEnd_text hr hsolid]
  | cons q ps ih =>
    obtain ⟨hq, hps⟩ := List.forall_mem_cons.1 hps
    rw [fillFrom, rowsFrom]
    by_cases hroom : r.HasRoom width q
    · have hfits : ¬width < r.text.length + 1 + q.length := Nat.not_lt.2 hroom
      rw [if_pos hroom, if_neg hfits, ← Row.text_push hr]
      refine ih (by simp [Row.push]) ?_ hps
      simpa [Row.push, or_imp, forall_and] using ⟨hsolid, hq⟩
    · have hfull : width < r.text.length + 1 + q.length := Nat.lt_of_not_le hroom
      rw [if_neg hroom, if_pos hfull, List.map_cons,
        ← ih (r := ⟨subsequent, [q]⟩) (List.cons_ne_nil q []) (by simpa using hq) hps]
      simp [Row.text, join_singleton]

theorem solid_of_mem_pieces {indent : ℕ} {p : Text} (h : p ∈ pieces width indent s) : Solid p := by
  obtain ⟨w, hw, hp⟩ := List.mem_flatMap.1 h
  obtain ⟨hne, hunbroken⟩ := unbroken_of_mem_words hw
  obtain ⟨hne, hunbroken⟩ := unbroken_of_mem_chunks hunbroken hne hp
  exact solid_of_forall hne hunbroken

/-- The lines of a filled text are those of its pieces on rows, or one empty line if it has none. -/
theorem wrap_eq_map (width : ℕ) (s : Text) (i j : ℕ) :
    ∃ rows, Fills width (spaces i) (spaces j) (pieces width j s) rows ∧
      wrap s width (spaces i) (spaces j) = if rows = [] then [[]] else rows.map Row.text := by
  rw [wrap, length_spaces]
  have hsolid : ∀ p ∈ pieces width j s, Solid p := fun _ => solid_of_mem_pieces
  cases hall : pieces width j s with
  | nil =>
    refine ⟨[], fills_nil_iff.2 rfl, ?_⟩
    simp [trimEnd, dropEndWhile, spaces, isSpace]
  | cons p ps =>
    rw [hall] at hsolid
    obtain ⟨hp, hps⟩ := List.forall_mem_cons.1 hsolid
    have hline : spaces i ++ p = Row.text ⟨spaces i, [p]⟩ := by simp [Row.text, join_singleton]
    obtain ⟨more, rest, hrows⟩ := rowsFrom_eq_cons width (spaces j) ⟨spaces i, [p]⟩ ps
    refine ⟨_, fills_cons_iff.2 rfl, ?_⟩
    show fillFrom width (spaces j) (spaces i ++ p) ps = _
    rw [if_neg (by simp [hrows]), hline, fillFrom_eq (List.cons_ne_nil p []) (by simpa using hp) hps]

/-- Filling a text is greedy: its lines are the rows that hold the words of the text, cut to the length of a
further line, each row ending exactly where the next piece does not fit on it. A text without words is one
empty line. -/
theorem wrap_eq_iff {ls : List Text} : wrap s width (spaces i) (spaces j) = ls ↔
    ∃ cuts rows, List.Forall₂ (CutInto (max 1 (width - j))) (words s) cuts ∧
      Fills width (spaces i) (spaces j) cuts.flatten rows ∧
      ls = if rows = [] then [[]] else rows.map Row.text := by
  have hwords : ∀ w ∈ words s, w ≠ [] := fun _ hw => (unbroken_of_mem_words hw).1
  have hpieces : ((words s).map (chunks (max 1 (width - j)))).flatten = pieces width j s := by
    rw [pieces, List.flatMap_def]
  obtain ⟨rows, hrows, hwrap⟩ := wrap_eq_map width s i j
  constructor
  · rintro rfl
    refine ⟨_, rows, (forall₂_cutInto_iff (by omega) hwords).2 rfl, ?_, hwrap⟩
    rwa [hpieces]
  · rintro ⟨cuts, rows', hcuts, hrows', rfl⟩
    rw [(forall₂_cutInto_iff (by omega) hwords).1 hcuts, hpieces] at hrows'
    rw [hwrap, hrows.unique hrows']

end LuaDocs.Text
