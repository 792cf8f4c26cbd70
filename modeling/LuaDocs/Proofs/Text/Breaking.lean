import LuaDocs.Proofs.Text.Filling

/-!
# Words broken over lines

A word longer than a further line is cut into pieces as long as such a line. There it fills the line up, so
the line ends where the word is cut. The first line may be indented less, though, and then a piece leaves
room on it: `SplitsInside` says when the next piece of the same word fits as well. It is the only way in
which a space gets into a word. The pieces carry the number of their word here, so that two of them can be
told to come from one occurrence of it.
-/

namespace LuaDocs.Text

/-- A piece of the word with a given number. -/
structure Piece where
  word : ℕ
  text : Text
  deriving DecidableEq

namespace Piece

variable {size n : ℕ} {ws us vs : List Text} {w : Text} {p q : Piece} {row front back above below : List Piece}

def numbered (size : ℕ) : ℕ → List Text → List Piece
  | _, [] => []
  | n, w :: ws => (chunks size w).map (Piece.mk n) ++ numbered size (n + 1) ws

def Apart (row : List Piece) : Prop :=
  (row.map word).Nodup

instance (row : List Piece) : Decidable (Apart row) :=
  inferInstanceAs (Decidable (List.Nodup _))

theorem map_text_numbered (size n : ℕ) (ws : List Text) :
    (numbered size n ws).map text = ws.flatMap (chunks size) := by
  induction ws generalizing n with
  | nil => rfl
  | cons w ws ih => simp [numbered, ih, Function.comp_def]

theorem numbered_append (size n : ℕ) (us vs : List Text) :
    numbered size n (us ++ vs) = numbered size n us ++ numbered size (n + us.length) vs := by
  induction us generalizing n with
  | nil => rfl
  | cons u us ih => simp [numbered, ih, Nat.add_assoc, Nat.add_comm 1]

theorem le_word_of_mem_numbered (h : p ∈ numbered size n ws) : n ≤ p.word := by
  induction ws generalizing n with
  | nil => cases h
  | cons w ws ih =>
    rcases List.mem_append.1 h with h | h
    · obtain ⟨v, -, rfl⟩ := List.mem_map.1 h
      exact Nat.le_refl n
    · exact Nat.le_of_succ_le (ih h)

theorem flatten_chunks (size : ℕ) (w : Text) : (chunks size w).flatten = w := by
  fun_induction chunks size w with
  | case1 w _ => simp
  | case2 w _ ih => rw [List.flatten_cons, ih, List.take_append_drop]

theorem isChain_chunks (size : ℕ) (w : Text) : (chunks size w).IsChain fun v _ => v.length = size := by
  fun_induction chunks size w with
  | case1 w _ => exact List.IsChain.singleton w
  | case2 w hlong ih =>
    refine ih.cons fun _ _ => ?_
    rw [List.length_take]
    omega

/-- Only a piece of full length is followed by one of the same word. -/
theorem isChain_numbered (size n : ℕ) (ws : List Text) :
    (numbered size n ws).IsChain fun p q => p.word < q.word ∨ p.text.length = size := by
  induction ws generalizing n with
  | nil => exact List.IsChain.nil
  | cons w ws ih =>
    refine List.IsChain.append ?_ (ih (n + 1)) ?_
    · rw [List.isChain_map]
      exact (isChain_chunks size w).imp fun _ _ => .inr
    · intro p hp q hq
      obtain ⟨v, -, rfl⟩ := List.mem_map.1 (List.mem_of_getLast? hp)
      exact .inl (le_word_of_mem_numbered (List.mem_of_head? hq))

/-- Words that are not longer than a piece are one piece each. -/
theorem isChain_numbered_of_short (hws : ∀ w ∈ ws, w.length ≤ size) :
    (numbered size n ws).IsChain fun p q => p.word < q.word := by
  induction ws generalizing n with
  | nil => exact List.IsChain.nil
  | cons w ws ih =>
    obtain ⟨hw, hws⟩ := List.forall_mem_cons.1 hws
    rw [numbered, chunks_of_length_le hw]
    refine (ih hws).cons fun q hq => ?_
    exact le_word_of_mem_numbered (List.mem_of_head? hq)

theorem flatMap_chunks_of_short (hws : ∀ w ∈ ws, w.length ≤ size) : ws.flatMap (chunks size) = ws := by
  induction ws with
  | nil => rfl
  | cons w ws ih =>
    obtain ⟨hw, hws⟩ := List.forall_mem_cons.1 hws
    rw [List.flatMap_cons, chunks_of_length_le hw, ih hws]
    rfl

theorem length_numbered_of_short (hws : ∀ w ∈ ws, w.length ≤ size) (n : ℕ) :
    (numbered size n ws).length = ws.length := by
  have htexts := map_text_numbered size n ws
  rw [flatMap_chunks_of_short hws] at htexts
  rw [← List.length_map, htexts]

theorem apart_of_isChain (h : row.IsChain fun p q => p.word < q.word) : Apart row := by
  have hwords : (row.map word).IsChain (· < ·) := (List.isChain_map word).2 h
  exact (List.isChain_iff_pairwise.1 hwords).imp Nat.ne_of_lt

theorem Apart.sublist (hrow : row.Sublist front) (h : Apart front) : Apart row :=
  List.Nodup.sublist (hrow.map word) h

theorem Apart.ne (h : Apart (front ++ p :: q :: back)) : p.word ≠ q.word := by
  simp only [Apart, List.map_append, List.map_cons, List.nodup_append, List.nodup_cons, List.mem_cons] at h
  exact fun hword => h.2.1.1 (.inl hword)

/-- A piece is a whole word, or a piece next to it belongs to the same word. -/
theorem whole_or_next (h : numbered size n ws = front ++ p :: back) :
    ws[p.word - n]? = some p.text ∨ (∃ q ∈ back.head?, q.word = p.word) ∨
      ∃ q ∈ front.getLast?, q.word = p.word := by
  induction ws generalizing n front with
  | nil => simp [numbered] at h
  | cons w ws ih =>
    -- A piece of a further word has its neighbours among the pieces of the further words.
    have hlater (rest : List Piece) (hfront : front = (chunks size w).map (Piece.mk n) ++ rest)
        (hrest : numbered size (n + 1) ws = rest ++ p :: back) :
        (w :: ws)[p.word - n]? = some p.text ∨ (∃ q ∈ back.head?, q.word = p.word) ∨
          ∃ q ∈ front.getLast?, q.word = p.word := by
      have hmem : p ∈ numbered size (n + 1) ws := by simp [hrest]
      have hle := le_word_of_mem_numbered hmem
      have hindex : p.word - n = p.word - (n + 1) + 1 := by omega
      refine (ih hrest).imp (fun hwhole => ?_) (Or.imp_right ?_)
      · rwa [hindex, List.getElem?_cons_succ]
      · rintro ⟨q, hq, hword⟩
        refine ⟨q, ?_, hword⟩
        rw [Option.mem_def] at hq ⊢
        rw [hfront, List.getLast?_append, hq]
        rfl
    obtain ⟨rest, hfront, hrest⟩ | ⟨rest, hchunks, hback⟩ := List.append_eq_append_iff.1 h
    · exact hlater rest hfront hrest
    · cases rest with
      | nil => exact hlater [] (by simpa using hchunks.symm) (by simpa using hback.symm)
      | cons p' rest =>
        obtain ⟨rfl, rfl⟩ := List.cons.inj hback
        have hword : ∀ q ∈ front ++ p :: rest, q.word = n := by
          rw [← hchunks]
          simp
        have hp : p.word = n := hword p (by simp)
        cases rest with
        | cons q rest =>
          refine .inr (.inl ⟨q, rfl, ?_⟩)
          rw [hp]
          exact hword q (by simp)
        | nil =>
          rcases List.eq_nil_or_concat' front with rfl | ⟨front, q, rfl⟩
          · have hw : w = p.text := by
              have hflatten := congrArg (fun ps => (ps.map text).flatten) hchunks
              simpa [Function.comp_def, flatten_chunks] using hflatten
            exact .inl (by simp [hp, hw])
          · refine .inr (.inr ⟨q, by simp, ?_⟩)
            rw [hp]
            exact hword q (by simp)

/-- Each item of a row is a whole word, but the last one may be continued by the first of the row below, and
the first one may continue the last of the row above. -/
def KeepsWords (ws : List Text) (above : List (List Piece)) (row : List Piece)
    (below : List (List Piece)) : Prop :=
  ∀ front p back, row = front ++ p :: back →
    ws[p.word]? = some p.text ∨
    (back = [] ∧ ∃ q next rest, below = (q :: next) :: rest ∧ q.word = p.word) ∨
    front = [] ∧ ∃ rest prior q, above = rest ++ [prior ++ [q]] ∧ q.word = p.word

theorem keepsWords {above below : List (List Piece)}
    (h : (above ++ row :: below).flatten = numbered size 0 ws)
    (habove : ∀ r ∈ above, r ≠ []) (hbelow : ∀ r ∈ below, r ≠ []) (hapart : Apart row) :
    KeepsWords ws above row below := by
  rintro front p back rfl
  have hpieces : numbered size 0 ws =
      (above.flatten ++ front) ++ p :: (back ++ below.flatten) := by
    simp [← h]
  obtain hwhole | ⟨q, hq, hword⟩ | ⟨q, hq, hword⟩ := whole_or_next hpieces
  · exact .inl hwhole
  · refine .inr (.inl ?_)
    cases back with
    | cons b back =>
      obtain rfl : b = q := by simpa using hq
      exact absurd hword.symm hapart.ne
    | nil =>
      refine ⟨rfl, ?_⟩
      cases below with
      | nil => simp at hq
      | cons next rest =>
        obtain ⟨q', next, rfl⟩ := List.exists_cons_of_ne_nil (hbelow next (by simp))
        obtain rfl : q' = q := by simpa using hq
        exact ⟨q', next, rest, rfl, hword⟩
  · refine .inr (.inr ?_)
    rcases List.eq_nil_or_concat' front with rfl | ⟨front, b, rfl⟩
    · refine ⟨rfl, ?_⟩
      rcases List.eq_nil_or_concat' above with rfl | ⟨rest, last, rfl⟩
      · simp at hq
      · obtain ⟨prior, q', rfl⟩ := (List.eq_nil_or_concat' last).resolve_left (habove last (by simp))
        obtain rfl : q' = q := by simpa using hq
        exact ⟨rest, prior, q', rfl, hword⟩
    · obtain rfl : b = q := by simpa using hq
      rw [List.append_assoc] at hapart
      exact absurd hword hapart.ne

end Piece

open Piece

variable {s : Text} {ps qs : List Text} {indent subsequent : Text} {rows : List Row} {r : Row}
  {row : List Piece} {ws us vs : List Text} {w : Text} {width size i j : ℕ}

/-! ### Rows of pieces -/

/-- A list that is cut is cut in the same way before a map. -/
theorem exists_flatten_of_map {α β : Type} {f : α → β} {gs : List (List β)} {xs : List α}
    (h : gs.flatten = xs.map f) : ∃ hs : List (List α), hs.flatten = xs ∧ hs.map (List.map f) = gs := by
  induction gs generalizing xs with
  | nil => exact ⟨[], by simpa using h.symm, rfl⟩
  | cons g gs ih =>
    obtain ⟨ys, zs, rfl, rfl, hzs⟩ := List.map_eq_append_iff.1 h.symm
    obtain ⟨hs, rfl, rfl⟩ := ih hzs.symm
    exact ⟨ys :: hs, rfl, rfl⟩

theorem length_join_append_le (ps qs : List Text) :
    (join [' '] ps).length ≤ (join [' '] (ps ++ qs)).length := by
  by_cases hps : ps = []
  · simp [hps, join]
  · by_cases hqs : qs = []
    · simp [hqs]
    · rw [join_append hps hqs]
      simp

theorem length_le_join {p : Text} (h : p ∈ ps) : p.length ≤ (join [' '] ps).length := by
  induction ps with
  | nil => cases h
  | cons q ps ih =>
    cases ps with
    | nil => simp_all [join_singleton]
    | cons q' ps =>
      rw [join_cons_cons]
      rcases List.mem_cons.1 h with rfl | h
      · simp
      · have hle := ih h
        simp only [List.length_append]
        omega

theorem isChain_of_mem_flatten {α : Type} {R : α → α → Prop} {xs : List α} {xss : List (List α)}
    (h : xss.flatten.IsChain R) (hxs : xs ∈ xss) : xs.IsChain R := by
  obtain ⟨above, below, rfl⟩ := List.append_of_mem hxs
  rw [List.flatten_append, List.flatten_cons] at h
  exact h.right_of_append.left_of_append

/-- Where a full piece takes up the line, the row has no two pieces of one word. -/
theorem Row.Filled.isChain (hr : r.Filled width) (hfull : width ≤ r.opening.length + size)
    (hrow : row.map Piece.text = r.pieces)
    (hchain : row.IsChain fun p q => p.word < q.word ∨ p.text.length = size) :
    row.IsChain fun p q => p.word < q.word := by
  rw [List.isChain_iff_forall_rel_of_append_cons_cons] at hchain ⊢
  rintro p q front back rfl
  obtain hlt | hlength := hchain rfl
  · exact hlt
  · have hpieces : r.pieces = (front.map Piece.text ++ [p.text]) ++ q.text :: back.map Piece.text := by
      rw [← hrow]
      simp
    have hroom := hr _ _ _ hpieces (by simp)
    have hle : p.text.length ≤ (join [' '] (front.map Piece.text ++ [p.text])).length :=
      length_le_join (by simp)
    simp only [Row.HasRoom, Row.text, List.length_append] at hroom
    omega

/-- Two or more pieces stand at the front of the first row if and only if there is room for them. -/
theorem Fills.prefix_iff (h : Fills width indent subsequent (ps ++ qs) (r :: rows)) (hps : 2 ≤ ps.length) :
    ps <+: r.pieces ↔ indent.length + (join [' '] ps).length ≤ width := by
  have hopening : r.opening = indent := h.first r rfl
  have hpush (front : List Text) (q : Text) (hfront : front ≠ []) :
      Row.HasRoom width ⟨r.opening, front⟩ q ↔
        indent.length + (join [' '] (front ++ [q])).length ≤ width := by
    simp only [Row.HasRoom, Row.text, hopening, join_append hfront (List.cons_ne_nil q []),
      join_singleton, List.length_append, List.length_singleton]
    omega
  constructor
  · rintro ⟨more, hmore⟩
    obtain ⟨front, q, rfl⟩ : ∃ front q, ps = front ++ [q] :=
      (List.eq_nil_or_concat' ps).resolve_left (by rintro rfl; simp at hps)
    have hfront : front ≠ [] := by rintro rfl; simp at hps
    rw [← hpush front q hfront]
    exact h.filled r (by simp) front q more (by simp [← hmore]) hfront
  · intro hfits
    have hpieces := h.pieces
    rw [List.flatMap_cons] at hpieces
    obtain ⟨more, hps', hrest⟩ | ⟨more, hr, -⟩ := List.append_eq_append_iff.1 hpieces
    · cases more with
      | nil => exact ⟨[], by simp [hps']⟩
      | cons q more =>
        -- The row would have ended in front of `q`, for which there is room.
        exfalso
        cases rows with
        | nil => simp at hrest
        | cons next rows =>
          obtain ⟨q', more', hnext⟩ := List.exists_cons_of_ne_nil (h.nonempty next (by simp))
          obtain rfl : q' = q := by
            rw [List.flatMap_cons, hnext] at hrest
            exact (List.cons.inj hrest).1
          have hroom := (List.isChain_cons_cons.1 h.ends).1 q' (by simp [hnext])
          refine hroom ((hpush r.pieces q' (h.nonempty r (by simp))).2 ?_)
          have hle := length_join_append_le (r.pieces ++ [q']) more
          rw [hps'] at hfits
          simp only [List.append_assoc, List.singleton_append] at hle
          omega
    · exact ⟨more, hr.symm⟩

/-! ### The first line -/

/-- Words whose first long one is cut within the first line: behind the words in front of it there is room for
its first two pieces. -/
def SplitsInside (width i size : ℕ) (ws : List Text) : Prop :=
  ∃ us w vs, ws = us ++ w :: vs ∧ (∀ u ∈ us, u.length ≤ size) ∧ size < w.length ∧
    i + (join [' '] (us ++ (chunks size w).take 2)).length ≤ width

theorem splitsInside_iff (hus : ∀ u ∈ us, u.length ≤ size) (hw : size < w.length) :
    SplitsInside width i size (us ++ w :: vs) ↔
      i + (join [' '] (us ++ (chunks size w).take 2)).length ≤ width := by
  constructor
  · rintro ⟨us', w', vs', heq, hus', hw', hfits⟩
    -- The words in front are the longest front part of short ones.
    have hfront (us vs : List Text) (w : Text) (hus : ∀ u ∈ us, u.length ≤ size) (hw : size < w.length) :
        (us ++ w :: vs).takeWhile (·.length ≤ size) = us := by
      rw [List.takeWhile_append_of_pos (by simpa using hus), List.takeWhile_cons_of_neg (by simpa using hw),
        List.append_nil]
    obtain rfl : us = us' := by
      rw [← hfront us vs w hus hw, heq, hfront us' vs' w' hus' hw']
    obtain ⟨rfl, -⟩ := List.cons.inj (List.append_cancel_left heq)
    exact hfits
  · exact fun hfits => ⟨us, w, vs, rfl, hus, hw, hfits⟩

theorem exists_chunks_cons_cons (hsize : 0 < size) (hw : size < w.length) :
    ∃ x y more, chunks size w = x :: y :: more := by
  obtain ⟨y, more, hmore⟩ := List.exists_cons_of_ne_nil (chunks_ne_nil size (w.drop size))
  exact ⟨w.take size, y, more, by rw [chunks_of_lt_length hsize hw, hmore]⟩

theorem exists_first_long (h : ∃ w ∈ ws, size < w.length) :
    ∃ us w vs, ws = us ++ w :: vs ∧ (∀ u ∈ us, u.length ≤ size) ∧ size < w.length := by
  have hfound : (ws.find? (size < ·.length)).isSome := by simpa using h
  obtain ⟨w, hw⟩ := Option.isSome_iff_exists.1 hfound
  obtain ⟨hlong, us, vs, rfl, hus⟩ := List.find?_eq_some_iff_append.1 hw
  exact ⟨us, w, vs, rfl, by simpa using hus, by simpa using hlong⟩

/-- The first row has two pieces of one word if and only if a word is cut within it. -/
theorem apart_first_iff {rest : List (List Piece)} (hsize : 0 < size)
    (h : Fills width indent subsequent (ws.flatMap (chunks size)) (r :: rows))
    (hrow : row.map Piece.text = r.pieces) (hpieces : (row :: rest).flatten = numbered size 0 ws) :
    Apart row ↔ ¬SplitsInside width indent.length size ws := by
  have hfront : row <+: numbered size 0 ws := ⟨rest.flatten, hpieces⟩
  by_cases hlong : ∃ w ∈ ws, size < w.length
  · obtain ⟨us, w, vs, rfl, hus, hw⟩ := exists_first_long hlong
    obtain ⟨x, y, more, hchunks⟩ := exists_chunks_cons_cons hsize hw
    have hfill : Fills width indent subsequent
        ((us ++ [x, y]) ++ (more ++ vs.flatMap (chunks size))) (r :: rows) := by
      simpa [List.flatMap_append, flatMap_chunks_of_short hus, hchunks] using h
    have hnumbered : numbered size 0 (us ++ w :: vs) =
        numbered size 0 us ++ ⟨us.length, x⟩ :: ⟨us.length, y⟩ ::
          (more.map (Piece.mk us.length) ++ numbered size (us.length + 1) vs) := by
      simp [numbered_append, numbered, hchunks]
    rw [splitsInside_iff hus hw, hchunks, List.take_succ_cons, List.take_succ_cons, List.take_zero,
      ← hfill.prefix_iff (by simp)]
    have hlength := length_numbered_of_short hus 0
    rcases Nat.lt_or_ge row.length (us.length + 2) with hshort | hlong
    · -- The row ends in front of the second piece at the latest, so it might hold whole words only.
      refine iff_of_true ?_ fun hheld => ?_
      · have hx : x.length ≤ size := length_le_of_mem_chunks (w := w) hsize (by simp [hchunks])
        have hwhole : row <+: numbered size 0 (us ++ [x]) := by
          refine List.prefix_of_prefix_length_le hfront ?_ ?_
          · simp [hnumbered, numbered_append, numbered, chunks_of_length_le hx]
          · simp [numbered_append, numbered, chunks_of_length_le hx]
            omega
        apply Apart.sublist hwhole.sublist
        apply apart_of_isChain
        exact isChain_numbered_of_short (List.forall_mem_append.2 ⟨hus, List.forall_mem_singleton.2 hx⟩)
      · have hle := hheld.length_le
        rw [← hrow] at hle
        simp at hle
        omega
    · obtain ⟨back, rfl⟩ : numbered size 0 us ++ [⟨us.length, x⟩, ⟨us.length, y⟩] <+: row := by
        refine List.prefix_of_prefix_length_le ?_ hfront (by simp; omega)
        simp [hnumbered]
      refine iff_of_false (fun hapart => ?_) (not_not.2 ⟨back.map Piece.text, ?_⟩)
      · rw [List.append_assoc] at hapart
        exact hapart.ne rfl
      · rw [← hrow]
        simp [map_text_numbered, flatMap_chunks_of_short hus]
  · simp only [not_exists, not_and, Nat.not_lt] at hlong
    have hapart : Apart row :=
      Apart.sublist hfront.sublist (apart_of_isChain (isChain_numbered_of_short hlong))
    refine iff_of_true hapart ?_
    rintro ⟨us, w, vs, rfl, -, hw, -⟩
    exact absurd (hlong w (by simp)) (by omega)

/-! ### The lines of a text -/

theorem Fills.map_words (h : Fills width (spaces i) (spaces j) ps rows) (hps : ∀ p ∈ ps, words p = [p]) :
    (rows.map Row.text).map words = rows.map Row.pieces := by
  rw [List.map_map]
  apply List.map_congr_left
  intro r hr
  exact h.words_text hps hr

/-- The items of the lines of a filled text are pieces of its words. A line after the first has no two
pieces of one word, and the first has none if and only if no word is cut within it. On a line without two
pieces of one word all items are whole words, but the last may be continued by the first item of the next
line. -/
theorem wrap_breaks (i : ℕ) (hj : j < width) (s : Text) :
    ∃ rows : List (List Piece),
      (wrap s width (spaces i) (spaces j)).map words = rows.map (List.map Piece.text) ∧
      rows.flatten = numbered (width - j) 0 (words s) ∧
      (∀ row ∈ rows.tail, Apart row) ∧
      ((∀ row ∈ rows, Apart row) ↔ ¬SplitsInside width i (width - j) (words s)) ∧
      ∀ above row below, rows = above ++ row :: below → Apart row →
        KeepsWords (words s) above row below := by
  obtain ⟨lines, hfill, hwrap⟩ := wrap_eq_map width s i j
  have hsize : max 1 (width - j) = width - j := by omega
  rw [pieces, hsize] at hfill
  cases lines with
  | nil =>
    have hwords : words s = [] := by
      by_contra hne
      have hpieces := pieces_ne_nil width j hne
      rw [pieces, hsize] at hpieces
      exact hpieces hfill.pieces.symm
    refine ⟨[[]], by simp [hwrap], by simp [hwords, numbered], by simp, ?_, ?_⟩
    · simp [Apart, SplitsInside, hwords]
    · intro above row below hrows _ front p back hrow
      have hmem : row ∈ [[]] := by simp [hrows]
      simp [List.mem_singleton.1 hmem] at hrow
  | cons r lines =>
    have htexts : ((r :: lines).map Row.pieces).flatten =
        (numbered (width - j) 0 (words s)).map Piece.text := by
      rw [map_text_numbered, ← hfill.pieces, List.flatMap_def]
    obtain ⟨rows, hflatten, hmap⟩ := exists_flatten_of_map htexts
    cases rows with
    | nil => simp at hmap
    | cons row rows =>
      obtain ⟨hrow, hrows⟩ := List.cons.inj hmap
      have hchain (row' : List Piece) (hrow' : row' ∈ row :: rows) :
          row'.IsChain fun p q => p.word < q.word ∨ p.text.length = width - j := by
        refine isChain_of_mem_flatten ?_ hrow'
        rw [hflatten]
        exact isChain_numbered (width - j) 0 (words s)
      have hfurther : ∀ row' ∈ rows, Apart row' := by
        intro row' hrow'
        obtain ⟨r', hr', htexts⟩ := List.mem_map.1 (hrows ▸ List.mem_map_of_mem hrow')
        have hopening : r'.opening = spaces j := hfill.further r' hr'
        have hfull : width ≤ r'.opening.length + (width - j) := by
          rw [hopening, length_spaces]
          omega
        exact apart_of_isChain ((hfill.filled r' (by simp [hr'])).isChain hfull htexts.symm
          (hchain row' (by simp [hrow'])))
      have hfirst := apart_first_iff (by omega) hfill hrow hflatten
      have hne : ∀ row' ∈ row :: rows, row' ≠ [] := by
        intro row' hrow'
        obtain ⟨r', hr', htexts⟩ := List.mem_map.1 (hmap ▸ List.mem_map_of_mem hrow')
        rintro rfl
        exact hfill.nonempty r' hr' htexts
      refine ⟨row :: rows, ?_, hflatten, hfurther, ?_, ?_⟩
      · rw [hwrap, if_neg (List.cons_ne_nil r lines), hmap]
        apply hfill.map_words
        intro p hp
        rw [← hsize] at hp
        exact words_piece hp
      · rw [List.forall_mem_cons, hfirst, length_spaces]
        exact and_iff_left hfurther
      · intro above row' below heq
        rw [heq] at hflatten hne
        exact keepsWords hflatten (fun r hr => hne r (by simp [hr])) fun r hr => hne r (by simp [hr])

/-- A word that begins on the first line and goes on on the next. -/
theorem wrap_breaks_hanging :
    5 < 10 ∧ ∃ rows : List (List Piece),
      (wrap "see aaaaaaa".toList 10 (spaces 0) (spaces 5)).map words = rows.map (List.map Piece.text) ∧
      rows.flatten = numbered (10 - 5) 0 (words "see aaaaaaa".toList) ∧
      (∀ row ∈ rows.tail, Apart row) ∧
      ((∀ row ∈ rows, Apart row) ↔ ¬SplitsInside 10 0 (10 - 5) (words "see aaaaaaa".toList)) ∧
      ∀ above row below, rows = above ++ row :: below → Apart row →
        KeepsWords (words "see aaaaaaa".toList) above row below :=
  ⟨by decide, wrap_breaks 0 (by decide) _⟩

/-- A space gets into a word that is cut for a further line and has room on the first one. -/
theorem wrap_splits_inside :
    wrap "aaaaab".toList 10 (spaces 0) (spaces 5) = ["aaaaa b".toList] ∧
      ¬∃ rows : List (List Piece),
        (wrap "aaaaab".toList 10 (spaces 0) (spaces 5)).map words = rows.map (List.map Piece.text) ∧
        rows.flatten = numbered (10 - 5) 0 (words "aaaaab".toList) ∧ ∀ row ∈ rows, Apart row := by
  have hwrap : wrap "aaaaab".toList 10 (spaces 0) (spaces 5) = ["aaaaa b".toList] := by cbv
  have hpieces : numbered (10 - 5) 0 (words "aaaaab".toList) = [⟨0, "aaaaa".toList⟩, ⟨0, "b".toList⟩] := by
    cbv
  refine ⟨hwrap, ?_⟩
  rintro ⟨rows, hlines, hflatten, hapart⟩
  rw [hwrap] at hlines
  obtain ⟨row, rfl⟩ : ∃ row, rows = [row] := by
    rw [← List.length_eq_one_iff]
    simpa using (congrArg List.length hlines).symm
  rw [hpieces, List.flatten_singleton] at hflatten
  subst hflatten
  exact absurd (hapart _ (List.mem_singleton_self _)) (by decide)

end LuaDocs.Text
