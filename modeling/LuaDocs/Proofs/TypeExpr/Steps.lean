import LuaDocs.Proofs.TypeExpr.Cursor
import LuaDocs.Proofs.TypeExpr.Following

/-!
# Steps of a cursor

`Runs src step s a r` says that a step ends, that its outcome is `a`, and that it moves from where `s`
is ahead to where `r` is ahead. `Does src P step s` compares a step with what there is to find: where
`P` holds of an outcome the step has it, and elsewhere the step finds nothing and still ends. Both
compose, so after the first section nothing is said of positions. Characters, words and lists are
read here; the grammar that is built of them has a module of its own.
-/

namespace LuaDocs.TypeExpr.Cursor

open Text

variable {src s r v w : Text} {p q : ℕ} {α β : Type} {a : α} {b : β} {c : Char}

/-! ### Positions -/

/-- At the position `p` the text `s` is ahead. -/
def At (src : Text) (p : ℕ) (s : Text) : Prop :=
  p ≤ src.length ∧ src.drop p = s

theorem At.length (h : At src p s) : p + s.length = src.length := by
  obtain ⟨hp, rfl⟩ := h
  rw [List.length_drop]
  omega

theorem At.unique (h : At src p s) (h' : At src q s) : p = q := by
  have hp := h.length
  have hq := h'.length
  omega

theorem At.move (h : At src p (w ++ s)) : At src (p + w.length) s := by
  have hlength := h.length
  rw [List.length_append] at hlength
  refine ⟨by omega, ?_⟩
  rw [← List.drop_drop, h.2, List.drop_left]

/-- The step ends with the outcome `a` and moves from where `s` is ahead to where `r` is ahead. -/
def Runs (src : Text) (step : Step α) (s : Text) (a : α) (r : Text) : Prop :=
  ∀ p, At src p s → ∃ q, At src q r ∧ step.run p = some (a, q)

theorem runs_pure : Runs src (pure a) s a s :=
  fun p hp => ⟨p, hp, rfl⟩

theorem Runs.bind {step : Step α} {f : α → Step β} (h : Runs src step s a v)
    (hf : Runs src (f a) v b r) : Runs src (step >>= f) s b r := by
  intro p hp
  obtain ⟨q, hq, hstep⟩ := h p hp
  obtain ⟨q', hq', hrest⟩ := hf q hq
  refine ⟨q', hq', ?_⟩
  rw [StateT.run_bind, hstep]
  exact hrest

theorem runs_get_bind {f : ℕ → Step β} (h : ∀ p, At src p s → Runs src (f p) s b r) :
    Runs src (get >>= f) s b r :=
  fun p hp => h p hp p hp

theorem runs_set (h : At src p r) : Runs src (set p) s () r :=
  fun _ _ => ⟨p, h, rfl⟩

theorem runs_modify : Runs src (modify (· + w.length)) (w ++ s) () s :=
  fun _ hp => ⟨_, hp.move, rfl⟩

theorem runs_ahead : Runs src (ahead src) s s s :=
  fun p hp => ⟨p, hp, by rw [← hp.2]; rfl⟩

/-! ### Steps over characters -/

theorem runs_eat_self : Runs src (eat src c) (c :: s) true s := by
  refine runs_ahead.bind ?_
  rw [if_pos (by simp)]
  exact (runs_modify (w := [c])).bind runs_pure

theorem runs_eat_of_not_mem (h : c ∉ s.head?) : Runs src (eat src c) s false s := by
  refine runs_ahead.bind ?_
  rw [if_neg (by simpa using h)]
  exact runs_pure

theorem runs_eatText_append : Runs src (eatText src w) (w ++ s) true s := by
  refine runs_ahead.bind ?_
  rw [if_pos (by simp)]
  exact runs_modify.bind runs_pure

theorem runs_eatText_false (h : ¬ w <+: s) : Runs src (eatText src w) s false s := by
  refine runs_ahead.bind ?_
  rw [if_neg (by simpa using h)]
  exact runs_pure

theorem runs_skipSpace : Runs src (skipSpace src) s () (trimStart s) := by
  refine runs_ahead.bind ?_
  intro p hp
  obtain ⟨b, hb, hs⟩ := exists_blank_append_trimStart s
  have hmove : At src (p + b.length) (trimStart s) := by
    apply At.move
    rw [← hs]
    exact hp
  have hlength := hmove.length
  exact ⟨_, hmove, congrArg (fun q => some ((), q)) (by omega)⟩

theorem runs_eatSpaced (h : Leaves (between? c s) r) : Runs src (eatSpaced src c) s true r := by
  obtain ⟨v, hv, rfl⟩ := leaves_between?.1 h
  refine runs_get_bind fun start _ => runs_skipSpace.bind ?_
  rw [hv]
  refine runs_eat_self.bind ?_
  rw [if_pos rfl]
  exact runs_skipSpace.bind runs_pure

theorem runs_eatSpaced_of_not_mem (h : c ∉ (trimStart s).head?) :
    Runs src (eatSpaced src c) s false s := by
  refine runs_get_bind fun start hstart => runs_skipSpace.bind ?_
  refine (runs_eat_of_not_mem h).bind ?_
  rw [if_neg Bool.false_ne_true]
  exact (runs_set hstart).bind runs_pure

/-! ### Steps that may find nothing -/

/-- The step finds what it is to find, and where there is nothing to find it ends all the same. -/
structure Does (src : Text) (P : α → Text → Prop) (step : Step (Option α)) (s : Text) :
    Prop where
  reads {a : α} {r : Text} (h : P a r) : Runs src step s (some a) r
  ends (h : ∀ a r, ¬ P a r) : ∃ v, Runs src step s none v

/-- The step finds what it is to find, and where there is nothing to find it ends where it began. -/
structure Restores (src : Text) (P : α → Text → Prop) (step : Step (Option α)) (s : Text) :
    Prop where
  reads {a : α} {r : Text} (h : P a r) : Runs src step s (some a) r
  stays (h : ∀ a r, ¬ P a r) : Runs src step s none s

variable {P P' : α → Text → Prop} {Q : α → Text → β → Text → Prop}
  {step step' : Step (Option α)}

theorem Restores.does (h : Restores src P step s) : Does src P step s :=
  ⟨h.reads, fun hnone => ⟨s, h.stays hnone⟩⟩

theorem Does.congr (h : Does src P step s) (hP : ∀ a r, P' a r ↔ P a r) :
    Does src P' step s where
  reads ha := h.reads ((hP _ _).1 ha)
  ends hnone := h.ends fun a r ha => hnone a r ((hP a r).2 ha)

theorem does_pure : Does src (fun x r => x = a ∧ r = s) (pure (some a)) s where
  reads h := by
    obtain ⟨rfl, rfl⟩ := h
    exact runs_pure
  ends h := absurd ⟨rfl, rfl⟩ (h a s)

theorem does_reads {t : Text} {o : Option (α × Rest t)} (h : Reads o a s) :
    Does src (Reads o) (pure (some a)) s := by
  refine does_pure.congr fun b r => ?_
  constructor
  · intro hb
    exact hb.unique h
  · intro hb
    obtain ⟨rfl, rfl⟩ := hb
    exact h

theorem does_none (h : ∀ a r, ¬ P a r) : Does src P (pure none) s where
  reads ha := absurd ha (h _ _)
  ends _ := ⟨s, runs_pure⟩

/-- What a step does from where another step has moved to. -/
theorem Does.after {first : Step β} {f : β → Step (Option α)} (hfirst : Runs src first s b v)
    (h : Does src P (f b) v) : Does src P (first >>= f) s where
  reads ha := hfirst.bind (h.reads ha)
  ends hnone := by
    obtain ⟨w, hw⟩ := h.ends hnone
    exact ⟨w, hfirst.bind hw⟩

/-- One thing and then another: where the first is missing, nothing is found. -/
theorem Does.bind {f : Option α → Step (Option β)} (h : Does src P step s)
    (hnone : f none = pure none) (hsome : ∀ a v, P a v → Does src (Q a v) (f (some a)) v) :
    Does src (fun b r => ∃ a v, P a v ∧ Q a v b r) (step >>= f) s where
  reads hb := by
    obtain ⟨a, v, ha, hb⟩ := hb
    exact (h.reads ha).bind ((hsome a v ha).reads hb)
  ends hb := by
    by_cases hfirst : ∃ a v, P a v
    · obtain ⟨a, v, ha⟩ := hfirst
      obtain ⟨w, hw⟩ := (hsome a v ha).ends fun b r hr => hb b r ⟨a, v, ha, hr⟩
      exact ⟨w, (h.reads ha).bind hw⟩
    · obtain ⟨v, hv⟩ := h.ends fun a v ha => hfirst ⟨a, v, ha⟩
      refine ⟨v, hv.bind ?_⟩
      rw [hnone]
      exact runs_pure

theorem does_eat (hyes : ∀ v, s = c :: v → Does src P step v)
    (hno : c ∉ s.head? → Does src P step' s) :
    Does src P (eat src c >>= fun b => if b = true then step else step') s := by
  by_cases h : c ∈ s.head?
  · obtain ⟨v, rfl⟩ := mem_head?_iff.1 h
    refine .after runs_eat_self ?_
    rw [if_pos rfl]
    exact hyes v rfl
  · refine .after (runs_eat_of_not_mem h) ?_
    rw [if_neg Bool.false_ne_true]
    exact hno h

theorem exists_leaves_between? (h : c ∈ (trimStart s).head?) : ∃ v, Leaves (between? c s) v := by
  obtain ⟨v, hv⟩ := mem_head?_iff.1 h
  exact ⟨trimStart v, leaves_between?.2 ⟨v, hv, rfl⟩⟩

theorem does_eatSpaced (hyes : ∀ v, Leaves (between? c s) v → Does src P step v)
    (hno : c ∉ (trimStart s).head? → Does src P step' s) :
    Does src P (eatSpaced src c >>= fun b => if b = true then step else step') s := by
  by_cases h : c ∈ (trimStart s).head?
  · obtain ⟨v, hv⟩ := exists_leaves_between? h
    refine .after (runs_eatSpaced hv) ?_
    rw [if_pos rfl]
    exact hyes v hv
  · refine .after (runs_eatSpaced_of_not_mem h) ?_
    rw [if_neg Bool.false_ne_true]
    exact hno h

/-! ### Words -/

theorem runs_since (h : At src p (w ++ s)) : Runs src (since src p) s w s := by
  intro q hq
  have hpq : q = p + w.length := hq.unique h.move
  refine ⟨q, hq, congrArg (fun x => some (x, q)) ?_⟩
  rw [h.2, hpq, Nat.add_sub_cancel_left, List.take_left]

theorem dropEndWhile_cons {f : Char → Bool} (hc : f c = false) :
    dropEndWhile f (c :: s) = c :: dropEndWhile f s := by
  obtain ⟨⟨r, hr, hall⟩, hlast⟩ := dropEndWhile_eq_iff.1 (rfl : dropEndWhile f s = _)
  refine dropEndWhile_eq_iff.2 ⟨⟨r, ?_, hall⟩, ?_⟩
  · rw [List.cons_append, ← hr]
  · intro d hd
    by_cases hnil : dropEndWhile f s = []
    · rw [hnil] at hd
      obtain rfl := Option.some.inj hd
      exact hc
    · rw [List.getLast?_cons_of_ne_nil hnil] at hd
      exact hlast d hd

theorem does_ident : Does src (Reads (ident? s)) (ident src) s := by
  refine .after runs_ahead ?_
  cases s with
  | nil => exact does_none fun n r => not_reads_none
  | cons c s =>
    by_cases hc : isNameStart c
    · have hname : dropEndWhile (· == '.') ((c :: s).takeWhile isDottedChar) =
          c :: dropEndWhile (· == '.') (s.takeWhile isDottedChar) := by
        rw [List.takeWhile_cons_of_pos (isDottedChar_of_isNameStart hc)]
        exact dropEndWhile_cons (by simpa using ne_of_test (d := '.') hc rfl)
      have hread : ∃ r, Reads (ident? (c :: s))
          (c :: dropEndWhile (· == '.') (s.takeWhile isDottedChar)) r := by
        rw [ident?, if_pos hc]
        exact ⟨_, reads_some.2 ⟨rfl, rfl⟩⟩
      obtain ⟨r, hread⟩ := hread
      have hmove : Runs src
          (modify (· + (c :: dropEndWhile (· == '.') (s.takeWhile isDottedChar)).length))
          (c :: s) () r := by
        rw [(ident_of_reads hread).2]
        exact runs_modify
      rw [if_pos (by simpa using hc), hname]
      exact .after hmove (does_reads hread)
    · rw [if_neg (by simpa using hc)]
      refine does_none fun n r => ?_
      rw [ident?_cons_of_not_isNameStart (by simpa using hc)]
      exact not_reads_none

theorem does_get_bind {f : ℕ → Step (Option α)} (h : ∀ p, At src p s → Does src P (f p) s) :
    Does src P (get >>= f) s where
  reads ha := runs_get_bind fun p hp => (h p hp).reads ha
  ends hnone := by
    by_cases hat : ∃ p, At src p s
    · obtain ⟨p, hp⟩ := hat
      obtain ⟨v, hv⟩ := (h p hp).ends hnone
      refine ⟨v, runs_get_bind fun q hq => ?_⟩
      rwa [hq.unique hp]
    · exact ⟨s, fun p hp => absurd ⟨p, hp⟩ hat⟩

theorem findIdx?_append_cons (hv : c ∉ v) : (v ++ c :: r).findIdx? (· == c) = some v.length := by
  have hnone : v.findIdx? (· == c) = none := by
    rw [List.findIdx?_eq_none_iff]
    intro d hd
    simpa using fun h : d = c => hv (h ▸ hd)
  have hfirst : (c :: r).findIdx? (· == c) = some 0 := by
    rw [List.findIdx?_cons, if_pos (beq_self_eq_true c)]
  rw [List.findIdx?_append, hnone, hfirst]
  simp

theorem does_string : Does src (Reads (string? (c :: s))) (string src) (c :: s) := by
  refine does_get_bind fun start hstart => ?_
  refine .after runs_ahead (.after runs_eat_self (.after runs_ahead ?_))
  by_cases hq : c ∈ s
  · obtain ⟨v, r, rfl, hv⟩ := List.eq_append_cons_of_mem hq
    rw [findIdx?_append_cons hv]
    have hmove : Runs src (modify (· + (v.length + 1))) (v ++ c :: r) () r := by
      have h : Runs src (modify (· + (v ++ [c]).length)) (v ++ [c] ++ r) () r := runs_modify
      rwa [List.length_append, List.append_assoc] at h
    have hsince : Runs src (since src start) r (c :: v ++ [c]) r := by
      refine runs_since ?_
      rwa [List.append_assoc]
    exact .after hmove (.after hsince (does_reads (reads_string?_append hv)))
  · have hnone : s.findIdx? (· == c) = none := by
      rw [List.findIdx?_eq_none_iff]
      intro d hd
      simpa using fun h : d = c => hq (h ▸ hd)
    rw [hnone]
    refine does_none fun t r h => ?_
    obtain ⟨v, -, rfl, -⟩ := quoted_of_reads h
    exact hq (List.mem_append_right v List.mem_cons_self)

theorem does_digitsSince (hstart : At src p (w ++ s)) :
    Does src (fun t r => ∃ ds, Reads (numeral? s) ds r ∧ literal (w ++ ds) = t)
      (digitsSince src p) s := by
  refine .after runs_ahead ?_
  have hs : s.takeWhile isNumeral ++ s.dropWhile isNumeral = s := List.takeWhile_append_dropWhile
  by_cases hnil : s.takeWhile isNumeral = []
  · rw [if_pos (by simpa using hnil)]
    refine does_none fun t r h => ?_
    obtain ⟨ds, hds, -⟩ := h
    obtain ⟨hne, rfl, -⟩ := reads_numeral?.1 hds
    exact hne hnil
  · rw [if_neg (by simpa using hnil)]
    have hmove : Runs src (modify (· + (s.takeWhile isNumeral).length)) s ()
        (s.dropWhile isNumeral) := by
      have h : Runs src (modify (· + (s.takeWhile isNumeral).length))
          (s.takeWhile isNumeral ++ s.dropWhile isNumeral) () (s.dropWhile isNumeral) := runs_modify
      rwa [hs] at h
    have hsince : Runs src (since src p) (s.dropWhile isNumeral) (w ++ s.takeWhile isNumeral)
        (s.dropWhile isNumeral) := by
      refine runs_since ?_
      rwa [List.append_assoc, hs]
    refine (Does.after hmove (.after hsince does_pure)).congr fun t r => ?_
    constructor
    · intro h
      obtain ⟨ds, hds, rfl⟩ := h
      obtain ⟨-, rfl, rfl⟩ := reads_numeral?.1 hds
      exact ⟨rfl, rfl⟩
    · intro h
      obtain ⟨rfl, rfl⟩ := h
      exact ⟨_, reads_numeral?.2 ⟨hnil, rfl, rfl⟩, rfl⟩

theorem does_number : Does src (Reads (number? s)) (number src) s := by
  refine does_get_bind fun start hstart => ?_
  by_cases hsign : '-' ∈ s.head?
  · obtain ⟨v, rfl⟩ := mem_head?_iff.1 hsign
    refine .after runs_eat_self ((does_digitsSince (w := ['-']) hstart).congr fun t r => ?_)
    rw [number?, mark?_cons_self]
    exact reads_map (g := fun ds => literal ('-' :: ds)) fun _ => by rfl
  · refine .after (runs_eat_of_not_mem hsign) ?_
    refine (does_digitsSince (w := []) hstart).congr fun t r => ?_
    rw [number?, mark?_eq_none_iff.2 hsign]
    exact reads_map (g := literal) fun _ => by rfl

theorem reads_paramName?_iff (hdots : ¬ "...".toList <+: s) : Reads (paramName? s) w r ↔
    ∃ n v, Reads (ident? s) n v ∧ ((w = n ++ ['?'] ∧ v = '?' :: r) ∨
      (w = n ∧ v = r ∧ '?' ∉ v.head?)) := by
  constructor
  · intro h
    have hident : ∃ n v, Reads (ident? s) n v := by
      by_contra hnone
      unfold paramName? at h
      split at h
      · exact hdots ⟨_, rfl⟩
      · cases hident : ident? s with
        | none =>
          rw [hident] at h
          exact not_reads_none h
        | some x => exact hnone ⟨x.1, x.2.1, .of_eq_some hident⟩
    obtain ⟨n, v, hn⟩ := hident
    exact ⟨n, v, hn, (reads_paramName?_of_ident hn).1 h⟩
  · intro h
    obtain ⟨n, v, hn, h⟩ := h
    exact (reads_paramName?_of_ident hn).2 h

theorem does_paramName : Does src (Reads (paramName? s)) (paramName src) s := by
  by_cases hdots : "...".toList <+: s
  · obtain ⟨r, rfl⟩ := hdots
    refine .after runs_eatText_append ?_
    rw [if_pos rfl]
    exact does_reads (reads_some.2 ⟨rfl, rfl⟩)
  · refine .after (runs_eatText_false hdots) ?_
    rw [if_neg Bool.false_ne_true]
    have hmark : ∀ n v, Does src (fun w r => (w = n ++ ['?'] ∧ v = '?' :: r) ∨
        (w = n ∧ v = r ∧ '?' ∉ v.head?)) (eat src '?' >>= fun b =>
          if b = true then return some (n ++ ['?']) else return some n) v := by
      intro n v
      refine does_eat (fun w hw => does_pure.congr fun m r => ?_)
        fun hno => does_pure.congr fun m r => ?_
      · subst hw
        simp [eq_comm]
      · constructor
        · intro h
          rcases h with ⟨-, rfl⟩ | ⟨rfl, rfl, -⟩
          · exact absurd rfl hno
          · exact ⟨rfl, rfl⟩
        · intro h
          obtain ⟨rfl, rfl⟩ := h
          exact .inr ⟨rfl, rfl, hno⟩
    exact .congr (.bind does_ident (by rfl) fun n v _ => hmark n v) fun w r =>
      reads_paramName?_iff hdots

/-! ### Lists -/

theorem does_goesOn : Does src (fun b r => (b = true ∧ Leaves (between? ',' s) r) ∨
    (b = false ∧ ',' ∉ (trimStart s).head? ∧ Leaves (closing? c s) r)) (goesOn src c) s := by
  refine does_eatSpaced (fun v hv => does_pure.congr fun b r => ?_) fun hno =>
    .after runs_skipSpace (does_eat (fun v hv => does_pure.congr fun b r => ?_) fun hno' =>
      does_none fun b r h => ?_)
  · constructor
    · intro h
      rcases h with ⟨rfl, hr⟩ | ⟨-, hcomma, -⟩
      · exact ⟨rfl, hr.unique hv⟩
      · obtain ⟨x, hx, -⟩ := leaves_between?.1 hv
        exact absurd (by rw [hx]; rfl) hcomma
    · intro h
      obtain ⟨rfl, rfl⟩ := h
      exact .inl ⟨rfl, hv⟩
  · have hclose : Leaves (closing? c s) v := leaves_closing?.2 hv
    constructor
    · intro h
      rcases h with ⟨-, hr⟩ | ⟨rfl, -, hr⟩
      · exact absurd (between?_eq_none_iff.2 hno ▸ hr) not_leaves_none
      · exact ⟨rfl, hr.unique hclose⟩
    · intro h
      obtain ⟨rfl, rfl⟩ := h
      exact .inr ⟨rfl, hno, hclose⟩
  · rcases h with ⟨-, hr⟩ | ⟨-, -, hr⟩
    · exact not_leaves_none (between?_eq_none_iff.2 hno ▸ hr)
    · exact not_leaves_none (closing?_eq_none_iff.2 hno' ▸ hr)

theorem items_iff {item : Text → α → Text → Prop} {as : List α} : Items item c s as r ↔
    ∃ a v, item (trimStart s) a v ∧
      ((∃ w bs, Leaves (between? ',' v) w ∧ Items item c w bs r ∧ as = a :: bs) ∨
        (',' ∉ (trimStart v).head? ∧ Leaves (closing? c v) r ∧ as = [a])) := by
  constructor
  · intro h
    cases h with
    | last hitem hcomma hclose => exact ⟨_, _, hitem, .inr ⟨hcomma, hclose, rfl⟩⟩
    | more hitem hcomma hitems => exact ⟨_, _, hitem, .inl ⟨_, _, hcomma, hitems, rfl⟩⟩
  · intro h
    obtain ⟨a, v, hitem, ⟨w, bs, hcomma, hitems, rfl⟩ | ⟨hcomma, hclose, rfl⟩⟩ := h
    · exact .more hitem hcomma hitems
    · exact .last hitem hcomma hclose

/-- A loop over items reads a list of them, since every round moves on by an item at least. -/
theorem does_loop {item : Text → α → Text → Prop} {step : Step (Option α)} {i : ℕ}
    {loop : List α → Step (Option (List α))}
    (hloop : ∀ as, loop as = round src step c loop as)
    (hitem : ∀ s, s.length < i → Does src (item s) step s)
    (hlength : ∀ {s a r}, item s a r → r.length < s.length) (hs : s.length < i) (as : List α) :
    Does src (fun bs r => ∃ cs, bs = as ++ cs ∧ Items item c s cs r) (loop as) s := by
  induction hn : s.length using Nat.strong_induction_on generalizing s as with
  | h n ih =>
    have hle := length_trimStart_le s
    rw [hloop]
    have hnext : ∀ a v, item (trimStart s) a v →
        Does src (fun bs r => ∃ b w, ((b = true ∧ Leaves (between? ',' v) w) ∨
            (b = false ∧ ',' ∉ (trimStart v).head? ∧ Leaves (closing? c v) w)) ∧
          ((b = true ∧ ∃ cs, bs = as ++ [a] ++ cs ∧ Items item c w cs r) ∨
            (b = false ∧ bs = as ++ [a] ∧ r = w)))
          (afterItem src c loop (as ++ [a])) v := by
      intro a v ha
      have hlt := hlength ha
      refine .bind does_goesOn (by rfl) fun b w hb => ?_
      cases b with
      | true =>
        have hw : w.length < v.length := by
          obtain ⟨-, hw⟩ | ⟨hb, -⟩ := hb
          · exact hw.length_lt
          · cases hb
        refine (ih w.length (by omega) (by omega) (as ++ [a]) rfl).congr fun bs r => ?_
        simp
      | false =>
        refine does_pure.congr fun bs r => ?_
        simp
    refine .congr (.after runs_skipSpace (.bind (hitem _ (by omega)) (by rfl) hnext)) fun bs r => ?_
    constructor
    · intro h
      obtain ⟨cs, rfl, hcs⟩ := h
      obtain ⟨a, v, ha, ⟨w, ds, hcomma, hitems, rfl⟩ | ⟨hcomma, hclose, rfl⟩⟩ := items_iff.1 hcs
      · exact ⟨a, v, ha, true, w, .inl ⟨rfl, hcomma⟩, .inl ⟨rfl, ds, by simp, hitems⟩⟩
      · exact ⟨a, v, ha, false, r, .inr ⟨rfl, hcomma, hclose⟩, .inr ⟨rfl, rfl, rfl⟩⟩
    · intro h
      obtain ⟨a, v, ha, b, w, ⟨rfl, hcomma⟩ | ⟨rfl, hcomma, hclose⟩, h⟩ := h
      · rcases h with ⟨-, ds, rfl, hitems⟩ | ⟨hb, -⟩
        · exact ⟨a :: ds, by simp, .more ha hcomma hitems⟩
        · cases hb
      · rcases h with ⟨hb, -⟩ | ⟨-, rfl, rfl⟩
        · cases hb
        · exact ⟨[a], rfl, .last ha hcomma hclose⟩

theorem does_items {item : Text → α → Text → Prop} {step : Step (Option α)} {i : ℕ}
    {loop : List α → Step (Option (List α))}
    (hloop : ∀ as, loop as = round src step c loop as)
    (hitem : ∀ s, s.length < i → Does src (item s) step s)
    (hlength : ∀ {s a r}, item s a r → r.length < s.length) (hs : s.length < i) :
    Does src (Items item c s) (loop []) s := by
  refine (does_loop hloop hitem hlength hs []).congr fun as r => ?_
  simp

end LuaDocs.TypeExpr.Cursor
