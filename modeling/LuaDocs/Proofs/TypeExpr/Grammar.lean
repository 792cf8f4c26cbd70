import LuaDocs.Proofs.TypeExpr.Following

/-!
# The grammar of type expressions

`Derives` is the grammar that the readers implement, written down without regard to how a text is
read: a text may have several derivations, and a longer one may begin as a shorter one does. The
readers never go back on a name, a suffix, an alternative or a result once taken. That they accept
every derivable text all the same, and no other, is `reads_whole_iff`.
-/

namespace LuaDocs.TypeExpr

open Text

variable {s r v w a b n : Text} {t : TypeExpr} {ts : List TypeExpr} {c d : Char}

/-- The classes of texts that the grammar speaks of. -/
inductive Symbol
  | union | suffixed | primary | signature | param | key | field
  | list (item : Symbol)

/-- The text belongs to the class. -/
inductive Derives : Symbol → Text → Prop
  | alone {v : Text} (hv : Derives .suffixed v) : Derives .union v
  | joined {v a b w : Text} (hv : Derives .suffixed v) (ha : Blank a) (hb : Blank b)
      (hw : Derives .union w) : Derives .union (v ++ (a ++ '|' :: (b ++ w)))
  | bare {v : Text} (hv : Derives .primary v) : Derives .suffixed v
  | array {v : Text} (hv : Derives .suffixed v) : Derives .suffixed (v ++ "[]".toList)
  | optional {v : Text} (hv : Derives .suffixed v) : Derives .suffixed (v ++ "?".toList)
  | group {a v b : Text} (ha : Blank a) (hv : Derives .union v) (hb : Blank b) :
      Derives .primary ('(' :: (a ++ (v ++ (b ++ ")".toList))))
  | quoted {v : Text} (hv : Quoted v) : Derives .primary v
  | number {v : Text} (hv : Number v) : Derives .primary v
  | name {n : Text} (hn : Ident n) : Derives .primary n
  | container {n a v b : Text} (hn : Ident n) (ha : Blank a) (hv : Derives (.list .union) v)
      (hb : Blank b) : Derives .primary (n ++ '<' :: (a ++ (v ++ (b ++ ">".toList))))
  | emptyTable {a : Text} (ha : Blank a) : Derives .primary ('{' :: (a ++ ['}']))
  | table {a v b : Text} (ha : Blank a) (hv : Derives (.list .field) v) (hb : Blank b) :
      Derives .primary ('{' :: (a ++ (v ++ (b ++ ['}']))))
  | function {v : Text} (hv : Derives .signature v) : Derives .primary v
  | returning {v a b w : Text} (hv : Derives .signature v) (ha : Blank a) (hb : Blank b)
      (hw : Derives .union w) : Derives .primary (v ++ (a ++ ':' :: (b ++ w)))
  | nullary {a : Text} (ha : Blank a) : Derives .signature ("fun(".toList ++ (a ++ ")".toList))
  | signature {a v b : Text} (ha : Blank a) (hv : Derives (.list .param) v) (hb : Blank b) :
      Derives .signature ("fun(".toList ++ (a ++ (v ++ (b ++ ")".toList))))
  | untyped {n : Text} (hn : ParamName n) : Derives .param n
  | typed {n a b v : Text} (hn : ParamName n) (ha : Blank a) (hb : Blank b)
      (hv : Derives .union v) : Derives .param (n ++ (a ++ ':' :: (b ++ v)))
  | plainKey {n : Text} (hn : Ident n) : Derives .key n
  | typeKey {v : Text} (hv : Derives .union v) : Derives .key ('[' :: (v ++ "]".toList))
  | field {k a b v : Text} (hk : Derives .key k) (ha : Blank a) (hb : Blank b)
      (hv : Derives .union v) : Derives .field (k ++ (a ++ ':' :: (b ++ v)))
  | last {x : Symbol} {v : Text} (hv : Derives x v) : Derives (.list x) v
  | more {x : Symbol} {v a b w : Text} (hv : Derives x v) (ha : Blank a) (hb : Blank b)
      (hw : Derives (.list x) w) : Derives (.list x) (v ++ (a ++ ',' :: (b ++ w)))

/-! ### What is read is derivable -/

/-- What was taken from the front of `s`, leaving `r`, belongs to the class `x`. -/
def Took (x : Symbol) (s r : Text) : Prop :=
  ∃ w, Derives x w ∧ s = w ++ r

/-- A property of types that every form of a type hands on from its parts, where strings have to be
texts with the property `good`. -/
structure Inherited (good : Text → Prop) (P : TypeExpr → Prop) : Prop where
  name {n : Text} (hn : Ident n) : P (ofName n)
  any : P any
  number {w : Text} (hw : Number w) : P (.literal w)
  quoted {w : Text} (hw : Quoted w) (hgood : good w) : P (.literal w)
  array {t : TypeExpr} (ht : P t) : P (.array t)
  optional {t : TypeExpr} (ht : P t) : P (.optional t)
  union {ts : List TypeExpr} (hseveral : Several ts) (hts : ∀ t ∈ ts, P t) : P (.union ts)
  container {n : Text} {ts : List TypeExpr} (hn : Ident n) (hne : ts ≠ []) (hts : ∀ t ∈ ts, P t) :
    P (.container n ts)
  function {ps : List (Text × TypeExpr)} {rs : List TypeExpr}
    (hps : ∀ q ∈ ps, ParamName q.1 ∧ P q.2) (hlength : rs.length ≤ 1) (hrs : ∀ t ∈ rs, P t) :
    P (.function ps rs)
  table {fs : List (Text × TypeExpr)}
    (hfs : ∀ f ∈ fs, (Ident f.1 ∨ ∃ k, P k ∧ f.1 = bracketed k) ∧ P f.2) : P (.table fs)

theorem inherited_wellFormed : Inherited (fun _ => True) WellFormed where
  name := formed_ofName
  any := .builtin .any
  number := .number
  quoted hw _ := .quoted hw
  array := .array
  optional := .optional
  union := .union
  container := .container
  function hps hlength hrs :=
    .function (fun q hq => (hps q hq).1) (fun q hq => (hps q hq).2) hlength hrs
  table := formed_table_iff.2

def Throughout (good : Text → Prop) (s : Text) : Prop :=
  ∀ w, w <:+: s → good w

theorem throughout_true (s : Text) : Throughout (fun _ => True) s :=
  fun _ _ => trivial

variable {good : Text → Prop} {P : TypeExpr → Prop}

theorem Throughout.of_append (h : Throughout good (w ++ s)) : Throughout good s :=
  fun _ hv => h _ (hv.trans (List.suffix_append w s).isInfix)

theorem Throughout.of_cons (h : Throughout good (c :: s)) : Throughout good s :=
  h.of_append (w := [c])

theorem Throughout.trimStart (h : Throughout good s) : Throughout good (trimStart s) := by
  obtain ⟨a, -, hs⟩ := exists_blank_append_trimStart s
  rw [hs] at h
  exact h.of_append

theorem Throughout.of_between (h : Throughout good s) (hr : Leaves (between? c s) r) :
    Throughout good r := by
  obtain ⟨a, b, -, -, rfl⟩ := exists_blank_of_leaves_between? hr
  exact h.of_append.of_cons.of_append

theorem Throughout.of_closing (h : Throughout good s) (hr : Leaves (closing? c s) r) :
    Throughout good r := by
  obtain ⟨a, -, rfl⟩ := exists_blank_of_leaves_closing? hr
  exact h.of_append.of_cons

theorem Took.throughout {x : Symbol} (h : Took x s r) (hs : Throughout good s) :
    Throughout good r := by
  obtain ⟨w, -, rfl⟩ := h
  exact hs.of_append

/-- What is read from a text shorter than `n` is a derivable text, read as a type with the
property. -/
def SoundBelow (good : Text → Prop) (P : TypeExpr → Prop) (n : ℕ) : Prop :=
  ∀ s t r, s.length < n → Throughout good s → Reads (union? s) t r → Took .union s r ∧ P t

theorem items_sound {α : Type} {item : Text → α → Text → Prop} {close : Char} {x : Symbol}
    {i : ℕ} {xs : List α} (fit : α → Prop)
    (hitem : ∀ s y r, s.length < i → Throughout good s → item s y r → Took x s r ∧ fit y)
    (hlength : ∀ s y r, item s y r → r.length < s.length)
    (h : Items item close s xs r) (hs : s.length < i) (hgood : Throughout good s) :
    (∃ a w b, Blank a ∧ Derives (.list x) w ∧ Blank b ∧ s = a ++ (w ++ (b ++ close :: r))) ∧
      xs ≠ [] ∧ ∀ y ∈ xs, fit y := by
  induction h with
  | @last s v r y hy hcomma hclose =>
    have hle := length_trimStart_le s
    obtain ⟨⟨w, hw, hsw⟩, hfit⟩ := hitem _ _ _ (by omega) hgood.trimStart hy
    obtain ⟨a, ha, hsa⟩ := exists_blank_append_trimStart s
    obtain ⟨b, hb, rfl⟩ := exists_blank_of_leaves_closing? hclose
    refine ⟨⟨a, w, b, ha, .last hw, hb, ?_⟩, List.cons_ne_nil _ _, ?_⟩
    · rw [← hsw, ← hsa]
    · simpa using hfit
  | @more s v w' r y ys hy hcomma hitems ih =>
    have hle := length_trimStart_le s
    have hlt := (hcomma.length_lt.trans (hlength _ _ _ hy)).trans_le hle
    obtain ⟨htook, hfit⟩ := hitem _ _ _ (by omega) hgood.trimStart hy
    have hrest := (htook.throughout hgood.trimStart).of_between hcomma
    obtain ⟨w, hw, hsw⟩ := htook
    obtain ⟨a, ha, hsa⟩ := exists_blank_append_trimStart s
    obtain ⟨⟨a', w', b, ha', hw', hb, rfl⟩, -, hfits⟩ := ih (by omega) hrest
    obtain ⟨c, d, hc, hd, rfl⟩ := exists_blank_of_leaves_between? hcomma
    refine ⟨⟨a, _, b, ha, .more hw hc (hd.append ha') hw', hb, ?_⟩, List.cons_ne_nil _ _,
      List.forall_mem_cons.2 ⟨hfit, hfits⟩⟩
    rw [hsa, hsw]
    simp only [List.append_assoc, List.cons_append]

section

variable {i : ℕ} (hP : Inherited good P) (ih : SoundBelow good P i)
include hP ih

theorem param_sound {p : Text × TypeExpr} (hs : s.length < i) (hgood : Throughout good s)
    (h : ReadsParam s p r) : Took .param s r ∧ ParamName p.1 ∧ P p.2 := by
  obtain ⟨v, hname, htype⟩ := h
  have hlt := hname.length_lt
  obtain ⟨hn, rfl⟩ := paramName_of_reads hname
  rcases htype with ⟨w, hcolon, ht⟩ | ⟨-, hany, rfl⟩
  · have hlt' := hcolon.length_lt
    obtain ⟨⟨u, hu, rfl⟩, hp⟩ := ih _ _ _ (by omega) (hgood.of_append.of_between hcolon) ht
    obtain ⟨a, b, ha, hb, rfl⟩ := exists_blank_of_leaves_between? hcolon
    refine ⟨⟨_, .typed hn ha hb hu, ?_⟩, hn, hp⟩
    simp only [List.append_assoc, List.cons_append]
  · refine ⟨⟨_, .untyped hn, rfl⟩, hn, ?_⟩
    rw [hany]
    exact hP.any

omit hP in
theorem key_sound {key : Text} (hs : s.length ≤ i) (hgood : Throughout good s)
    (h : ReadsKey s key r) :
    Took .key s r ∧ (Ident key ∨ ∃ k, P k ∧ key = bracketed k) := by
  rcases h with ⟨v, t, rfl, ht, rfl⟩ | hname
  · obtain ⟨⟨u, hu, rfl⟩, hp⟩ := ih _ _ _ (Nat.lt_of_succ_le hs) hgood.of_cons ht
    refine ⟨⟨_, .typeKey hu, ?_⟩, .inr ⟨t, hp, rfl⟩⟩
    simp
  · obtain ⟨hn, hsr⟩ := ident_of_reads hname
    exact ⟨⟨_, .plainKey hn, hsr⟩, .inl hn⟩

omit hP in
theorem field_sound {f : Text × TypeExpr} (hs : s.length < i) (hgood : Throughout good s)
    (h : ReadsField s f r) :
    Took .field s r ∧ (Ident f.1 ∨ ∃ k, P k ∧ f.1 = bracketed k) ∧ P f.2 := by
  obtain ⟨v, w, hkey, hcolon, ht⟩ := h
  have hlt := hkey.length_lt
  have hlt' := hcolon.length_lt
  obtain ⟨htook, hkeyed⟩ := key_sound ih hs.le hgood hkey
  have hrest := (htook.throughout hgood).of_between hcolon
  obtain ⟨k, hk, rfl⟩ := htook
  obtain ⟨⟨u, hu, rfl⟩, hp⟩ := ih _ _ _ (by omega) hrest ht
  obtain ⟨a, b, ha, hb, rfl⟩ := exists_blank_of_leaves_between? hcolon
  refine ⟨⟨_, .field hk ha hb hu, ?_⟩, hkeyed, hp⟩
  simp only [List.append_assoc, List.cons_append]

omit hP in
theorem result_sound (hw : Derives .signature w) (hs : s.length ≤ i) (hgood : Throughout good s) :
    Took .primary (w ++ s) (result s).2.1 ∧ (result s).1.length ≤ 1 ∧
      ∀ t ∈ (result s).1, P t := by
  rcases result_cases s with h | ⟨v, t, r, hcolon, ht⟩
  · rw [h]
    exact ⟨⟨w, .function hw, rfl⟩, Nat.zero_le _, nofun⟩
  · rw [(result_more hcolon ht).1, (result_more hcolon ht).2]
    have hlt := hcolon.length_lt
    obtain ⟨⟨u, hu, rfl⟩, hp⟩ := ih _ _ _ (by omega) (hgood.of_between hcolon) ht
    obtain ⟨a, b, ha, hb, rfl⟩ := exists_blank_of_leaves_between? hcolon
    refine ⟨⟨_, .returning hw ha hb hu, ?_⟩, Nat.le_refl 1, by simpa using hp⟩
    simp only [List.append_assoc, List.cons_append]

theorem signature_sound {ps : List (Text × TypeExpr)} (hs : s.length < i)
    (hgood : Throughout good s) (h : Enclosed ReadsParam ')' s ps r) :
    Took .signature ("fun(".toList ++ s) r ∧ Throughout good r ∧
      ∀ p ∈ ps, ParamName p.1 ∧ P p.2 := by
  rcases h with ⟨rfl, hclose⟩ | ⟨-, hps⟩
  · have hrest := hgood.of_closing hclose
    obtain ⟨a, ha, rfl⟩ := exists_blank_of_leaves_closing? hclose
    exact ⟨⟨_, .nullary ha, by simp⟩, hrest, nofun⟩
  · obtain ⟨⟨a, v, b, ha, hv, hb, rfl⟩, -, hfit⟩ :=
      items_sound (x := .param) (fun p => ParamName p.1 ∧ P p.2)
        (fun s p r hs hgood hp => param_sound hP ih hs hgood hp)
        (fun s p r => ReadsParam.length_lt) hps hs hgood
    have hrest := hgood.of_append.of_append.of_append.of_cons
    exact ⟨⟨_, .signature ha hv hb, by simp⟩, hrest, hfit⟩

theorem table_sound {fs : List (Text × TypeExpr)} (hs : s.length < i) (hgood : Throughout good s)
    (h : Enclosed ReadsField '}' s fs r) : Took .primary ('{' :: s) r ∧ P (.table fs) := by
  rcases h with ⟨rfl, hclose⟩ | ⟨-, hfs⟩
  · obtain ⟨a, ha, rfl⟩ := exists_blank_of_leaves_closing? hclose
    exact ⟨⟨_, .emptyTable ha, by simp⟩, hP.table nofun⟩
  · obtain ⟨⟨a, v, b, ha, hv, hb, rfl⟩, -, hfit⟩ := items_sound (x := .field)
      (fun f => (Ident f.1 ∨ ∃ k, P k ∧ f.1 = bracketed k) ∧ P f.2)
      (fun s f r hs hgood hf => field_sound ih hs hgood hf)
      (fun s f r => ReadsField.length_lt) hfs hs hgood
    exact ⟨⟨_, .table ha hv hb, by simp⟩, hP.table hfit⟩

theorem named_sound (hn : Ident n) (hs : s.length < i) (hgood : Throughout good s)
    (h : NamedStep n s t r) : Took .primary (n ++ s) r ∧ P t := by
  cases h with
  | @function v w ps hfun hps =>
    have hv : v.length < i := Nat.lt_of_succ_lt hs
    have hw : w.length < v.length := by
      rcases hps with ⟨-, hclose⟩ | ⟨-, hps⟩
      · exact hclose.length_lt
      · exact (reads_params?.2 hps).length_lt
    obtain ⟨htook, hrest, hfit⟩ := signature_sound hP ih hv hgood.of_cons hps
    obtain ⟨u, hu, huw⟩ := htook
    obtain ⟨htook, hone, hrs⟩ := result_sound ih hu (hw.trans hv).le hrest
    refine ⟨?_, hP.function hfit hone hrs⟩
    rw [hfun]
    rwa [← huw] at htook
  | @container v r ts hts =>
    obtain ⟨⟨a, w, b, ha, hw, hb, rfl⟩, hne, hfit⟩ := items_sound (x := .union)
      P ih (fun s t r h => Reads.length_lt h) hts (Nat.lt_of_succ_lt hs) hgood.of_cons
    exact ⟨⟨_, .container hn ha hw hb, by simp⟩, hP.container hn hne hfit⟩
  | name hangle hparen => exact ⟨⟨n, .name hn, rfl⟩, hP.name hn⟩

theorem primary_sound (hs : s.length ≤ i) (hgood : Throughout good s)
    (h : Reads (primary? s) t r) : Took .primary s r ∧ P t := by
  cases reads_primary?.1 h with
  | @group s v r t ht hclose =>
    have hle := length_trimStart_le s
    have hlt : (trimStart s).length < i := Nat.lt_of_lt_of_le (Nat.lt_succ_of_le hle) hs
    obtain ⟨⟨w, hw, hsw⟩, hp⟩ := ih _ _ _ hlt hgood.of_cons.trimStart ht
    obtain ⟨a, ha, hsa⟩ := exists_blank_append_trimStart s
    obtain ⟨b, hb, rfl⟩ := exists_blank_of_leaves_closing? hclose
    refine ⟨⟨_, .group ha hw hb, ?_⟩, hp⟩
    rw [hsa, hsw]
    simp
  | table hfs => exact table_sound hP ih (Nat.lt_of_succ_le hs) hgood.of_cons hfs
  | @string q s r t hq ht =>
    obtain ⟨v, hv, rfl, rfl⟩ := quoted_of_reads ht
    have hquoted : Quoted (q :: v ++ [q]) := ⟨hq, hv⟩
    have hs : q :: (v ++ q :: r) = (q :: v ++ [q]) ++ r := by simp
    rw [hs] at hgood ⊢
    exact ⟨⟨_, .quoted hquoted, rfl⟩, hP.quoted hquoted (hgood _ (List.prefix_append _ r).isInfix)⟩
  | number hc ht =>
    obtain ⟨w, hw, hsw, rfl⟩ := number_of_reads hc ht
    exact ⟨⟨w, .number hw, hsw⟩, hP.number hw⟩
  | @named s v n r t hname hstep =>
    obtain ⟨hn, rfl⟩ := ident_of_reads hname
    exact named_sound hP ih hn (hname.length_lt.trans_le hs) hgood.of_append hstep

end

theorem suffixes_sound (hP : Inherited good P) (hw : Derives .suffixed w) (ht : P t) :
    Took .suffixed (w ++ s) (suffixes t s).2.1 ∧ P (suffixes t s).1 := by
  fun_induction suffixes t s generalizing w with
  | case1 t s u r h ih =>
    rw [h] at ih
    obtain ⟨⟨v, hv, hvr⟩, hp⟩ := ih hw.array (hP.array ht)
    rw [List.append_assoc] at hvr
    exact ⟨⟨v, hv, hvr⟩, hp⟩
  | case2 t s u r h ih =>
    rw [h] at ih
    obtain ⟨⟨v, hv, hvr⟩, hp⟩ := ih hw.optional (hP.optional ht)
    rw [List.append_assoc] at hvr
    exact ⟨⟨v, hv, hvr⟩, hp⟩
  | case3 t s harray hoptional => exact ⟨⟨w, hw, rfl⟩, ht⟩

section

variable {i : ℕ} (hP : Inherited good P) (ih : SoundBelow good P i)
include hP ih

theorem suffixed_sound (hs : s.length ≤ i) (hgood : Throughout good s)
    (h : Reads (suffixed? s) t r) : Took .suffixed s r ∧ P t := by
  obtain ⟨u, v, hu, rfl, rfl⟩ := reads_suffixed?.1 h
  obtain ⟨⟨w, hw, rfl⟩, hp⟩ := primary_sound hP ih hs hgood hu
  exact suffixes_sound hP (.bare hw) hp

theorem alternatives_sound (hw : Derives .suffixed w) (hs : s.length < i)
    (hgood : Throughout good s) :
    Took .union (w ++ s) (alternatives s).2.1 ∧ ∀ t ∈ (alternatives s).1, P t := by
  obtain ⟨n, hn⟩ : ∃ n, n = s.length := ⟨_, rfl⟩
  induction n using Nat.strong_induction_on generalizing w s with
  | h n ih' =>
    rcases alternatives_cases s with h | ⟨v, t, r, hbar, ht⟩
    · rw [h]
      exact ⟨⟨w, .alone hw, rfl⟩, nofun⟩
    · rw [(alternatives_more hbar ht).1, (alternatives_more hbar ht).2]
      have hlt := hbar.length_lt
      have hlt' := ht.length_lt
      obtain ⟨htook, hp⟩ := suffixed_sound hP ih (by omega) (hgood.of_between hbar) ht
      have hrest := htook.throughout (hgood.of_between hbar)
      obtain ⟨u, hu, rfl⟩ := htook
      obtain ⟨⟨x, hx, hux⟩, hps⟩ := ih' r.length (by omega) hu (by omega) hrest rfl
      obtain ⟨a, b, ha, hb, rfl⟩ := exists_blank_of_leaves_between? hbar
      refine ⟨⟨_, .joined hw ha hb hx, ?_⟩, List.forall_mem_cons.2 ⟨hp, hps⟩⟩
      rw [hux]
      simp

end

theorem Inherited.ofAlternatives (hP : Inherited good P) (ht : P t) (hts : ∀ u ∈ ts, P u) :
    P (ofAlternatives (t :: ts)) := by
  cases ts with
  | nil => exact ht
  | cons u ts =>
    exact hP.union (Nat.le_add_left 2 ts.length) (List.forall_mem_cons.2 ⟨ht, hts⟩)

theorem soundBelow (hP : Inherited good P) (i : ℕ) : SoundBelow good P i := by
  -- Between two calls of `union?` at least one character is taken, so a bound on the length will do.
  induction i with
  | zero => exact fun s t r hs => absurd hs (Nat.not_lt_zero _)
  | succ i ih =>
    intro s t r hs hgood h
    obtain ⟨u, v, hu, rfl, rfl⟩ := reads_union?.1 h
    obtain ⟨htook, hp⟩ := suffixed_sound hP ih (Nat.le_of_lt_succ hs) hgood hu
    have hrest := htook.throughout hgood
    obtain ⟨w, hw, rfl⟩ := htook
    obtain ⟨htook, hps⟩ :=
      alternatives_sound hP ih hw (hu.length_lt.trans_le (Nat.le_of_lt_succ hs)) hrest
    exact ⟨htook, hP.ofAlternatives hp hps⟩

/-- Reading gives a type with every property that types inherit from the strings in them. -/
theorem union_inherited (hP : Inherited good P) (hgood : Throughout good s)
    (h : Reads (union? s) t r) : P t :=
  (soundBelow hP (s.length + 1) s t r (Nat.lt_succ_self _) hgood h).2

/-- Reading takes a derivable text and gives a well-formed type. -/
theorem union_sound (h : Reads (union? s) t r) : Took .union s r ∧ WellFormed t :=
  soundBelow inherited_wellFormed (s.length + 1) s t r (Nat.lt_succ_self _) (throughout_true s) h

/-! ### Derivable texts are solid -/

theorem solid_fun : Solid "fun(".toList :=
  (solid_singleton (c := 'f') rfl).append "un".toList (solid_singleton (c := '(') rfl)

theorem Derives.solid {x : Symbol} (h : Derives x w) : Solid w := by
  induction h with
  | alone _ ih => exact ih
  | joined _ _ _ _ ihv ihw => exact ihv.append_cons _ _ _ ihw
  | bare _ ih => exact ih
  | array _ ih => exact ih.concat ['['] rfl
  | optional _ ih => exact ih.concat [] rfl
  | @group a v b ha hv hb ih =>
    have h := (solid_singleton (c := '(') rfl).concat (a ++ (v ++ b)) (c := ')') rfl
    simpa using h
  | quoted hv => exact hv.solid
  | number hv => exact hv.solid
  | name hn => exact hn.solid
  | @container n a v b hn ha hv hb ih =>
    have h := hn.solid.concat ('<' :: (a ++ (v ++ b))) (c := '>') rfl
    simpa using h
  | @emptyTable a ha =>
    exact (solid_singleton (c := '{') rfl).concat a (c := '}') rfl
  | @table a v b ha hv hb ih =>
    have h := (solid_singleton (c := '{') rfl).concat (a ++ (v ++ b)) (c := '}') rfl
    simpa using h
  | function _ ih => exact ih
  | returning _ _ _ _ ihv ihw => exact ihv.append_cons _ _ _ ihw
  | @nullary a ha =>
    exact solid_fun.concat a rfl
  | @signature a v b ha hv hb ih =>
    have h := solid_fun.concat (a ++ (v ++ b)) (c := ')') rfl
    simpa using h
  | untyped hn => exact hn.solid
  | typed hn _ _ _ ih => exact hn.solid.append_cons _ _ _ ih
  | plainKey hn => exact hn.solid
  | @typeKey v hv ih => exact (solid_singleton (c := '[') rfl).concat v rfl
  | field _ _ _ _ ihk ihv => exact ihk.append_cons _ _ _ ihv
  | last _ ih => exact ih
  | more _ _ _ _ ihv ihw => exact ihv.append_cons _ _ _ ihw

/-- What can be taken starts with no white space. -/
theorem Took.trimStart_eq {x : Symbol} (h : Took x s r) : trimStart s = s := by
  obtain ⟨w, hw, rfl⟩ := h
  exact hw.solid.trimStart_append r

/-! ### What is derivable is read -/

/-- A type is read from the front of the text whatever follows its end, and unless a colon follows,
it takes all that continues it. -/
def Opens (w : Text) : Prop :=
  ∀ r, Boundary r → ∃ t v, ReadsType (w ++ r) t v ∧ (':' ∉ (trimStart r).head? → v = after r)

/-- The text is an item of a list where nothing continues it. -/
def IsItem {α : Type} (item : Text → α → Text → Prop) (w : Text) : Prop :=
  ∀ r, Stop r → ∃ x, item (w ++ r) x r

/-- The text holds the items of a list that a mark may close. -/
def IsList {α : Type} (item : Text → α → Text → Prop) (w : Text) : Prop :=
  ∀ close b r, close ∈ closers → ',' ≠ close → Blank b →
    ∃ xs, Items item close (w ++ (b ++ close :: r)) xs r

/-- The text is read as its class demands. -/
def Accepted : Symbol → Text → Prop
  | .union, w | .suffixed, w | .primary, w => Opens w
  | .signature, w => ∀ r, ∃ ps, PrimaryStep (w ++ r) (.function ps (result r).1) (result r).2.1
  | .param, w => IsItem ReadsParam w
  | .key, w => ∀ r, (∀ c ∈ r.head?, isDottedChar c = false) → ∃ k, ReadsKey (w ++ r) k r
  | .field, w => IsItem ReadsField w
  | .list .union, w => IsList ReadsType w
  | .list .param, w => IsList ReadsParam w
  | .list .field, w => IsList ReadsField w
  | .list _, _ => True

theorem Opens.isItem (h : Opens w) : IsItem ReadsType w := by
  intro r hr
  obtain ⟨t, v, ht, hv⟩ := h r hr.boundary
  rw [hv hr.colon, hr.after_eq] at ht
  exact ⟨t, ht⟩

theorem opens_of_primary (h : ∀ r, Boundary r → ∃ t, PrimaryStep (w ++ r) t r) : Opens w := by
  intro r hr
  obtain ⟨t, ht⟩ := h r hr
  obtain ⟨u, hu⟩ := reads_union?_of_primary? (reads_primary?.2 ht)
  exact ⟨u, after r, hu, fun _ => rfl⟩

theorem opens_joined (hv : Opens v) (ha : Blank a) (hb : Blank b) (hw : Opens w)
    (hsolid : Solid w) : Opens (v ++ (a ++ '|' :: (b ++ w))) := by
  intro r hr
  obtain ⟨t, x, ht, hx⟩ := hv (a ++ '|' :: (b ++ (w ++ r))) (boundary_blank_append ha (by decide))
  obtain ⟨u, y, hu, hy⟩ := hw r hr
  -- The first type takes all that continues it, and the second ends where that ends.
  have hxy : x = y := by
    rw [hx (not_mem_head?_trimStart ha rfl (by decide)), after_bar ha hb hsolid hu]
  refine ⟨t, y, ?_, hy⟩
  rw [← hxy]
  simpa using ht

theorem opens_suffix {wrap : TypeExpr → TypeExpr} {x : Text} (hx : IsSuffix wrap x)
    (hv : Opens v) : Opens (v ++ x) := by
  intro r _
  obtain ⟨t, y, ht, hy⟩ := hv (x ++ r) (hx.boundary r)
  refine ⟨t, y, by rwa [List.append_assoc], fun _ => ?_⟩
  rw [hy (hx.colon r), hx.after_append]

theorem opens_group (ha : Blank a) (hv : Opens v) (hsolid : Solid v) (hb : Blank b) :
    Opens ('(' :: (a ++ (v ++ (b ++ ")".toList)))) := by
  refine opens_of_primary fun r _ => ?_
  obtain ⟨t, ht⟩ := hv.isItem (b ++ ')' :: r) (stop_blank_append hb (by decide))
  have htrim : trimStart (a ++ (v ++ (b ++ ')' :: r))) = v ++ (b ++ ')' :: r) := by
    rw [trimStart_append_of_blank ha, hsolid.trimStart_append]
  have hgroup := PrimaryStep.group (s := a ++ (v ++ (b ++ ')' :: r))) (htrim ▸ ht)
    (leaves_closing?_append hb rfl)
  exact ⟨t, by simpa using hgroup⟩

theorem opens_quoted (hv : Quoted v) : Opens v :=
  opens_of_primary fun _ _ => ⟨_, primaryStep_quoted hv⟩

theorem opens_number (hv : Number v) : Opens v :=
  opens_of_primary fun _ hr => ⟨_, primaryStep_number hv hr⟩

theorem opens_name (hn : Ident n) : Opens n :=
  opens_of_primary fun _ hr => ⟨_, primaryStep_name hn hr⟩

theorem opens_container (hn : Ident n) (ha : Blank a) (hv : IsList ReadsType v) (hb : Blank b) :
    Opens (n ++ '<' :: (a ++ (v ++ (b ++ ">".toList)))) := by
  refine opens_of_primary fun r _ => ?_
  obtain ⟨ts, hts⟩ := hv '>' b r (by decide) (by decide) hb
  have hcontainer :=
    primaryStep_container hn (items_congr (trimStart_append_of_blank ha).symm hts)
  exact ⟨_, by simpa using hcontainer⟩

theorem opens_emptyTable (ha : Blank a) : Opens ('{' :: (a ++ ['}'])) := by
  refine opens_of_primary fun r _ => ?_
  have htable := PrimaryStep.table (.inl ⟨rfl, leaves_closing?_append (r := r) ha rfl⟩)
  exact ⟨_, by simpa using htable⟩

theorem opens_table (ha : Blank a) (hv : IsList ReadsField v) (hb : Blank b) :
    Opens ('{' :: (a ++ (v ++ (b ++ ['}'])))) := by
  refine opens_of_primary fun r _ => ?_
  obtain ⟨fs, hfs⟩ := hv '}' b r (by decide) (by decide) hb
  have htable := PrimaryStep.table
    (enclosed_fields (items_congr (trimStart_append_of_blank ha).symm hfs))
  exact ⟨_, by simpa using htable⟩

theorem accepted_nullary (ha : Blank a) :
    Accepted .signature ("fun(".toList ++ (a ++ ")".toList)) := by
  intro r
  have hfunction := primaryStep_function (.inl ⟨rfl, leaves_closing?_append (r := r) ha rfl⟩)
  exact ⟨[], by simpa using hfunction⟩

theorem accepted_signature (ha : Blank a) (hv : IsList ReadsParam v) (hb : Blank b) :
    Accepted .signature ("fun(".toList ++ (a ++ (v ++ (b ++ ")".toList)))) := by
  intro r
  obtain ⟨ps, hps⟩ := hv ')' b r (by decide) (by decide) hb
  have hfunction := primaryStep_function
    (enclosed_params (items_congr (trimStart_append_of_blank ha).symm hps))
  exact ⟨ps, by simpa using hfunction⟩

theorem opens_function (hv : Accepted .signature v) : Opens v := by
  intro r hr
  obtain ⟨ps, hps⟩ := hv r
  obtain ⟨u, hu⟩ := reads_union?_of_primary? (reads_primary?.2 hps)
  refine ⟨u, _, hu, fun hcolon => ?_⟩
  rw [result_stop hcolon]
  rfl

theorem opens_returning (hv : Accepted .signature v) (ha : Blank a) (hb : Blank b) (hw : Opens w)
    (hsolid : Solid w) : Opens (v ++ (a ++ ':' :: (b ++ w))) := by
  intro r hr
  obtain ⟨t, x, ht, hx⟩ := hw r hr
  obtain ⟨ps, hps⟩ := hv (a ++ ':' :: (b ++ (w ++ r)))
  obtain ⟨u, hu⟩ := reads_union?_of_primary? (reads_primary?.2 hps)
  rw [(result_more (leaves_between?_append_solid ha hb hsolid rfl) ht).2] at hu
  refine ⟨u, after x, by simpa using (show ReadsType _ _ _ from hu), fun hcolon => ?_⟩
  -- The result has already taken what follows; nothing is left for the function.
  rw [hx hcolon, after_after]

theorem isItem_untyped (hn : ParamName n) : IsItem ReadsParam n := by
  intro r hr
  have hread : Reads (paramName? (n ++ r)) n r := by
    refine reads_paramName?_append hn fun c hc => ⟨(hr.boundary c hc).1, ?_⟩
    rintro rfl
    obtain ⟨v, rfl⟩ := mem_head?_iff.1 hc
    exact hr.noSuffix.2 v rfl
  exact ⟨(n, any), r, hread, .inr ⟨hr.colon, rfl, rfl⟩⟩

theorem not_isDottedChar_of_mem_head? (ha : Blank a) (hd : isDottedChar d = false)
    (hc : c ∈ (a ++ d :: s).head?) : isDottedChar c = false := by
  rcases mem_head?_blank_append ha hc with hc | rfl
  · exact not_isDottedChar_of_isSpace hc
  · exact hd

theorem isItem_typed (hn : ParamName n) (ha : Blank a) (hb : Blank b) (hv : Opens v)
    (hsolid : Solid v) : IsItem ReadsParam (n ++ (a ++ ':' :: (b ++ v))) := by
  intro r hr
  obtain ⟨t, ht⟩ := hv.isItem r hr
  have hread : Reads (paramName? (n ++ (a ++ ':' :: (b ++ (v ++ r))))) n
      (a ++ ':' :: (b ++ (v ++ r))) := by
    refine reads_paramName?_append hn fun c hc => ?_
    rcases mem_head?_blank_append ha hc with hc | rfl
    · exact ⟨not_isDottedChar_of_isSpace hc, ne_of_test hc rfl⟩
    · decide
  have hparam : ReadsParam (n ++ (a ++ ':' :: (b ++ (v ++ r)))) (n, t) r :=
    ⟨_, hread, .inl ⟨_, leaves_between?_append_solid ha hb hsolid rfl, ht⟩⟩
  exact ⟨(n, t), by simpa using hparam⟩

theorem accepted_typeKey (hv : Opens v) : Accepted .key ('[' :: (v ++ "]".toList)) := by
  intro r _
  obtain ⟨t, ht⟩ := hv.isItem (']' :: r) (stop_cons (by decide))
  exact ⟨bracketed t, .inl ⟨v ++ ']' :: r, t, by simp, ht, rfl⟩⟩

theorem isItem_field {k : Text} (hk : Accepted .key k) (ha : Blank a) (hb : Blank b) (hv : Opens v)
    (hsolid : Solid v) : IsItem ReadsField (k ++ (a ++ ':' :: (b ++ v))) := by
  intro r hr
  obtain ⟨t, ht⟩ := hv.isItem r hr
  obtain ⟨key, hkey⟩ := hk (a ++ ':' :: (b ++ (v ++ r)))
    fun c hc => not_isDottedChar_of_mem_head? ha rfl hc
  have hfield : ReadsField (k ++ (a ++ ':' :: (b ++ (v ++ r)))) (key, t) r :=
    ⟨_, _, hkey, leaves_between?_append_solid ha hb hsolid rfl, ht⟩
  exact ⟨(key, t), by simpa using hfield⟩

section

variable {α : Type} {item : Text → α → Text → Prop}

theorem isList_last (hv : IsItem item v) (hsolid : Solid v) : IsList item v := by
  intro close b r hclose hcomma hb
  obtain ⟨x, hx⟩ := hv (b ++ close :: r) (stop_blank_append hb hclose)
  exact ⟨[x], items_last (hsolid.trimStart_append _) hb (isSpace_of_mem_closers hclose) hcomma hx⟩

theorem isList_more (hv : IsItem item v) (hsolid : Solid v) (ha : Blank a) (hb : Blank b)
    (hw : IsList item w) : IsList item (v ++ (a ++ ',' :: (b ++ w))) := by
  intro close e r hclose hcomma he
  obtain ⟨xs, hxs⟩ := hw close e r hclose hcomma he
  obtain ⟨x, hx⟩ := hv (a ++ ',' :: (b ++ (w ++ (e ++ close :: r))))
    (stop_blank_append ha (by decide))
  have hitems := items_more (hsolid.trimStart_append _) ha hb hx hxs
  exact ⟨x :: xs, by simpa using hitems⟩

end

theorem Derives.accepted {x : Symbol} (h : Derives x w) : Accepted x w := by
  induction h with
  | alone _ ih => exact ih
  | joined _ ha hb hw ihv ihw => exact opens_joined ihv ha hb ihw hw.solid
  | bare _ ih => exact ih
  | array _ ih => exact opens_suffix isSuffix_array ih
  | optional _ ih => exact opens_suffix isSuffix_optional ih
  | group ha hv hb ih => exact opens_group ha ih hv.solid hb
  | quoted hv => exact opens_quoted hv
  | number hv => exact opens_number hv
  | name hn => exact opens_name hn
  | container hn ha _ hb ih => exact opens_container hn ha ih hb
  | emptyTable ha => exact opens_emptyTable ha
  | table ha _ hb ih => exact opens_table ha ih hb
  | function _ ih => exact opens_function ih
  | returning _ ha hb hw ihv ihw => exact opens_returning ihv ha hb ihw hw.solid
  | nullary ha => exact accepted_nullary ha
  | signature ha _ hb ih => exact accepted_signature ha ih hb
  | untyped hn => exact isItem_untyped hn
  | typed hn ha hb hv ih => exact isItem_typed hn ha hb ih hv.solid
  | plainKey hn => exact fun r hr => ⟨_, .inr (reads_ident?_append hn hr)⟩
  | typeKey _ ih => exact accepted_typeKey ih
  | field _ ha hb hv ihk ihv => exact isItem_field ihk ha hb ihv hv.solid
  | @last x v hv ih =>
    cases x with
    | union => exact isList_last ih.isItem hv.solid
    | param => exact isList_last ih hv.solid
    | field => exact isList_last ih hv.solid
    | suffixed | primary | signature | key | list => trivial
  | @more x v a b w hv ha hb _ ihv ihw =>
    cases x with
    | union => exact isList_more ihv.isItem hv.solid ha hb ihw
    | param => exact isList_more ihv hv.solid ha hb ihw
    | field => exact isList_more ihv hv.solid ha hb ihw
    | suffixed | primary | signature | key | list => trivial

/-! ### Reading a whole text -/

/-- The readers take a text whole if and only if the grammar derives it. -/
theorem reads_whole_iff : (∃ t, Reads (union? s) t []) ↔ Derives .union s := by
  constructor
  · intro h
    obtain ⟨t, ht⟩ := h
    obtain ⟨⟨w, hw, hs⟩, -⟩ := union_sound ht
    rwa [hs, List.append_nil]
  · intro h
    obtain ⟨t, ht⟩ := h.accepted.isItem [] stop_nil
    rw [List.append_nil] at ht
    exact ⟨t, ht⟩

/-- A whole text is a type that the readers take whole, or it is kept as a name and is not
derivable. -/
theorem parse_spec (s : Text) : Reads (union? (trim s)) (parse s) [] ∨
    (¬ Derives .union (trim s) ∧ parse s = .named (trim s)) := by
  rcases parse_cases s with ⟨t, r, ht, hr, rfl⟩ | ⟨hnone, hs⟩
  · rw [reads_leading?, trimStart_trim] at ht
    rcases ht with ht | ⟨hnone, -, hword, hrest⟩
    · obtain ⟨⟨w, -, hs⟩, -⟩ := union_sound ht
      obtain rfl := eq_nil_of_trim_eq_append hs hr
      exact .inl ht
    · refine .inr ⟨fun h => ?_, ?_⟩
      · obtain ⟨t, ht⟩ := reads_whole_iff.2 h
        exact hnone t [] ht
      · have hs := List.takeWhile_append_dropWhile (p := (!isSpace ·)) (l := trim s)
        rw [hrest] at hs
        obtain rfl := eq_nil_of_trim_eq_append hs.symm hr
        rw [← hword]
        exact congrArg named (by simpa using hs)
  · refine .inr ⟨fun h => ?_, hs⟩
    obtain ⟨t, ht⟩ := reads_whole_iff.2 h
    refine hnone t [] (reads_leading?.2 (.inl ?_)) blank_nil
    rwa [trimStart_trim]

theorem parse_eq_of_reads (h : Reads (union? s) t []) : parse s = t := by
  obtain ⟨⟨w, hw, hs⟩, -⟩ := union_sound h
  rw [List.append_nil] at hs
  have htrim : trim s = s := by rw [hs, hw.solid.trim_eq]
  rcases parse_spec s with hspec | ⟨hnot, -⟩
  · rw [htrim] at hspec
    exact (hspec.unique h).1
  · rw [htrim, hs] at hnot
    exact absurd hw hnot

theorem parse_eq_named (h : ¬ Derives .union (trim s)) : parse s = .named (trim s) := by
  rcases parse_spec s with hs | hs
  · exact absurd (reads_whole_iff.1 ⟨_, hs⟩) h
  · exact hs.2

/-- The readers accept exactly the grammar, and a text outside of it is kept whole as a name. -/
theorem parse_accepts_grammar (s : Text) :
    ((∃ t, Reads (union? (trim s)) t []) ↔ Derives .union (trim s)) ∧
      (Derives .union (trim s) → Reads (union? (trim s)) (parse s) []) ∧
      (¬ Derives .union (trim s) → parse s = .named (trim s)) := by
  refine ⟨reads_whole_iff, ?_, parse_eq_named⟩
  intro h
  exact (parse_spec s).resolve_right fun hs => hs.1 h

end LuaDocs.TypeExpr
