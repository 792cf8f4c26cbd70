import LuaDocs.Proofs.TypeExpr.Shape

/-!
# One step of reading a type

What each reader of the grammar does, said once and in terms of the readers it calls. `PrimaryStep`
has one case for each form of a primary type. Arguments, parameters and fields are lists of one
shape, items between commas up to a closing mark, and `Items` is that shape for any kind of item.
Nothing after this module unfolds a reader.
-/

namespace LuaDocs.TypeExpr

open Text

variable {s r v w n : Text} {t u : TypeExpr} {ts : List TypeExpr} {c : Char}

/-! ### Suffixes -/

def NoSuffix (s : Text) : Prop :=
  (∀ r, s ≠ '[' :: ']' :: r) ∧ ∀ r, s ≠ '?' :: r

theorem suffixes_array : (suffixes t ('[' :: ']' :: s)).1 = (suffixes (array t) s).1 ∧
    (suffixes t ('[' :: ']' :: s)).2.1 = (suffixes (array t) s).2.1 :=
  ⟨rfl, rfl⟩

theorem suffixes_optional : (suffixes t ('?' :: s)).1 = (suffixes (optional t) s).1 ∧
    (suffixes t ('?' :: s)).2.1 = (suffixes (optional t) s).2.1 :=
  ⟨rfl, rfl⟩

theorem suffixes_of_noSuffix (h : NoSuffix s) : suffixes t s = (t, .whole s) := by
  unfold suffixes
  split
  · exact absurd rfl (h.1 _)
  · exact absurd rfl (h.2 _)
  · rfl

theorem noSuffix_suffixes (t : TypeExpr) (s : Text) : NoSuffix (suffixes t s).2.1 := by
  fun_induction suffixes t s with
  | case1 t s u r h ih =>
    rw [h] at ih
    exact ih
  | case2 t s u r h ih =>
    rw [h] at ih
    exact ih
  | case3 t s harray hoptional => exact ⟨harray, hoptional⟩

/-- What the suffixes leave does not depend on the type they are put on. -/
theorem suffixes_rest (t u : TypeExpr) (s : Text) : (suffixes t s).2.1 = (suffixes u s).2.1 := by
  fun_induction suffixes t s generalizing u with
  | case1 t s v r h ih =>
    rw [h] at ih
    exact ih (array u)
  | case2 t s v r h ih =>
    rw [h] at ih
    exact ih (optional u)
  | case3 t s harray hoptional => rw [suffixes_of_noSuffix ⟨harray, hoptional⟩]

/-! ### Alternatives -/

theorem reads_suffixed? : Reads (suffixed? s) t r ↔
    ∃ u v, Reads (primary? s) u v ∧ (suffixes u v).1 = t ∧ (suffixes u v).2.1 = r := by
  rw [suffixed?]
  constructor
  · intro h
    split at h
    · exact absurd h not_reads_none
    · next u v hprimary => exact ⟨u, v.1, .of_eq_some hprimary, reads_some.1 h⟩
  · intro h
    obtain ⟨u, v, ⟨_, hprimary⟩, h⟩ := h
    rw [hprimary]
    exact reads_some.2 h

theorem reads_union? : Reads (union? s) t r ↔
    ∃ u v, Reads (suffixed? s) u v ∧ ofAlternatives (u :: (alternatives v).1) = t ∧
      (alternatives v).2.1 = r := by
  rw [union?]
  constructor
  · intro h
    split at h
    · exact absurd h not_reads_none
    · next u v hsuffixed => exact ⟨u, v.1, .of_eq_some hsuffixed, reads_some.1 h⟩
  · intro h
    obtain ⟨u, v, ⟨_, hsuffixed⟩, h⟩ := h
    rw [hsuffixed]
    exact reads_some.2 h

theorem alternatives_stop (h : '|' ∉ (trimStart s).head?) : alternatives s = ([], .whole s) := by
  rw [alternatives, between?_eq_none_iff.2 h]

theorem alternatives_more (hv : Leaves (between? '|' s) v) (ht : Reads (suffixed? v) t w) :
    (alternatives s).1 = t :: (alternatives w).1 ∧
      (alternatives s).2.1 = (alternatives w).2.1 := by
  obtain ⟨_, hv⟩ := hv
  obtain ⟨_, ht⟩ := ht
  rw [alternatives, hv]
  simp only [ht, true_and]
  rfl

/-- Either no alternative follows, or there is one and the others follow it. -/
theorem alternatives_cases (s : Text) : alternatives s = ([], .whole s) ∨
    ∃ v t w, Leaves (between? '|' s) v ∧ Reads (suffixed? v) t w := by
  cases hv : between? '|' s with
  | none => exact .inl (by rw [alternatives, hv])
  | some x =>
    cases ht : suffixed? x.1 with
    | none => exact .inl (by rw [alternatives, hv]; simp only [ht])
    | some p => exact .inr ⟨x.1, p.1, p.2.1, leaves_some.2 rfl, .of_eq_some ht⟩

/-! ### Results -/

theorem result_stop (h : ':' ∉ (trimStart s).head?) : result s = ([], .whole s) := by
  rw [result, between?_eq_none_iff.2 h]

theorem result_more (hv : Leaves (between? ':' s) v) (ht : Reads (union? v) t w) :
    (result s).1 = [t] ∧ (result s).2.1 = w := by
  obtain ⟨_, hv⟩ := hv
  obtain ⟨_, ht⟩ := ht
  rw [result, hv]
  simp only [ht, true_and]
  rfl

/-- Either no result follows, or there is one. -/
theorem result_cases (s : Text) : result s = ([], .whole s) ∨
    ∃ v t w, Leaves (between? ':' s) v ∧ Reads (union? v) t w := by
  cases hv : between? ':' s with
  | none => exact .inl (by rw [result, hv])
  | some x =>
    cases ht : union? x.1 with
    | none => exact .inl (by rw [result, hv]; simp only [ht])
    | some p => exact .inr ⟨x.1, p.1, p.2.1, leaves_some.2 rfl, .of_eq_some ht⟩

/-! ### Lists -/

/-- Items between commas, up to and with the mark that closes them; `item s a r` says that the item
`a` opens the text `s` and leaves `r`. -/
inductive Items {α : Type} (item : Text → α → Text → Prop) (close : Char) :
    Text → List α → Text → Prop
  | last {s v r : Text} {a : α} (hitem : item (trimStart s) a v)
      (hcomma : ',' ∉ (trimStart v).head?) (hclose : Leaves (closing? close v) r) :
      Items item close s [a] r
  | more {s v w r : Text} {a : α} {as : List α} (hitem : item (trimStart s) a v)
      (hcomma : Leaves (between? ',' v) w) (hitems : Items item close w as r) :
      Items item close s (a :: as) r

/-- A reader that takes one item at a time takes such a list. -/
theorem reads_iff_items {α : Type} {item : Text → α → Text → Prop} {close : Char}
    {read : (s : Text) → Option (List α × Rest s)}
    (hitem : ∀ {s a r}, item s a r → r.length < s.length)
    (hstep : ∀ {s as r}, Reads (read s) as r ↔ ∃ a v, item (trimStart s) a v ∧
      ((∃ w bs, Leaves (between? ',' v) w ∧ Reads (read w) bs r ∧ as = a :: bs) ∨
        (',' ∉ (trimStart v).head? ∧ Leaves (closing? close v) r ∧ as = [a])))
    {s : Text} {as : List α} {r : Text} : Reads (read s) as r ↔ Items item close s as r := by
  constructor
  · intro h
    induction hn : s.length using Nat.strong_induction_on generalizing s as with
    | h n ih =>
      obtain ⟨a, v, ha, ⟨w, bs, hw, hbs, rfl⟩ | ⟨hv, hr, rfl⟩⟩ := hstep.1 h
      · have hlt : w.length < n := by
          have := hitem ha
          have := hw.length_lt
          have := length_trimStart_le s
          omega
        exact .more ha hw (ih _ hlt hbs rfl)
      · exact .last ha hv hr
  · intro h
    induction h with
    | last ha hv hr => exact hstep.2 ⟨_, _, ha, .inr ⟨hv, hr, rfl⟩⟩
    | more ha hw has ih => exact hstep.2 ⟨_, _, ha, .inl ⟨_, _, hw, ih, rfl⟩⟩

/-- A type is taken as an item of a list. -/
def ReadsType (s : Text) (t : TypeExpr) (r : Text) : Prop :=
  Reads (union? s) t r

def ReadsSuffixed (s : Text) (t : TypeExpr) (r : Text) : Prop :=
  Reads (suffixed? s) t r

/-- A parameter is taken: its name and, after a colon, its type. -/
def ReadsParam (s : Text) (p : Text × TypeExpr) (r : Text) : Prop :=
  ∃ v, Reads (paramName? s) p.1 v ∧
    ((∃ w, Leaves (between? ':' v) w ∧ Reads (union? w) p.2 r) ∨
      (':' ∉ (trimStart v).head? ∧ p.2 = any ∧ v = r))

/-- The key of a field is taken: a type in brackets or a name. -/
def ReadsKey (s key r : Text) : Prop :=
  (∃ v t, s = '[' :: v ∧ Reads (union? v) t (']' :: r) ∧ key = bracketed t) ∨
    Reads (ident? s) key r

/-- A field is taken: its key and, after a colon, its type. -/
def ReadsField (s : Text) (f : Text × TypeExpr) (r : Text) : Prop :=
  ∃ v w, ReadsKey s f.1 v ∧ Leaves (between? ':' v) w ∧ Reads (union? w) f.2 r

theorem ReadsParam.length_lt {p : Text × TypeExpr} (h : ReadsParam s p r) :
    r.length < s.length := by
  obtain ⟨v, hname, ⟨w, hw, ht⟩ | ⟨-, -, rfl⟩⟩ := h
  · exact (ht.length_lt.trans hw.length_lt).trans hname.length_lt
  · exact hname.length_lt

theorem ReadsKey.length_lt {key : Text} (h : ReadsKey s key r) : r.length < s.length := by
  rcases h with ⟨v, t, rfl, ht, -⟩ | h
  · have := ht.length_lt
    simp only [List.length_cons] at this ⊢
    omega
  · exact h.length_lt

theorem ReadsField.length_lt {f : Text × TypeExpr} (h : ReadsField s f r) :
    r.length < s.length := by
  obtain ⟨v, w, hkey, hw, ht⟩ := h
  exact (ht.length_lt.trans hw.length_lt).trans hkey.length_lt

def further? {α : Type} (close : Char) (read : (s : Text) → Option (List α × Rest s)) (a : α)
    (x : Rest s) : Option (List α × Rest s) :=
  match between? ',' x.1 with
  | some y => (read y.1).map fun p => (a :: p.1, x.trans (y.trans p.2))
  | none => (closing? close x.1).map fun y => ([a], x.trans y)

def typed? (x : Rest s) : Option (TypeExpr × Rest s) :=
  match between? ':' x.1 with
  | some y => (union? y.1).map fun p => (p.1, x.trans (y.trans p.2))
  | none => some (any, x)

def key? (s : Text) : Option (Text × Rest s) :=
  match mark? '[' s with
  | some x =>
    match union? x.1 with
    | none => none
    | some (t, y) => (mark? ']' y.1).map fun z => (bracketed t, x.trans (y.trans z))
  | none => ident? s

theorem reads_further? {α : Type} {a : α} {as : List α} {close : Char} {x : Rest s}
    {read : (s : Text) → Option (List α × Rest s)} : Reads (further? close read a x) as r ↔
      (∃ w bs, Leaves (between? ',' x.1) w ∧ Reads (read w) bs r ∧ as = a :: bs) ∨
        (',' ∉ (trimStart x.1).head? ∧ Leaves (closing? close x.1) r ∧ as = [a]) := by
  rw [← between?_eq_none_iff, further?]
  cases hcomma : between? ',' x.1 with
  | none =>
    refine (reads_map_rest fun _ => by rfl).trans ?_
    constructor
    · intro h
      obtain ⟨hclose, rfl⟩ := h
      exact .inr ⟨rfl, hclose, rfl⟩
    · intro h
      rcases h with ⟨_, _, hw, -⟩ | ⟨-, hclose, rfl⟩
      · exact absurd hw not_leaves_none
      · exact ⟨hclose, rfl⟩
  | some y =>
    refine (reads_map (g := (a :: ·)) fun _ => by rfl).trans ?_
    constructor
    · intro h
      obtain ⟨bs, hbs, rfl⟩ := h
      exact .inl ⟨y.1, bs, leaves_some.2 rfl, hbs, rfl⟩
    · intro h
      rcases h with ⟨w, bs, hw, hbs, rfl⟩ | ⟨hnone, -⟩
      · obtain rfl := leaves_some.1 hw
        exact ⟨bs, hbs, rfl⟩
      · cases hnone

theorem reads_typed? {x : Rest s} : Reads (typed? x) t r ↔
    (∃ w, Leaves (between? ':' x.1) w ∧ Reads (union? w) t r) ∨
      (':' ∉ (trimStart x.1).head? ∧ t = any ∧ x.1 = r) := by
  rw [← between?_eq_none_iff, typed?]
  cases hcolon : between? ':' x.1 with
  | none =>
    rw [reads_some]
    constructor
    · intro h
      obtain ⟨rfl, rfl⟩ := h
      exact .inr ⟨rfl, rfl, rfl⟩
    · intro h
      rcases h with ⟨_, hw, -⟩ | ⟨-, rfl, rfl⟩
      · exact absurd hw not_leaves_none
      · exact ⟨rfl, rfl⟩
  | some y =>
    refine (reads_map (g := id) fun _ => by rfl).trans ?_
    constructor
    · intro h
      obtain ⟨t, ht, rfl⟩ := h
      exact .inl ⟨y.1, leaves_some.2 rfl, ht⟩
    · intro h
      rcases h with ⟨w, hw, ht⟩ | ⟨hnone, -⟩
      · obtain rfl := leaves_some.1 hw
        exact ⟨t, ht, rfl⟩
      · cases hnone

theorem reads_key? {key : Text} : Reads (key? s) key r ↔ ReadsKey s key r := by
  rw [key?]
  cases hmark : mark? '[' s with
  | none =>
    refine ⟨.inr, fun h => h.resolve_left ?_⟩
    intro h
    obtain ⟨v, t, rfl, -⟩ := h
    exact mark?_eq_none_iff.1 hmark rfl
  | some x =>
    have hs : s = '[' :: x.1 := leaves_mark?.1 (hmark ▸ leaves_some.2 rfl)
    constructor
    · intro h
      cases ht : union? x.1 with
      | none =>
        simp only [ht] at h
        exact absurd h not_reads_none
      | some p =>
        simp only [ht] at h
        obtain ⟨hclose, hkey⟩ := (reads_map_rest fun _ => by rfl).1 h
        refine .inl ⟨x.1, p.1, hs, ?_, hkey.symm⟩
        exact leaves_mark?.1 hclose ▸ .of_eq_some ht
    · intro h
      rcases h with ⟨v, t, hv, ht, rfl⟩ | h
      · obtain rfl := (List.cons.inj (hs.symm.trans hv)).2
        obtain ⟨_, ht⟩ := ht
        simp only [ht]
        exact (reads_map_rest fun _ => by rfl).2 ⟨leaves_mark?.2 rfl, rfl⟩
      · rw [hs, ident?_cons_of_not_isNameStart (by decide)] at h
        exact absurd h not_reads_none

theorem reads_args? : Reads (args? s) ts r ↔ Items ReadsType '>' s ts r := by
  refine reads_iff_items (fun h => Reads.length_lt h) fun {s ts r} => ?_
  have hargs : args? s = (union? (trimStart s)).bind fun p =>
      further? '>' args? p.1 (p.2.ofLe (length_trimStart_le s)) := by
    rw [args?]
    cases union? (trimStart s) <;> rfl
  rw [hargs, reads_bind]
  constructor
  · intro h
    obtain ⟨p, ht, h⟩ := h
    have hmore := reads_further?.1 h
    exact ⟨p.1, p.2.1, .of_eq_some ht, hmore⟩
  · intro h
    obtain ⟨t, v, ⟨hlt, ht⟩, h⟩ := h
    exact ⟨(t, ⟨v, hlt⟩), ht, reads_further?.2 h⟩

theorem reads_params? {ps : List (Text × TypeExpr)} :
    Reads (params? s) ps r ↔ Items ReadsParam ')' s ps r := by
  refine reads_iff_items ReadsParam.length_lt fun {s ps r} => ?_
  have hparams : params? s = (paramName? (trimStart s)).bind fun p =>
      (typed? (p.2.ofLe (length_trimStart_le s))).bind fun q =>
        further? ')' params? (p.1, q.1) q.2 := by
    rw [params?]
    cases paramName? (trimStart s) with
    | none => rfl
    | some p =>
      rw [Option.bind_some, typed?]
      dsimp only
      cases between? ':' (p.2.ofLe (length_trimStart_le s)).1 with
      | none => rfl
      | some y =>
        dsimp only
        cases union? y.1 <;> rfl
  rw [hparams, reads_bind]
  constructor
  · intro h
    obtain ⟨p, hname, h⟩ := h
    obtain ⟨q, ht, h⟩ := reads_bind.1 h
    have htyped := reads_typed?.1 (.of_eq_some ht)
    exact ⟨(p.1, q.1), q.2.1, ⟨p.2.1, .of_eq_some hname, htyped⟩, reads_further?.1 h⟩
  · intro h
    obtain ⟨⟨name, t⟩, v, ⟨w, ⟨hlt, hname⟩, ht⟩, h⟩ := h
    obtain ⟨hltv, ht⟩ := (reads_typed? (x := Rest.ofLe (length_trimStart_le s) ⟨w, hlt⟩)).2 ht
    exact ⟨(name, ⟨w, hlt⟩), hname, reads_bind.2 ⟨(t, ⟨v, hltv⟩), ht, reads_further?.2 h⟩⟩

theorem fields?_eq_bind (s : Text) : fields? s = (key? (trimStart s)).bind fun p =>
    let x := p.2.ofLe (length_trimStart_le s)
    (between? ':' x.1).bind fun y => (union? y.1).bind fun q =>
      further? '}' fields? (p.1, q.1) (x.trans (y.trans q.2)) := by
  rw [fields?, key?]
  cases mark? '[' (trimStart s) with
  | none =>
    dsimp only
    cases ident? (trimStart s) with
    | none => rfl
    | some p =>
      dsimp only [Option.bind_some]
      cases between? ':' (p.2.ofLe (length_trimStart_le s)).1 with
      | none => rfl
      | some y =>
        dsimp only [Option.bind_some]
        cases union? y.1 <;> rfl
  | some x =>
    dsimp only
    cases union? x.1 with
    | none => rfl
    | some q =>
      dsimp only
      cases mark? ']' q.2.1 with
      | none => rfl
      | some z =>
        dsimp only [Option.map_some, Option.bind_some]
        cases between? ':' ((x.trans (q.2.trans z)).ofLe (length_trimStart_le s)).1 with
        | none => rfl
        | some y =>
          dsimp only [Option.bind_some]
          cases union? y.1 <;> rfl

theorem reads_fields? {fs : List (Text × TypeExpr)} :
    Reads (fields? s) fs r ↔ Items ReadsField '}' s fs r := by
  refine reads_iff_items ReadsField.length_lt fun {s fs r} => ?_
  rw [fields?_eq_bind, reads_bind]
  constructor
  · intro h
    obtain ⟨p, hkey, ⟨_, h⟩⟩ := h
    obtain ⟨y, hcolon, h⟩ := Option.bind_eq_some_iff.1 h
    obtain ⟨q, ht, h⟩ := reads_bind.1 ⟨_, h⟩
    have hmore := reads_further?.1 h
    exact ⟨(p.1, q.1), q.2.1, ⟨p.2.1, y.1, reads_key?.1 (.of_eq_some hkey),
      hcolon ▸ leaves_some.2 rfl, .of_eq_some ht⟩, hmore⟩
  · intro h
    obtain ⟨⟨key, t⟩, v, ⟨w, x, hkey, ⟨hltx, hx⟩, ⟨hlt, ht⟩⟩, h⟩ := h
    obtain ⟨hltw, hkey⟩ := reads_key?.2 hkey
    refine ⟨(key, ⟨w, hltw⟩), hkey, ?_⟩
    simp only [Rest.ofLe, hx, ht, Option.bind_some]
    exact reads_further?.2 h

/-! ### Primary types -/

/-- A list that may be empty is taken, up to and with the mark that closes it. -/
def Enclosed {α : Type} (item : Text → α → Text → Prop) (close : Char) (s : Text) (as : List α)
    (r : Text) : Prop :=
  (as = [] ∧ Leaves (closing? close s) r) ∨
    (close ∉ (trimStart s).head? ∧ Items item close s as r)

theorem not_reads_primary?_nil : ¬ Reads (primary? []) t r := by
  rw [primary?]
  exact not_reads_none

theorem reads_primary?_paren : Reads (primary? ('(' :: s)) t r ↔
    ∃ v, Reads (union? (trimStart s)) t v ∧ Leaves (closing? ')' v) r := by
  rw [primary?, mark?_cons_self]
  constructor
  · intro h
    cases ht : union? (trimStart s) with
    | none =>
      simp only [Rest.afterFirst, ht] at h
      exact absurd h not_reads_none
    | some p =>
      simp only [Rest.afterFirst, ht] at h
      obtain ⟨hclose, rfl⟩ := (reads_map_rest fun _ => by rfl).1 h
      exact ⟨p.2.1, .of_eq_some rfl, hclose⟩
  · intro h
    obtain ⟨v, ⟨_, ht⟩, hclose⟩ := h
    simp only [Rest.afterFirst, ht]
    exact (reads_map_rest fun _ => by rfl).2 ⟨hclose, rfl⟩

theorem reads_primary?_brace : Reads (primary? ('{' :: s)) t r ↔
    ∃ fs, table fs = t ∧ Enclosed ReadsField '}' s fs r := by
  have hparen : mark? '(' ('{' :: s) = none := mark?_eq_none_iff.2 (by simp)
  rw [primary?, hparen, mark?_cons_self]
  cases hclose : closing? '}' s with
  | none =>
    simp only [Rest.afterFirst, hclose]
    refine (reads_map (g := table) fun _ => by rfl).trans ?_
    constructor
    · intro h
      obtain ⟨fs, hfs, ht⟩ := h
      exact ⟨fs, ht, .inr ⟨closing?_eq_none_iff.1 hclose, reads_fields?.1 hfs⟩⟩
    · intro h
      obtain ⟨fs, ht, ⟨-, hr⟩ | ⟨-, hfs⟩⟩ := h
      · exact absurd (hclose ▸ hr) not_leaves_none
      · exact ⟨fs, reads_fields?.2 hfs, ht⟩
  | some x =>
    simp only [Rest.afterFirst, hclose]
    refine reads_some.trans ?_
    constructor
    · intro h
      obtain ⟨ht, hr⟩ := h
      exact ⟨[], ht, .inl ⟨rfl, by rw [hclose]; exact leaves_some.2 hr⟩⟩
    · intro h
      obtain ⟨fs, ht, ⟨rfl, hr⟩ | ⟨hnone, -⟩⟩ := h
      · rw [hclose] at hr
        exact ⟨ht, (leaves_some (x := x)).1 hr⟩
      · rw [closing?_eq_none_iff.2 hnone] at hclose
        cases hclose

def named? (s : Text) : Option (TypeExpr × Rest s) :=
  (ident? s).bind fun p =>
    match mark? '(' p.2.1 with
    | some y =>
      if p.1 == "fun".toList then
        match closing? ')' y.1 with
        | some z =>
          some (function [] (result z.1).1, (p.2.trans (y.trans z)).followedBy (result z.1).2)
        | none => (params? y.1).bind fun q =>
          some (function q.1 (result q.2.1).1,
            (p.2.trans (y.trans q.2)).followedBy (result q.2.1).2)
      else some (ofName p.1, p.2)
    | none =>
      match mark? '<' p.2.1 with
      | some y => (args? y.1).map fun q => (container p.1 q.1, p.2.trans (y.trans q.2))
      | none => some (ofName p.1, p.2)

/-- Where neither a group nor a table opens the text, its first character decides. -/
theorem primary?_cons (hparen : c ≠ '(') (hbrace : c ≠ '{') : primary? (c :: s) =
    if isQuote c then string? (c :: s)
    else if isDigit c || c == '-' then number? (c :: s) else named? (c :: s) := by
  have hparen : mark? '(' (c :: s) = none :=
    mark?_eq_none_iff.2 fun h => hparen (Option.some.inj h)
  have hbrace : mark? '{' (c :: s) = none :=
    mark?_eq_none_iff.2 fun h => hbrace (Option.some.inj h)
  rw [primary?, hparen, hbrace]
  dsimp only
  refine if_congr Iff.rfl rfl (if_congr Iff.rfl rfl ?_)
  rw [named?]
  cases ident? (c :: s) with
  | none => rfl
  | some p =>
    dsimp only [Option.bind_some]
    cases mark? '(' p.2.1 with
    | none =>
      dsimp only
      cases mark? '<' p.2.1 <;> rfl
    | some y =>
      refine if_congr Iff.rfl ?_ rfl
      cases closing? ')' y.1 with
      | none => cases params? y.1 <;> rfl
      | some z => rfl

/-- What a function, a container and a name alone have in the text after the name. -/
inductive NamedStep (n : Text) : Text → TypeExpr → Text → Prop
  | function {v w : Text} {ps : List (Text × TypeExpr)} (hfun : n = "fun".toList)
      (hps : Enclosed ReadsParam ')' v ps w) :
      NamedStep n ('(' :: v) (.function ps (result w).1) (result w).2.1
  | container {v r : Text} {ts : List TypeExpr} (hts : Items ReadsType '>' v ts r) :
      NamedStep n ('<' :: v) (.container n ts) r
  | name {r : Text} (hangle : '<' ∉ r.head?) (hparen : '(' ∈ r.head? → n ≠ "fun".toList) :
      NamedStep n r (ofName n) r

theorem namedStep_of_reads (h : Reads (named? s) t r) :
    ∃ n v, Reads (ident? s) n v ∧ NamedStep n v t r := by
  rw [named?] at h
  obtain ⟨p, hname, h⟩ := reads_bind.1 h
  refine ⟨p.1, p.2.1, .of_eq_some hname, ?_⟩
  split at h
  · next y hparen =>
    have hv : p.2.1 = '(' :: y.1 := leaves_mark?.1 (hparen ▸ leaves_some.2 rfl)
    split at h
    · next hfun =>
      rw [hv]
      split at h
      · next z hclose =>
        obtain ⟨rfl, rfl⟩ := reads_some.1 h
        exact .function (eq_of_beq hfun) (.inl ⟨rfl, hclose ▸ leaves_some.2 rfl⟩)
      · next hclose =>
        obtain ⟨q, hps, h⟩ := reads_bind.1 h
        obtain ⟨rfl, rfl⟩ := reads_some.1 h
        exact .function (eq_of_beq hfun)
          (.inr ⟨closing?_eq_none_iff.1 hclose, reads_params?.1 (.of_eq_some hps)⟩)
    · next hfun =>
      obtain ⟨rfl, rfl⟩ := reads_some.1 h
      exact .name (by simp [hv]) fun _ => by simpa using hfun
  · next hparen =>
    split at h
    · next y hangle =>
      obtain ⟨ts, hts, rfl⟩ := (reads_map (g := container p.1) fun _ => by rfl).1 h
      rw [leaves_mark?.1 (hangle ▸ leaves_some.2 rfl : Leaves (mark? '<' p.2.1) y.1)]
      exact .container (reads_args?.1 hts)
    · next hangle =>
      obtain ⟨rfl, rfl⟩ := reads_some.1 h
      exact .name (mark?_eq_none_iff.1 hangle)
        fun h => absurd h (mark?_eq_none_iff.1 hparen)

theorem reads_of_namedStep (hname : Reads (ident? s) n v) (h : NamedStep n v t r) :
    Reads (named? s) t r := by
  obtain ⟨hlt, hname⟩ := hname
  rw [named?, reads_bind]
  refine ⟨_, hname, ?_⟩
  cases h with
  | @function v w ps hfun hps =>
    dsimp only
    rw [mark?_cons_self]
    dsimp only
    rw [if_pos (beq_iff_eq.2 hfun)]
    rcases hps with ⟨rfl, ⟨_, hclose⟩⟩ | ⟨hclose, hps⟩
    · simp only [Rest.afterFirst, hclose]
      exact reads_some.2 ⟨rfl, rfl⟩
    · obtain ⟨_, hps⟩ := reads_params?.2 hps
      simp only [Rest.afterFirst, closing?_eq_none_iff.2 hclose, hps]
      exact reads_some.2 ⟨rfl, rfl⟩
  | @container v r ts hts =>
    have hparen : mark? '(' ('<' :: v) = none := mark?_eq_none_iff.2 (by simp)
    dsimp only
    rw [hparen, mark?_cons_self]
    exact (reads_map (g := container n) fun _ => by rfl).2 ⟨ts, reads_args?.2 hts, rfl⟩
  | name hangle hparen =>
    cases hmark : mark? '(' r with
    | none =>
      simp only [mark?_eq_none_iff.2 hangle]
      exact reads_some.2 ⟨rfl, rfl⟩
    | some y =>
      have hv : r = '(' :: y.1 := leaves_mark?.1 (hmark ▸ leaves_some.2 rfl)
      have hfun : (n == "fun".toList) = false := by simpa using hparen (hv ▸ rfl)
      simp only [hfun]
      exact reads_some.2 ⟨rfl, rfl⟩

theorem reads_named? :
    Reads (named? s) t r ↔ ∃ n v, Reads (ident? s) n v ∧ NamedStep n v t r := by
  constructor
  · exact namedStep_of_reads
  · intro h
    obtain ⟨n, v, hname, hstep⟩ := h
    exact reads_of_namedStep hname hstep

/-- The forms of a primary type. -/
inductive PrimaryStep : Text → TypeExpr → Text → Prop
  | group {s v r : Text} {t : TypeExpr} (ht : Reads (union? (trimStart s)) t v)
      (hclose : Leaves (closing? ')' v) r) : PrimaryStep ('(' :: s) t r
  | table {s r : Text} {fs : List (Text × TypeExpr)} (hfs : Enclosed ReadsField '}' s fs r) :
      PrimaryStep ('{' :: s) (.table fs) r
  | string {q : Char} {s r : Text} {t : TypeExpr} (hq : isQuote q)
      (ht : Reads (string? (q :: s)) t r) : PrimaryStep (q :: s) t r
  | number {c : Char} {s r : Text} {t : TypeExpr} (hc : isDigit c ∨ c = '-')
      (ht : Reads (number? (c :: s)) t r) : PrimaryStep (c :: s) t r
  | named {s v n r : Text} {t : TypeExpr} (hname : Reads (ident? s) n v)
      (hstep : NamedStep n v t r) : PrimaryStep s t r

theorem exists_cons_of_reads_ident? (h : Reads (ident? s) n r) :
    ∃ c v, s = c :: v ∧ isNameStart c := by
  obtain ⟨hn, rfl⟩ := ident_of_reads h
  obtain ⟨c, v, rfl, hc⟩ := hn.exists_cons
  exact ⟨c, v ++ r, rfl, hc⟩

theorem reads_primary? : Reads (primary? s) t r ↔ PrimaryStep s t r := by
  constructor
  · intro h
    cases s with
    | nil => exact absurd h not_reads_primary?_nil
    | cons c s =>
      by_cases hparen : c = '('
      · subst hparen
        obtain ⟨v, ht, hclose⟩ := reads_primary?_paren.1 h
        exact .group ht hclose
      · by_cases hbrace : c = '{'
        · subst hbrace
          obtain ⟨fs, rfl, hfs⟩ := reads_primary?_brace.1 h
          exact .table hfs
        · rw [primary?_cons hparen hbrace] at h
          split at h
          · next hq => exact .string hq h
          · split at h
            · next hc => exact .number (by simpa using hc) h
            · obtain ⟨n, v, hname, hstep⟩ := reads_named?.1 h
              exact .named hname hstep
  · intro h
    cases h with
    | group ht hclose => exact reads_primary?_paren.2 ⟨_, ht, hclose⟩
    | table hfs => exact reads_primary?_brace.2 ⟨_, rfl, hfs⟩
    | string hq ht =>
      rw [primary?_cons (ne_of_test hq rfl) (ne_of_test hq rfl), if_pos hq]
      exact ht
    | @number c s _ _ hc ht =>
      have hq : isQuote c = false := by
        rcases hc with hc | rfl
        · exact not_isQuote_of_isDottedChar (isDottedChar_of_isDigit hc)
        · rfl
      have hne : c ≠ '(' ∧ c ≠ '{' := by
        rcases hc with hc | rfl
        · exact ⟨ne_of_test hc rfl, ne_of_test hc rfl⟩
        · decide
      rw [primary?_cons hne.1 hne.2, hq, if_neg Bool.false_ne_true, if_pos (by simpa using hc)]
      exact ht
    | named hname hstep =>
      obtain ⟨c, s, rfl, hc⟩ := exists_cons_of_reads_ident? hname
      have hq := not_isQuote_of_isDottedChar (isDottedChar_of_isNameStart hc)
      have hsign : c ≠ '-' := ne_of_test hc rfl
      rw [primary?_cons (ne_of_test hc rfl) (ne_of_test hc rfl), hq, if_neg Bool.false_ne_true,
        if_neg (by simp [not_isDigit_of_isNameStart hc, hsign])]
      exact reads_named?.2 ⟨_, _, hname, hstep⟩

/-! ### Types in a text -/

/-- The type at the front of a text, or its first word where there is none. -/
theorem reads_leading? : Reads (leading? s) t r ↔ Reads (union? (trimStart s)) t r ∨
    ((∀ u v, ¬ Reads (union? (trimStart s)) u v) ∧ trimStart s ≠ [] ∧
      .named ((trimStart s).takeWhile (!isSpace ·)) = t ∧
      (trimStart s).dropWhile (!isSpace ·) = r) := by
  rw [leading?]
  cases hunion : union? (trimStart s) with
  | some p =>
    rw [reads_some]
    constructor
    · intro h
      exact .inl (reads_some.2 h)
    · intro h
      rcases h with h | ⟨hnone, -⟩
      · have hp := reads_some.1 h
        exact hp
      · exact absurd (.of_eq_some rfl) (hnone p.1 p.2.1)
  | none =>
    refine Iff.trans ?_ (or_iff_right not_reads_none).symm
    refine Iff.trans ?_ (and_iff_right fun _ _ => not_reads_none).symm
    dsimp only
    split
    · next hnil _ => exact iff_of_false not_reads_none fun h => h.1 hnil
    · next _ c v _ hcons _ =>
      have hc : isSpace c = false :=
        not_isSpace_of_mem_head?_trimStart (s := s) (by rw [hcons]; rfl)
      have hdrop : (v.takeWhile (!isSpace ·) ++ v.dropWhile (!isSpace ·)).drop
          (v.takeWhile (!isSpace ·)).length = v.dropWhile (!isSpace ·) := List.drop_left
      rw [List.takeWhile_append_dropWhile] at hdrop
      rw [hcons, List.takeWhile_cons_of_pos (by simp [hc]),
        List.dropWhile_cons_of_pos (by simp [hc]), ← hdrop, reads_some]
      exact (and_iff_right (List.cons_ne_nil c v)).symm

/-- Only a blank text opens with no type. -/
theorem leading?_eq_none_iff : leading? s = none ↔ Blank s := by
  constructor
  · intro h
    have hnil : trimStart s = [] := by
      by_contra hne
      have hunion : ∀ u v, ¬ Reads (union? (trimStart s)) u v := by
        intro u v hu
        have hread := reads_leading?.2 (.inl hu)
        exact not_reads_none (h ▸ hread)
      have hread := reads_leading?.2 (.inr ⟨hunion, hne, rfl, rfl⟩)
      exact not_reads_none (h ▸ hread)
    obtain ⟨w, hw, hs⟩ := exists_blank_append_trimStart s
    rwa [hs, hnil, List.append_nil]
  · intro h
    have hnil : trimStart s = [] := by
      rw [← List.append_nil s]
      exact trimStart_append_of_blank h
    rw [Option.eq_none_iff_forall_ne_some]
    intro p hp
    rcases reads_leading?.1 (.of_eq_some hp) with hu | ⟨-, hne, -⟩
    · have hlt := hu.length_lt
      rw [hnil] at hlt
      exact absurd hlt (Nat.not_lt_zero _)
    · exact hne hnil

theorem parse_cases (s : Text) :
    (∃ t r, Reads (leading? (trim s)) t r ∧ Blank r ∧ parse s = t) ∨
      ((∀ t r, Reads (leading? (trim s)) t r → ¬ Blank r) ∧ parse s = .named (trim s)) := by
  rw [parse]
  cases hleading : leading? (trim s) with
  | none => exact .inr ⟨fun t r h => absurd h not_reads_none, rfl⟩
  | some p =>
    by_cases hblank : p.2.1.all isSpace
    · exact .inl ⟨p.1, p.2.1, .of_eq_some rfl, List.all_eq_true.1 hblank, if_pos hblank⟩
    · refine .inr ⟨?_, if_neg hblank⟩
      intro t r h hr
      obtain ⟨-, rfl⟩ := reads_some.1 h
      exact hblank (List.all_eq_true.2 hr)

end LuaDocs.TypeExpr
