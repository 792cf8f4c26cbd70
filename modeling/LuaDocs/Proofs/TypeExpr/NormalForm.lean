import LuaDocs.Proofs.TypeExpr.Canonical
import LuaDocs.Proofs.TypeExpr.Naming

/-!
# The normal form of a printed type

A type need not be read back as it was printed: a union inside a union loses its parentheses, and
the alternatives after a function with a result become alternatives of the result. `settle` makes
both changes, `flatten` only the first. Reading what was printed gives the settled type, which
prints the same again, so a printed type is in normal form after one round.
-/

namespace LuaDocs.TypeExpr

open Text

variable {joined : List TypeExpr → Prop} {s r : Text} {t u : TypeExpr} {ts us : List TypeExpr}

/-! ### Two ways to put a union together -/

def parts : TypeExpr → List TypeExpr
  | union ts => ts
  | t => [t]

mutual

/-- The type that the written forms of two types with a `|` between them stand for. -/
def either : TypeExpr → TypeExpr → TypeExpr
  | function ps (r :: rs), u => function ps (either r u :: rs)
  | union ts, u => union (eitherLast ts u)
  | t, u => union (t :: parts u)

/-- The alternatives that remain when the last one takes a further type. -/
def eitherLast : List TypeExpr → TypeExpr → List TypeExpr
  | [], u => parts u
  | [t], u => parts (either t u)
  | t :: v :: ts, u => t :: eitherLast (v :: ts) u

end

/-- The type that the written forms of several types with a `|` between each two stand for. -/
def oneOf : List TypeExpr → TypeExpr
  | [] => union []
  | [t] => t
  | t :: u :: ts => either t (oneOf (u :: ts))

section

variable (f : List TypeExpr → TypeExpr)

mutual

/-- The type with every union inside it put together anew by `f`, inner unions first. -/
def rejoin : TypeExpr → TypeExpr
  | array t => array (rejoin t)
  | optional t => optional (rejoin t)
  | union ts => f (rejoinAll ts)
  | container n ts => container n (rejoinAll ts)
  | function ps rs => function (rejoinFields ps) (rejoinAll rs)
  | table fs => table (rejoinFields fs)
  | t => t

def rejoinAll : List TypeExpr → List TypeExpr
  | [] => []
  | t :: ts => rejoin t :: rejoinAll ts

def rejoinFields : List (Text × TypeExpr) → List (Text × TypeExpr)
  | [] => []
  | (k, t) :: fs => (k, rejoin t) :: rejoinFields fs

end

end

/-- The type as its written form is read. -/
def settle : TypeExpr → TypeExpr :=
  rejoin oneOf

def flatten : TypeExpr → TypeExpr :=
  rejoin fun ts => union (ts.flatMap parts)

theorem rejoinAll_eq_map (f : List TypeExpr → TypeExpr) (ts : List TypeExpr) :
    rejoinAll f ts = ts.map (rejoin f) := by
  induction ts with
  | nil => rfl
  | cons t ts ih => rw [rejoinAll, ih, List.map_cons]

theorem rejoinFields_eq_map (f : List TypeExpr → TypeExpr) (fs : List (Text × TypeExpr)) :
    rejoinFields f fs = fs.map fun p => (p.1, rejoin f p.2) := by
  induction fs with
  | nil => rfl
  | cons p fs ih => rw [rejoinFields, ih, List.map_cons]

/-! ### Written forms -/

theorem print_union_singleton (t : TypeExpr) : (union [t]).print = t.print := by
  rw [print, printAll_eq_map]
  exact join_singleton _

theorem print_union_cons (hts : ts ≠ []) :
    (union (t :: ts)).print = t.print ++ ("|".toList ++ (union ts).print) := by
  obtain ⟨u, ts, rfl⟩ := List.exists_cons_of_ne_nil hts
  simp only [print, printAll_eq_map]
  exact join_cons_cons _ _ _ _

theorem print_union_append (hts : ts ≠ []) (hus : us ≠ []) : (union (ts ++ us)).print =
    (union ts).print ++ ("|".toList ++ (union us).print) := by
  induction ts with
  | nil => exact absurd rfl hts
  | cons t ts ih =>
    cases ts with
    | nil => rw [List.singleton_append, print_union_cons hus, print_union_singleton]
    | cons v ts =>
      rw [List.cons_append, print_union_cons (by simp), print_union_cons (List.cons_ne_nil v ts),
        ih (List.cons_ne_nil v ts)]
      simp only [List.append_assoc]

theorem print_union_parts (t : TypeExpr) : (union (parts t)).print = t.print := by
  cases t with
  | union ts => rfl
  | _ => exact print_union_singleton _

theorem printAll_map_congr {g : TypeExpr → TypeExpr} (h : ∀ t ∈ ts, (g t).print = t.print) :
    printAll (ts.map g) = printAll ts := by
  rw [printAll_eq_map, printAll_eq_map, List.map_map]
  exact List.map_congr_left h

theorem printFields_map_congr {g : TypeExpr → TypeExpr} {fs : List (Text × TypeExpr)}
    (h : ∀ p ∈ fs, (g p.2).print = p.2.print) :
    printFields (fs.map fun p => (p.1, g p.2)) = printFields fs := by
  rw [printFields_eq_map, printFields_eq_map, List.map_map]
  refine List.map_congr_left fun p hp => ?_
  simp [printField, h p hp]

/-! ### Putting unions together anew -/

theorem ne_nil_of_several (hts : 2 ≤ ts.length) : ts ≠ [] :=
  List.ne_nil_of_length_pos (Nat.lt_of_lt_of_le Nat.zero_lt_two hts)

/-- The alternatives of a union are put together as `joined` asks, and print as the union does. -/
def Rejoins (joined : List TypeExpr → Prop) (f : List TypeExpr → TypeExpr) : Prop :=
  ∀ ts, Several ts → (∀ t ∈ ts, Formed joined t) →
    Formed joined (f ts) ∧ (f ts).print = (union ts).print ∧ (f ts).needsParens = true

section

variable {f : List TypeExpr → TypeExpr}

/-- Putting unions together anew changes the shape of a type and not its written form. -/
theorem rejoin_spec (hf : Rejoins joined f) (ht : WellFormed t) :
    Formed joined (rejoin f t) ∧ (rejoin f t).print = t.print ∧
      (rejoin f t).needsParens = t.needsParens := by
  induction ht with
  | builtin b => exact ⟨.builtin b, rfl, rfl⟩
  | named hname hbuiltin htrue hfalse => exact ⟨.named hname hbuiltin htrue hfalse, rfl, rfl⟩
  | truth hname => exact ⟨.truth hname, rfl, rfl⟩
  | number hw => exact ⟨.number hw, rfl, rfl⟩
  | quoted hw => exact ⟨.quoted hw, rfl, rfl⟩
  | array _ ih =>
    refine ⟨.array ih.1, ?_, rfl⟩
    rw [rejoin, print, print, operand, operand, ih.2.1, ih.2.2]
  | optional _ ih =>
    refine ⟨.optional ih.1, ?_, rfl⟩
    rw [rejoin, print, print, operand, operand, ih.2.1, ih.2.2]
  | @union ts hts _ ih =>
    have hseveral : Several (ts.map (rejoin f)) := by
      rw [Several, List.length_map]
      exact hts
    obtain ⟨hformed, hprint, hparens⟩ :=
      hf (ts.map (rejoin f)) hseveral (List.forall_mem_map.2 fun t ht => (ih t ht).1)
    rw [rejoin, rejoinAll_eq_map]
    refine ⟨hformed, ?_, hparens⟩
    rw [hprint, print, print, printAll_map_congr fun t ht => (ih t ht).2.1]
  | @container n ts hname hne _ ih =>
    rw [rejoin, rejoinAll_eq_map]
    refine ⟨.container hname (by simpa using hne)
      (List.forall_mem_map.2 fun t ht => (ih t ht).1), ?_, rfl⟩
    rw [print, print, printAll_map_congr fun t ht => (ih t ht).2.1]
  | @function ps rs hnames _ hlength _ ihps ihrs =>
    rw [rejoin, rejoinAll_eq_map, rejoinFields_eq_map]
    refine ⟨.function (List.forall_mem_map.2 hnames)
      (List.forall_mem_map.2 fun p hp => (ihps p hp).1) (by simpa using hlength)
      (List.forall_mem_map.2 fun t ht => (ihrs t ht).1), ?_, rfl⟩
    rw [print, print, printFields_map_congr fun p hp => (ihps p hp).2.1,
      printAll_map_congr fun t ht => (ihrs t ht).2.1]
  | @table fs ks hkeys _ _ ihks ihfs =>
    rw [rejoin, rejoinFields_eq_map]
    have hkey : ∀ p ∈ fs, Ident p.1 ∨ ∃ k ∈ ks.map (rejoin f), p.1 = bracketed k := by
      intro p hp
      refine (hkeys p hp).imp_right ?_
      intro hbracketed
      obtain ⟨k, hk, hpk⟩ := hbracketed
      refine ⟨rejoin f k, List.mem_map_of_mem hk, ?_⟩
      rw [hpk, bracketed, bracketed, (ihks k hk).2.1]
    refine ⟨.table (List.forall_mem_map.2 hkey)
      (List.forall_mem_map.2 fun k hk => (ihks k hk).1)
      (List.forall_mem_map.2 fun p hp => (ihfs p hp).1), ?_, rfl⟩
    have hprint := printFields_map_congr fun p hp => (ihfs p hp).2.1
    cases fs with
    | nil => rfl
    | cons p fs =>
      rw [List.map_cons] at hprint ⊢
      rw [print, print, hprint]

/-- Where `f` puts together nothing but the union, a type stays as it is. -/
theorem rejoin_eq_self (hf : ∀ ts, joined ts → f ts = union ts) (ht : Formed joined t) :
    rejoin f t = t := by
  have hmap : ∀ {ts : List TypeExpr}, (∀ t ∈ ts, rejoin f t = t) → rejoinAll f ts = ts := by
    intro ts hts
    rw [rejoinAll_eq_map, List.map_congr_left hts, List.map_id']
  have hfields : ∀ {fs : List (Text × TypeExpr)}, (∀ p ∈ fs, rejoin f p.2 = p.2) →
      rejoinFields f fs = fs := by
    intro fs hfs
    rw [rejoinFields_eq_map]
    conv_rhs => rw [← List.map_id' fs]
    exact List.map_congr_left fun p hp => by rw [hfs p hp]
  induction ht with
  | builtin | named | truth | number | quoted => rfl
  | array _ ih => rw [rejoin, ih]
  | optional _ ih => rw [rejoin, ih]
  | union hjoined _ ih => rw [rejoin, hmap ih, hf _ hjoined]
  | container _ _ _ ih => rw [rejoin, hmap ih]
  | function _ _ _ _ ihps ihrs => rw [rejoin, hfields ihps, hmap ihrs]
  | table _ _ _ _ ihfs => rw [rejoin, hfields ihfs]

end

/-! ### Alternatives -/

def Spread (ts : List TypeExpr) : Prop :=
  2 ≤ ts.length ∧ ∀ t ∈ ts, t.isUnion = false

/-- No alternative but the last is a function with a result. -/
def Unabsorbed (ts : List TypeExpr) : Prop :=
  ∀ t ∈ ts.dropLast, t.hasResult = false

theorem Separate.spread (h : Separate ts) : Spread ts :=
  ⟨h.1, h.2.1⟩

theorem Separate.unabsorbed (h : Separate ts) : Unabsorbed ts :=
  h.2.2

theorem Unabsorbed.cons (ht : t.hasResult = false) (hts : Unabsorbed ts) :
    Unabsorbed (t :: ts) := by
  cases ts with
  | nil => exact nofun
  | cons u ts =>
    rw [Unabsorbed, List.dropLast_cons_cons]
    exact List.forall_mem_cons.2 ⟨ht, hts⟩

theorem parts_eq_singleton (h : t.isUnion = false) : parts t = [t] := by
  cases t with
  | union => cases h
  | _ => rfl

theorem not_isUnion_of_mem_parts (hjoined : ∀ ts, joined ts → Spread ts) (ht : Formed joined t)
    (hu : u ∈ parts t) : u.isUnion = false := by
  cases ht with
  | union hts _ => exact (hjoined _ hts).2 u hu
  | _ =>
    obtain rfl := List.mem_singleton.1 hu
    rfl

theorem formed_of_mem_parts (ht : Formed joined t) (hu : u ∈ parts t) : Formed joined u := by
  cases hunion : t.isUnion with
  | false =>
    rw [parts_eq_singleton hunion] at hu
    obtain rfl := List.mem_singleton.1 hu
    exact ht
  | true =>
    cases ht with
    | union _ hts => exact hts u hu
    | _ => cases hunion

theorem parts_ne_nil (hjoined : ∀ ts, joined ts → Spread ts) (ht : Formed joined t) :
    parts t ≠ [] := by
  cases ht with
  | union hts _ => exact ne_nil_of_several (hjoined _ hts).1
  | _ => exact List.cons_ne_nil _ _

theorem unabsorbed_parts (ht : Canonical t) : Unabsorbed (parts t) := by
  cases ht with
  | union hts _ => exact hts.unabsorbed
  | _ => exact nofun

/-! ### Flattening -/

theorem print_union_flatMap_parts (hts : ts ≠ []) (hne : ∀ t ∈ ts, parts t ≠ []) :
    ts.flatMap parts ≠ [] ∧ (union (ts.flatMap parts)).print = (union ts).print := by
  induction ts with
  | nil => exact absurd rfl hts
  | cons t ts ih =>
    obtain ⟨ht, hne⟩ := List.forall_mem_cons.1 hne
    rw [List.flatMap_cons]
    cases ts with
    | nil =>
      rw [List.flatMap_nil, List.append_nil, print_union_parts, print_union_singleton]
      exact ⟨ht, rfl⟩
    | cons u ts =>
      obtain ⟨hrest, hprint⟩ := ih (List.cons_ne_nil u ts) hne
      refine ⟨List.append_ne_nil_of_left_ne_nil ht _, ?_⟩
      rw [print_union_append ht hrest, print_union_parts, hprint,
        print_union_cons (List.cons_ne_nil u ts)]

theorem length_le_length_flatMap_parts (hne : ∀ t ∈ ts, parts t ≠ []) :
    ts.length ≤ (ts.flatMap parts).length := by
  induction ts with
  | nil => exact Nat.le_refl 0
  | cons t ts ih =>
    obtain ⟨ht, hne⟩ := List.forall_mem_cons.1 hne
    have hpos := List.length_pos_iff.2 ht
    have hle := ih hne
    rw [List.flatMap_cons, List.length_cons, List.length_append]
    omega

theorem rejoins_flatten : Rejoins Spread fun ts => union (ts.flatMap parts) := by
  intro ts hts hformed
  have hne : ∀ t ∈ ts, parts t ≠ [] := fun t ht => parts_ne_nil (fun _ h => h) (hformed t ht)
  have hnil : ts ≠ [] := ne_nil_of_several hts
  refine ⟨.union ⟨hts.trans (length_le_length_flatMap_parts hne), ?_⟩ ?_,
    (print_union_flatMap_parts hnil hne).2, rfl⟩
  · intro u hu
    obtain ⟨t, ht, hu⟩ := List.mem_flatMap.1 hu
    exact not_isUnion_of_mem_parts (fun _ h => h) (hformed t ht) hu
  · intro u hu
    obtain ⟨t, ht, hu⟩ := List.mem_flatMap.1 hu
    exact formed_of_mem_parts (hformed t ht) hu

theorem flatten_spec (ht : WellFormed t) :
    Formed Spread (flatten t) ∧ (flatten t).print = t.print := by
  obtain ⟨hformed, hprint, -⟩ := rejoin_spec rejoins_flatten ht
  exact ⟨hformed, hprint⟩

theorem Canonical.flatten_eq (ht : Canonical t) : flatten t = t := by
  refine rejoin_eq_self (fun ts hts => congrArg union ?_) ht
  have hparts : ∀ t ∈ ts, parts t = [t] := fun t ht => parts_eq_singleton (hts.2.1 t ht)
  rw [List.flatMap_congr hparts, List.flatMap_singleton']

/-! ### Settling -/

theorem either_of_not_hasResult (hunion : t.isUnion = false) (hresult : t.hasResult = false) :
    either t u = union (t :: parts u) := by
  cases t with
  | union => cases hunion
  | function ps rs =>
    cases rs with
    | nil => rfl
    | cons => cases hresult
  | _ => rfl

theorem needsParens_either (t u : TypeExpr) : (either t u).needsParens = true := by
  cases t with
  | function ps rs => cases rs <;> rfl
  | _ => rfl

/-- From two canonical types with a `|` between them a canonical type results that prints so. -/
def Joins (t u v : TypeExpr) : Prop :=
  Canonical v ∧ v.print = t.print ++ ("|".toList ++ u.print)

theorem joins_either_of_not_hasResult (ht : Canonical t) (hu : Canonical u)
    (hunion : t.isUnion = false) (hresult : t.hasResult = false) : Joins t u (either t u) := by
  have hne : parts u ≠ [] := parts_ne_nil (fun _ => Separate.spread) hu
  have hlength : 2 ≤ (t :: parts u).length := Nat.succ_le_succ (List.length_pos_iff.2 hne)
  rw [either_of_not_hasResult hunion hresult]
  refine ⟨.union ⟨hlength, ?_, (unabsorbed_parts hu).cons hresult⟩ ?_, ?_⟩
  · exact List.forall_mem_cons.2
      ⟨hunion, fun v hv => not_isUnion_of_mem_parts (fun _ => Separate.spread) hu hv⟩
  · exact List.forall_mem_cons.2 ⟨ht, fun v hv => formed_of_mem_parts hu hv⟩
  · rw [print_union_cons hne, print_union_parts]

theorem separate_eitherLast (hts : ts ≠ []) (hunion : ∀ t ∈ ts, t.isUnion = false)
    (hcanonical : ∀ t ∈ ts, Canonical t) (hresult : Unabsorbed ts)
    (heither : ∀ t ∈ ts, Joins t u (either t u)) :
    (ts.length ≤ (eitherLast ts u).length ∧ (∀ v ∈ eitherLast ts u, v.isUnion = false) ∧
      Unabsorbed (eitherLast ts u)) ∧ (∀ v ∈ eitherLast ts u, Canonical v) ∧
      (union (eitherLast ts u)).print = (union ts).print ++ ("|".toList ++ u.print) := by
  induction ts with
  | nil => exact absurd rfl hts
  | cons t ts ih =>
    obtain ⟨ht, hcanonical'⟩ := List.forall_mem_cons.1 hcanonical
    obtain ⟨⟨hlast, hprint⟩, heither'⟩ := List.forall_mem_cons.1 heither
    obtain ⟨htunion, hunion'⟩ := List.forall_mem_cons.1 hunion
    cases ts with
    | nil =>
      have hne := parts_ne_nil (fun _ => Separate.spread) hlast
      rw [eitherLast, print_union_parts, print_union_singleton]
      exact ⟨⟨List.length_pos_iff.2 hne,
        fun v hv => not_isUnion_of_mem_parts (fun _ => Separate.spread) hlast hv,
        unabsorbed_parts hlast⟩, fun v hv => formed_of_mem_parts hlast hv, hprint⟩
    | cons v ts =>
      rw [Unabsorbed, List.dropLast_cons_cons] at hresult
      obtain ⟨htresult, hresult'⟩ := List.forall_mem_cons.1 hresult
      obtain ⟨⟨hlength, hnone, hrest⟩, hall, hrestPrint⟩ :=
        ih (List.cons_ne_nil v ts) hunion' hcanonical' hresult' heither'
      have hne : eitherLast (v :: ts) u ≠ [] :=
        List.ne_nil_of_length_pos (Nat.lt_of_lt_of_le (Nat.succ_pos _) hlength)
      rw [eitherLast]
      refine ⟨⟨Nat.succ_le_succ hlength, List.forall_mem_cons.2 ⟨htunion, hnone⟩,
        hrest.cons htresult⟩, List.forall_mem_cons.2 ⟨ht, hall⟩, ?_⟩
      rw [print_union_cons hne, hrestPrint, print_union_cons (List.cons_ne_nil v ts)]
      simp only [List.append_assoc]

theorem joins_either (ht : Canonical t) (hu : Canonical u) : Joins t u (either t u) := by
  induction ht with
  | builtin b => exact joins_either_of_not_hasResult (.builtin b) hu rfl rfl
  | named hname hbuiltin htrue hfalse =>
    exact joins_either_of_not_hasResult (.named hname hbuiltin htrue hfalse) hu rfl rfl
  | truth hname => exact joins_either_of_not_hasResult (.truth hname) hu rfl rfl
  | number hw => exact joins_either_of_not_hasResult (.number hw) hu rfl rfl
  | quoted hw => exact joins_either_of_not_hasResult (.quoted hw) hu rfl rfl
  | array ht _ => exact joins_either_of_not_hasResult (.array ht) hu rfl rfl
  | optional ht _ => exact joins_either_of_not_hasResult (.optional ht) hu rfl rfl
  | union hjoined hts ih =>
    obtain ⟨hlength, hunion, hresult⟩ := hjoined
    obtain ⟨⟨hlength', hunion', hresult'⟩, hall, hprint⟩ :=
      separate_eitherLast (ne_nil_of_several hlength) hunion hts hresult ih
    exact ⟨.union ⟨hlength.trans hlength', hunion', hresult'⟩ hall, hprint⟩
  | container hname hne hts _ =>
    exact joins_either_of_not_hasResult (.container hname hne hts) hu rfl rfl
  | @function ps rs hnames hps hlength hrs _ ihrs =>
    match rs, hlength with
    | [], _ =>
      exact joins_either_of_not_hasResult (.function hnames hps (Nat.zero_le 1) hrs) hu rfl rfl
    | [r], _ =>
      -- Only here does the second type end up inside the first.
      obtain ⟨hcanonical, hprint⟩ := ihrs r List.mem_cons_self
      rw [either]
      refine ⟨.function hnames hps (Nat.le_refl 1) (List.forall_mem_singleton.2 hcanonical), ?_⟩
      simp only [print, printAll, join_singleton, hprint, List.append_assoc]
  | table hkeys hks hfs _ _ =>
    exact joins_either_of_not_hasResult (.table hkeys hks hfs) hu rfl rfl

theorem rejoins_settle : Rejoins Separate oneOf := by
  intro ts hts hformed
  have hspec : ∀ {t ts}, (∀ v ∈ t :: ts, Canonical v) →
      Canonical (oneOf (t :: ts)) ∧ (oneOf (t :: ts)).print = (union (t :: ts)).print := by
    intro t ts hformed
    induction ts generalizing t with
    | nil => exact ⟨hformed t List.mem_cons_self, (print_union_singleton t).symm⟩
    | cons u ts ih =>
      obtain ⟨ht, hts⟩ := List.forall_mem_cons.1 hformed
      obtain ⟨hcanonical, hprint⟩ := ih hts
      obtain ⟨heither, hbar⟩ := joins_either ht hcanonical
      refine ⟨heither, ?_⟩
      rw [oneOf, hbar, hprint, print_union_cons (List.cons_ne_nil u ts)]
  match ts, hts with
  | t :: u :: ts, _ =>
    obtain ⟨hcanonical, hprint⟩ := hspec hformed
    exact ⟨hcanonical, hprint, needsParens_either t (oneOf (u :: ts))⟩

theorem settle_spec (ht : WellFormed t) : Canonical (settle t) ∧ (settle t).print = t.print := by
  obtain ⟨hcanonical, hprint, -⟩ := rejoin_spec rejoins_settle ht
  exact ⟨hcanonical, hprint⟩

/-! ### Reading printed types again -/

theorem WellFormed.parse_print (ht : WellFormed t) : parse t.print = settle t := by
  obtain ⟨hcanonical, hprint⟩ := settle_spec ht
  rw [← hprint, hcanonical.parse_print]

/-- What a whole text is read as: a well-formed type, or the text itself as a name. -/
theorem wellFormed_or_opaque (s : Text) : WellFormed (parse s) ∨
    (parse s = named (trim s) ∧ parse (trim s) = named (trim s)) := by
  rcases parse_spec s with h | ⟨hnot, h⟩
  · exact .inl (union_sound h).2
  · rw [← trim_trim] at hnot
    have htrim := parse_eq_named hnot
    rw [trim_trim] at htrim
    exact .inr ⟨h, htrim⟩

/-- Reading the written form of a type that was read gives the settled type. -/
theorem parse_print_parse (s : Text) : parse (parse s).print = settle (parse s) := by
  rcases wellFormed_or_opaque s with h | ⟨h, htrim⟩
  · exact h.parse_print
  · rw [h]
    exact htrim

theorem print_settle_parse (s : Text) : (settle (parse s)).print = (parse s).print := by
  rcases wellFormed_or_opaque s with h | ⟨h, -⟩
  · exact (settle_spec h).2
  · rw [h]
    rfl

/-- A word that is taken whole because no type opens the text is no type on its own either. -/
theorem parse_word (hnone : ∀ t r, ¬ Reads (union? (trimStart s)) t r) (hne : trimStart s ≠ []) :
    parse ((trimStart s).takeWhile (!isSpace ·)) =
      named ((trimStart s).takeWhile (!isSpace ·)) := by
  obtain ⟨c, v, hs⟩ := List.exists_cons_of_ne_nil hne
  have hc : isSpace c = false := not_isSpace_of_mem_head?_trimStart (s := s) (by rw [hs]; rfl)
  have hsplit := List.takeWhile_append_dropWhile (p := (!isSpace ·)) (l := trimStart s)
  have hboundary : Boundary ((trimStart s).dropWhile (!isSpace ·)) := by
    refine boundary_of_isSpace fun d hd => ?_
    have hhead := List.head?_dropWhile_not (!isSpace ·) (trimStart s)
    rw [Option.mem_def.1 hd] at hhead
    simpa using hhead
  have hsolid : Solid ((trimStart s).takeWhile (!isSpace ·)) := by
    refine solid_of_forall ?_ fun d hd => by simpa using List.mem_takeWhile_imp hd
    rw [hs, List.takeWhile_cons_of_pos (by simp [hc])]
    exact List.cons_ne_nil _ _
  -- A derivable word would have opened the whole text as well: a blank or the end follows it.
  rcases parse_spec ((trimStart s).takeWhile (!isSpace ·)) with h | ⟨-, h⟩
  · rw [hsolid.trim_eq] at h
    obtain ⟨t, r, ht, -⟩ := (reads_whole_iff.1 ⟨_, h⟩).accepted _ hboundary
    rw [hsplit] at ht
    exact absurd ht (hnone t r)
  · rwa [hsolid.trim_eq] at h

theorem print_parse_print_of_reads_leading? (h : Reads (leading? s) t r) :
    (parse t.print).print = t.print := by
  rcases reads_leading?.1 h with h | ⟨hnone, hne, rfl, -⟩
  · have hformed := (union_sound h).2
    rw [hformed.parse_print, (settle_spec hformed).2]
  · rw [print, parse_word hnone hne, print]

/-- A printed type is in normal form: reading it and printing it once more changes nothing, whether
the type was a whole text or stood at the front of one. -/
theorem print_parse_print (s : Text) : (parse (parse s).print).print = (parse s).print ∧
    (leading? s).map (fun p => (parse p.1.print).print) = (leading? s).map fun p => p.1.print := by
  refine ⟨?_, ?_⟩
  · rw [parse_print_parse, print_settle_parse]
  · cases h : leading? s with
    | none => rfl
    | some p => exact congrArg some (print_parse_print_of_reads_leading? (.of_eq_some h))

/-! ### Types that print alike -/

/-- In no union inside the type would a function take the alternatives after it for its result. -/
def KeepsAlternatives (t : TypeExpr) : Prop :=
  ∀ ts, union ts ∈ t.subterms → Unabsorbed ts

theorem Canonical.keepsAlternatives (ht : Canonical t) : KeepsAlternatives t := by
  induction ht with
  | builtin | named | truth | number | quoted => exact fun ts h => by simp [subterms] at h
  | array _ ih => exact fun ts h => ih ts (by simpa [subterms] using h)
  | optional _ ih => exact fun ts h => ih ts (by simpa [subterms] using h)
  | union hjoined _ ih =>
    intro ts h
    rw [subterms, List.mem_cons, mem_subtermsAll] at h
    rcases h with h | ⟨u, hu, h⟩
    · obtain rfl := TypeExpr.union.inj h
      exact hjoined.unabsorbed
    · exact ih u hu ts h
  | container _ _ _ ih =>
    intro ts h
    rw [subterms, List.mem_cons, mem_subtermsAll] at h
    obtain ⟨u, hu, h⟩ := h.resolve_left (by simp)
    exact ih u hu ts h
  | function _ _ _ _ ihps ihrs =>
    intro ts h
    rw [subterms, List.mem_cons, List.mem_append, mem_subtermsFields, mem_subtermsAll] at h
    rcases h.resolve_left (by simp) with ⟨p, hp, h⟩ | ⟨u, hu, h⟩
    · exact ihps p hp ts h
    · exact ihrs u hu ts h
  | table _ _ _ _ ihfs =>
    intro ts h
    rw [subterms, List.mem_cons, mem_subtermsFields] at h
    obtain ⟨f, hf, h⟩ := h.resolve_left (by simp)
    exact ihfs f hf ts h

/-- A flat type is canonical if no function in it would take alternatives. The types in keys are
only text, so they may be settled. -/
theorem canonical_of_keepsAlternatives (ht : Formed Spread t) (hkeeps : KeepsAlternatives t) :
    Canonical t := by
  induction ht with
  | builtin b => exact .builtin b
  | named hname hbuiltin htrue hfalse => exact .named hname hbuiltin htrue hfalse
  | truth hname => exact .truth hname
  | number hw => exact .number hw
  | quoted hw => exact .quoted hw
  | array _ ih => exact .array (ih fun ts h => hkeeps ts (by simp [subterms, h]))
  | optional _ ih => exact .optional (ih fun ts h => hkeeps ts (by simp [subterms, h]))
  | @union us hjoined _ ih =>
    have hunabsorbed : Unabsorbed us := hkeeps us (by simp [subterms])
    refine .union ⟨hjoined.1, hjoined.2, hunabsorbed⟩ fun u hu => ih u hu fun ts h => hkeeps ts ?_
    rw [subterms, List.mem_cons, mem_subtermsAll]
    exact .inr ⟨u, hu, h⟩
  | container hname hne _ ih =>
    refine .container hname hne fun u hu => ih u hu fun ts h => hkeeps ts ?_
    rw [subterms, List.mem_cons, mem_subtermsAll]
    exact .inr ⟨u, hu, h⟩
  | function hnames _ hlength _ ihps ihrs =>
    refine .function hnames (fun p hp => ihps p hp fun ts h => hkeeps ts ?_) hlength
      fun u hu => ihrs u hu fun ts h => hkeeps ts ?_
    · rw [subterms, List.mem_cons, List.mem_append, mem_subtermsFields]
      exact .inr (.inl ⟨p, hp, h⟩)
    · rw [subterms, List.mem_cons, List.mem_append, mem_subtermsAll]
      exact .inr (.inr ⟨u, hu, h⟩)
  | @table fs ks hkeys hks _ _ ihfs =>
    have hsettle : ∀ k ∈ ks, Canonical (settle k) ∧ (settle k).print = k.print :=
      fun k hk => settle_spec ((hks k hk).mono fun _ h => h.1)
    rw [Canonical, formed_table_iff]
    intro f hf
    refine ⟨(hkeys f hf).imp_right ?_, ihfs f hf fun ts h => hkeeps ts ?_⟩
    · intro hkey
      obtain ⟨k, hk, hfk⟩ := hkey
      refine ⟨settle k, (hsettle k hk).1, ?_⟩
      rw [hfk, bracketed, bracketed, (hsettle k hk).2]
    · rw [subterms, List.mem_cons, mem_subtermsFields]
      exact .inr ⟨f, hf, h⟩

/-- Settling does no more than flattening exactly where no function would take alternatives. -/
theorem settle_parse_eq_flatten_iff (s : Text) :
    settle (parse s) = flatten (parse s) ↔ KeepsAlternatives (flatten (parse s)) := by
  rcases wellFormed_or_opaque s with h | ⟨h, -⟩
  · obtain ⟨hformed, hprint⟩ := flatten_spec h
    constructor
    · intro heq
      rw [← heq]
      exact (settle_spec h).1.keepsAlternatives
    · intro hkeeps
      have hcanonical := canonical_of_keepsAlternatives hformed hkeeps
      rw [← h.parse_print, ← hprint, hcanonical.parse_print]
  · rw [h]
    exact iff_of_true rfl fun ts hts => by simp [flatten, rejoin, subterms] at hts

theorem flatten_settle_parse (s : Text) : flatten (settle (parse s)) = settle (parse s) := by
  rcases wellFormed_or_opaque s with h | ⟨h, -⟩
  · exact (settle_spec h).1.flatten_eq
  · rw [h]
    rfl

theorem print_parse_eq_iff (s₁ s₂ : Text) :
    (parse s₁).print = (parse s₂).print ↔ settle (parse s₁) = settle (parse s₂) := by
  constructor
  · intro h
    rw [← parse_print_parse, ← parse_print_parse, h]
  · intro h
    rw [← print_settle_parse, ← print_settle_parse, h]

/-- Two types that were read print alike if and only if they settle to one type. Where no function
would take alternatives, that is the case only if they are equal up to flattening. Where one would,
the type already differs from what its own written form is read as. -/
theorem print_parse_ambiguity (s₁ s₂ : Text) :
    ((parse s₁).print = (parse s₂).print ↔ settle (parse s₁) = settle (parse s₂)) ∧
      (KeepsAlternatives (flatten (parse s₁)) → KeepsAlternatives (flatten (parse s₂)) →
        ((parse s₁).print = (parse s₂).print ↔ flatten (parse s₁) = flatten (parse s₂))) ∧
      (flatten (parse (parse s₁).print) = flatten (parse s₁) ↔
        KeepsAlternatives (flatten (parse s₁))) := by
  refine ⟨print_parse_eq_iff s₁ s₂, ?_, ?_⟩
  · intro h₁ h₂
    rw [print_parse_eq_iff, (settle_parse_eq_flatten_iff s₁).2 h₁,
      (settle_parse_eq_flatten_iff s₂).2 h₂]
  · rw [parse_print_parse, flatten_settle_parse, settle_parse_eq_flatten_iff]

/-- The function of the first text has one alternative beside it, that of the second has both as its
result. They print alike. -/
theorem print_grouped_function : (parse "(fun(): a)|b".toList).print =
      (parse "fun(): a|b".toList).print ∧
    flatten (parse "(fun(): a)|b".toList) ≠ flatten (parse "fun(): a|b".toList) := by
  have ha : Canonical (named "a".toList) :=
    .named (ident_of_all rfl rfl (by decide)) (by decide) (by decide) (by decide)
  have hb : Canonical (named "b".toList) :=
    .named (ident_of_all rfl rfl (by decide)) (by decide) (by decide) (by decide)
  have hfunction : ∀ {t : TypeExpr}, Canonical t → Canonical (function [] [t]) :=
    fun ht => .function nofun nofun (Nat.le_refl 1) (List.forall_mem_singleton.2 ht)
  have hgroup : PrimaryStep "(fun(): a)|b".toList (function [] [named "a".toList]) "|b".toList :=
    .group (s := "fun(): a)|b".toList) ((hfunction ha).reads.1 ")|b".toList
      (stop_cons (by decide))) (leaves_closing?_append blank_nil rfl)
  have hfirst : ReadsSuffixed "(fun(): a)|b".toList (function [] [named "a".toList]) "|b".toList :=
    reads_suffixed?.2 ⟨_, _, reads_primary?.2 hgroup, rfl, rfl⟩
  have hsecond : ReadsSuffixed "b".toList (named "b".toList) [] :=
    (hb.reads.2 rfl).readsSuffixed_stop stop_nil
  have hbar : Leaves (between? '|' "|b".toList) "b".toList :=
    leaves_between?_append blank_nil blank_nil rfl
  have hread : Reads (union? "(fun(): a)|b".toList)
      (union [function [] [named "a".toList], named "b".toList]) [] := by
    refine reads_union?.2 ⟨_, _, hfirst, ?_, ?_⟩
    · rw [(alternatives_more hbar hsecond).1, stop_nil.alternatives_eq]
      rfl
    · rw [(alternatives_more hbar hsecond).2, stop_nil.alternatives_eq]
      rfl
  have hleft := parse_eq_of_reads hread
  have hright : parse "fun(): a|b".toList =
      function [] [union [named "a".toList, named "b".toList]] :=
    (hfunction (canonical_union_pair ha hb rfl rfl rfl)).parse_print
  rw [hleft, hright]
  refine ⟨rfl, ?_⟩
  simp [flatten, rejoin]

end LuaDocs.TypeExpr
