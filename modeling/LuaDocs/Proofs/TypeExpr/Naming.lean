import LuaDocs.TypeExpr.Basic
import Mathlib.Data.List.Basic

/-!
# Names in types

A type is a tree whose leaves may be names. `matched` says what becomes of it when the known names among
them are matched to declarations: these leaves change and nothing else does. The traversal that replaces
names visits the children of a node one after the other, so what it does to a type is put together from
what it does to the leaves; induction over types has one case for each kind of node, with a hypothesis
for every child.
-/

namespace LuaDocs.TypeExpr

variable {t u : TypeExpr} {ts : List TypeExpr} {n : Text}

@[elab_as_elim]
theorem inductionOnParts {P : TypeExpr → Prop} (builtin : ∀ b, P (.builtin b))
    (named : ∀ n, P (.named n)) (declared : ∀ n, P (.declared n)) (literal : ∀ s, P (.literal s))
    (array : ∀ t, P t → P (.array t)) (optional : ∀ t, P t → P (.optional t))
    (union : ∀ ts, (∀ t ∈ ts, P t) → P (.union ts))
    (container : ∀ n ts, (∀ t ∈ ts, P t) → P (.container n ts))
    (function : ∀ ps rs, (∀ p ∈ ps, P p.2) → (∀ t ∈ rs, P t) → P (.function ps rs))
    (table : ∀ fs, (∀ f ∈ fs, P f.2) → P (.table fs)) (t : TypeExpr) : P t :=
  @TypeExpr.rec P (fun ts => ∀ t ∈ ts, P t) (fun fs => ∀ f ∈ fs, P f.2) (fun f => P f.2) builtin named
    declared literal array optional union container function table (fun _ h => nomatch h)
    (fun _ _ ht hts => List.forall_mem_cons.2 ⟨ht, hts⟩) (fun _ h => nomatch h)
    (fun _ _ hf hfs => List.forall_mem_cons.2 ⟨hf, hfs⟩) (fun _ _ h => h) t

/-! ### Matched names -/

section

variable (known : Text → Bool)

mutual

/-- The type with the known names among its leaves matched to declarations. -/
def matched : TypeExpr → TypeExpr
  | named n => if known n then declared n else named n
  | array t => array (matched t)
  | optional t => optional (matched t)
  | union ts => union (matchedAll ts)
  | container n ts => container n (matchedAll ts)
  | function ps rs => function (matchedFields ps) (matchedAll rs)
  | table fs => table (matchedFields fs)
  | t => t

def matchedAll : List TypeExpr → List TypeExpr
  | [] => []
  | t :: ts => matched t :: matchedAll ts

def matchedFields : List (Text × TypeExpr) → List (Text × TypeExpr)
  | [] => []
  | (k, t) :: fs => (k, matched t) :: matchedFields fs

end

theorem matchedAll_eq_map (ts : List TypeExpr) : matchedAll known ts = ts.map (matched known) := by
  induction ts with
  | nil => rfl
  | cons t ts ih => rw [matchedAll, ih, List.map_cons]

theorem matchedFields_eq_map (fs : List (Text × TypeExpr)) :
    matchedFields known fs = fs.map fun f => (f.1, matched known f.2) := by
  induction fs with
  | nil => rfl
  | cons f fs ih => rw [matchedFields, ih, List.map_cons]

end

/-! ### Parts -/

/-- A type stands somewhere in another, which may be the whole of it. -/
inductive Inside (s : TypeExpr) : TypeExpr → Prop
  | whole : Inside s s
  | element {t : TypeExpr} (h : Inside s t) : Inside s (array t)
  | value {t : TypeExpr} (h : Inside s t) : Inside s (optional t)
  | alternative {t : TypeExpr} {ts : List TypeExpr} (ht : t ∈ ts) (h : Inside s t) :
    Inside s (union ts)
  | argument {n : Text} {t : TypeExpr} {ts : List TypeExpr} (ht : t ∈ ts) (h : Inside s t) :
    Inside s (container n ts)
  | param {p : Text × TypeExpr} {ps : List (Text × TypeExpr)} {rs : List TypeExpr} (hp : p ∈ ps)
    (h : Inside s p.2) : Inside s (function ps rs)
  | result {t : TypeExpr} {ps : List (Text × TypeExpr)} {rs : List TypeExpr} (ht : t ∈ rs)
    (h : Inside s t) : Inside s (function ps rs)
  | field {f : Text × TypeExpr} {fs : List (Text × TypeExpr)} (hf : f ∈ fs) (h : Inside s f.2) :
    Inside s (table fs)

theorem subtermsAll_eq_flatMap (ts : List TypeExpr) : subtermsAll ts = ts.flatMap subterms := by
  induction ts with
  | nil => rfl
  | cons t ts ih => rw [subtermsAll, ih, List.flatMap_cons]

theorem subtermsFields_eq_flatMap (fs : List (Text × TypeExpr)) :
    subtermsFields fs = fs.flatMap fun f => subterms f.2 := by
  induction fs with
  | nil => rfl
  | cons f fs ih => rw [subtermsFields, ih, List.flatMap_cons]

theorem mem_subtermsAll : u ∈ subtermsAll ts ↔ ∃ t ∈ ts, u ∈ t.subterms := by
  rw [subtermsAll_eq_flatMap, List.mem_flatMap]

theorem mem_subtermsFields {fs : List (Text × TypeExpr)} :
    u ∈ subtermsFields fs ↔ ∃ f ∈ fs, u ∈ f.2.subterms := by
  rw [subtermsFields_eq_flatMap, List.mem_flatMap]

theorem self_mem_subterms (t : TypeExpr) : t ∈ t.subterms := by
  cases t <;> exact List.mem_cons_self

/-- The traversal comes to every part, at any depth, and to nothing else. -/
theorem mem_subterms_iff : u ∈ t.subterms ↔ Inside u t := by
  refine ⟨fun h => ?_, fun h => ?_⟩
  · induction t using inductionOnParts with
    | builtin | named | declared | literal =>
      obtain rfl := List.mem_singleton.1 h
      exact .whole
    | array t ih =>
      rcases List.mem_cons.1 h with rfl | h
      · exact .whole
      · exact .element (ih h)
    | optional t ih =>
      rcases List.mem_cons.1 h with rfl | h
      · exact .whole
      · exact .value (ih h)
    | union ts ih =>
      rw [subterms, List.mem_cons, mem_subtermsAll] at h
      rcases h with rfl | ⟨t, ht, h⟩
      · exact .whole
      · exact .alternative ht (ih t ht h)
    | container n ts ih =>
      rw [subterms, List.mem_cons, mem_subtermsAll] at h
      rcases h with rfl | ⟨t, ht, h⟩
      · exact .whole
      · exact .argument ht (ih t ht h)
    | function ps rs ihps ihrs =>
      rw [subterms, List.mem_cons, List.mem_append, mem_subtermsFields, mem_subtermsAll] at h
      rcases h with rfl | ⟨p, hp, h⟩ | ⟨t, ht, h⟩
      · exact .whole
      · exact .param hp (ihps p hp h)
      · exact .result ht (ihrs t ht h)
    | table fs ih =>
      rw [subterms, List.mem_cons, mem_subtermsFields] at h
      rcases h with rfl | ⟨f, hf, h⟩
      · exact .whole
      · exact .field hf (ih f hf h)
  · induction h with
    | whole => exact self_mem_subterms u
    | element _ ih => exact List.mem_cons_of_mem _ ih
    | value _ ih => exact List.mem_cons_of_mem _ ih
    | alternative ht _ ih => exact List.mem_cons_of_mem _ (mem_subtermsAll.2 ⟨_, ht, ih⟩)
    | argument ht _ ih => exact List.mem_cons_of_mem _ (mem_subtermsAll.2 ⟨_, ht, ih⟩)
    | param hp _ ih =>
      exact List.mem_cons_of_mem _ (List.mem_append_left _ (mem_subtermsFields.2 ⟨_, hp, ih⟩))
    | result ht _ ih =>
      exact List.mem_cons_of_mem _ (List.mem_append_right _ (mem_subtermsAll.2 ⟨_, ht, ih⟩))
    | field hf _ ih => exact List.mem_cons_of_mem _ (mem_subtermsFields.2 ⟨_, hf, ih⟩)

/-- The parts of a matched type are the matched parts. -/
theorem subterms_matched (known : Text → Bool) (t : TypeExpr) :
    (t.matched known).subterms = t.subterms.map (matched known) := by
  have hall : ∀ ts : List TypeExpr,
      (∀ t ∈ ts, (t.matched known).subterms = t.subterms.map (matched known)) →
      subtermsAll (matchedAll known ts) = (subtermsAll ts).map (matched known) := by
    intro ts hts
    rw [matchedAll_eq_map, subtermsAll_eq_flatMap, subtermsAll_eq_flatMap, List.flatMap_map,
      List.map_flatMap]
    exact List.flatMap_congr hts
  have hfields : ∀ fs : List (Text × TypeExpr),
      (∀ f ∈ fs, (f.2.matched known).subterms = f.2.subterms.map (matched known)) →
      subtermsFields (matchedFields known fs) = (subtermsFields fs).map (matched known) := by
    intro fs hfs
    rw [matchedFields_eq_map, subtermsFields_eq_flatMap, subtermsFields_eq_flatMap, List.flatMap_map,
      List.map_flatMap]
    exact List.flatMap_congr hfs
  induction t using inductionOnParts with
  | builtin | declared | literal => rfl
  | named n =>
    by_cases h : known n
    · simp [matched, subterms, h]
    · simp [matched, subterms, h]
  | array t ih => rw [matched, subterms, subterms, ih, List.map_cons, matched]
  | optional t ih => rw [matched, subterms, subterms, ih, List.map_cons, matched]
  | union ts ih => rw [matched, subterms, subterms, hall ts ih, List.map_cons, matched]
  | container n ts ih => rw [matched, subterms, subterms, hall ts ih, List.map_cons, matched]
  | function ps rs ihps ihrs =>
    rw [matched, subterms, subterms, hfields ps ihps, hall rs ihrs, List.map_cons, List.map_append,
      matched]
  | table fs ih => rw [matched, subterms, subterms, hfields fs ih, List.map_cons, matched]

/-- A known name is not left at a leaf of a matched type. -/
theorem not_inside_matched_of_known {known : Text → Bool} (hn : known n = true) (t : TypeExpr) :
    ¬ (named n).Inside (t.matched known) := by
  rw [← mem_subterms_iff, subterms_matched, List.mem_map]
  rintro ⟨s, -, hs⟩
  cases s with
  | named m =>
    rw [matched] at hs
    split at hs
    · cases hs
    · next hm =>
      obtain rfl := named.inj hs
      exact hm hn
  | _ => cases hs

/-! ### Names -/

@[simp] theorem names_named (n : Text) : names (named n) = [n] := rfl

theorem filterMap_subterms (ts : List TypeExpr) :
    (subtermsAll ts).filterMap openName? = ts.flatMap names := by
  rw [subtermsAll_eq_flatMap, List.filterMap_flatMap]
  rfl

theorem filterMap_subtermsFields (fs : List (Text × TypeExpr)) :
    (subtermsFields fs).filterMap openName? = fs.flatMap fun f => names f.2 := by
  rw [subtermsFields_eq_flatMap, List.filterMap_flatMap]
  rfl

@[simp] theorem names_union (ts : List TypeExpr) : names (union ts) = ts.flatMap names :=
  filterMap_subterms ts

@[simp] theorem names_container (n : Text) (ts : List TypeExpr) :
    names (container n ts) = ts.flatMap names :=
  filterMap_subterms ts

@[simp] theorem names_function (ps : List (Text × TypeExpr)) (rs : List TypeExpr) :
    names (function ps rs) = (ps.flatMap fun p => names p.2) ++ rs.flatMap names := by
  rw [← filterMap_subterms, ← filterMap_subtermsFields, ← List.filterMap_append]
  rfl

@[simp] theorem names_table (fs : List (Text × TypeExpr)) :
    names (table fs) = fs.flatMap fun f => names f.2 :=
  filterMap_subtermsFields fs

/-! ### The traversal -/

section

variable {m : Type → Type} [Monad m] [LawfulMonad m] (f : Text → m TypeExpr)

theorem mapNamesAllM_eq_mapM (ts : List TypeExpr) : mapNamesAllM f ts = ts.mapM (mapNamesM f) := by
  induction ts with
  | nil => rfl
  | cons t ts ih => rw [mapNamesAllM, ih, List.mapM_cons]

theorem mapNamesFieldsM_eq_mapM (fs : List (Text × TypeExpr)) :
    mapNamesFieldsM f fs = fs.mapM fun p => do return (p.1, ← mapNamesM f p.2) := by
  induction fs with
  | nil => rfl
  | cons p fs ih =>
    rw [mapNamesFieldsM, ih, List.mapM_cons]
    simp only [bind_assoc, pure_bind]

end

end LuaDocs.TypeExpr
