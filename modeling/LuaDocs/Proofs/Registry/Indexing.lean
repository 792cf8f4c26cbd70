import LuaDocs.Proofs.Registry.Order

/-!
# Indexing type names

The index of a project finds every declared type name at the place of the declaration that comes first in
the order of the files. A declaration that loses to an earlier one is reported with the place of the
winner. As no two declarations share a place, the losers are those whose place is not the one in the
finished index, whenever they were met.
-/

namespace LuaDocs.Registry

variable {index final : TypeIndex} {types : List TypeDoc} {parsed : List (Text × ParsedFile)}
  {sources : List (Text × Text)} {n : Text}

theorem lookup_append (index index' : TypeIndex) (n : Text) :
    (index ++ index').lookup n = (index.lookup n).or (index'.lookup n) := by
  induction index with
  | nil => rfl
  | cons entry index ih =>
    rw [List.cons_append, List.lookup_cons, List.lookup_cons]
    cases n == entry.1 with
    | true => rfl
    | false => exact ih

def places (types : List TypeDoc) : TypeIndex :=
  types.map fun t => (t.name, t.location)

theorem lookup_places (types : List TypeDoc) (n : Text) :
    (places types).lookup n = (types.find? (·.name == n)).map (·.location) := by
  induction types with
  | nil => rfl
  | cons t types ih =>
    rw [places, List.map_cons, List.lookup_cons, List.find?_cons, Bool.beq_comm]
    cases t.name == n with
    | true => rfl
    | false => exact ih

theorem lookup_indexTypes (index : TypeIndex) (types : List TypeDoc) (n : Text) :
    (indexTypes index types).1.lookup n = (index ++ places types).lookup n := by
  induction types generalizing index with
  | nil => rw [places, List.map_nil, List.append_nil, indexTypes]
  | cons t types ih =>
    have hcons : places (t :: types) = [(t.name, t.location)] ++ places types := rfl
    rw [indexTypes, hcons, ← List.append_assoc]
    cases hfirst : index.lookup t.name with
    | none => exact ih _
    | some first =>
      -- The index already answers for this name, so a further entry for it is never reached.
      have hsame : (index ++ [(t.name, t.location)]).lookup n = index.lookup n := by
        rw [lookup_append, List.lookup_cons]
        by_cases hn : n = t.name
        · rw [hn, hfirst, Option.some_or]
        · rw [beq_eq_false_iff_ne.2 hn, List.lookup_nil, Option.or_none]
      rw [lookup_append, hsame, ← lookup_append]
      exact ih index

def typesOf (parsed : List (Text × ParsedFile)) : List TypeDoc :=
  parsed.flatMap (·.2.docs.types)

theorem lookup_indexFiles (index : TypeIndex) (parsed : List (Text × ParsedFile)) (n : Text) :
    (indexFiles index parsed).1.lookup n = (index ++ places (typesOf parsed)).lookup n := by
  induction parsed generalizing index with
  | nil => rw [typesOf, List.flatMap_nil, places, List.map_nil, List.append_nil, indexFiles]
  | cons entry parsed ih =>
    have hcons : places (typesOf (entry :: parsed)) =
        places entry.2.docs.types ++ places (typesOf parsed) := by
      rw [typesOf, List.flatMap_cons, places, List.map_append]
      rfl
    rw [indexFiles, hcons, ih, lookup_append, lookup_indexTypes, ← lookup_append, List.append_assoc]

/-! ### Losers -/

/-- The report on a declaration that is not the one the index knows by its name. -/
def loser? (index : TypeIndex) (t : TypeDoc) : Option Diagnostic :=
  match index.lookup t.name with
  | some first => if first = t.location then none else some (.duplicateName t.name first t.location)
  | none => none

/-- An index goes on another if it answers alike wherever the other answers. -/
def Extends (final index : TypeIndex) : Prop :=
  ∀ n l, index.lookup n = some l → final.lookup n = some l

theorem extends_of_lookup_append {index' : TypeIndex}
    (h : ∀ n, final.lookup n = (index ++ index').lookup n) : Extends final index := by
  intro n l hl
  rw [h, lookup_append, hl, Option.some_or]

theorem mem_indexTypes {entry : Text × Location} (h : entry ∈ (indexTypes index types).1) :
    entry ∈ index ∨ entry ∈ places types := by
  induction types generalizing index with
  | nil => exact .inl h
  | cons t types ih =>
    have htail : entry ∈ places types → entry ∈ places (t :: types) := List.mem_cons_of_mem _
    rw [indexTypes] at h
    cases hfirst : index.lookup t.name with
    | some first =>
      rw [hfirst] at h
      exact (ih h).imp_right htail
    | none =>
      rw [hfirst] at h
      rcases ih h with h | h
      · rcases List.mem_append.1 h with h | h
        · exact .inl h
        · exact .inr (List.mem_singleton.1 h ▸ List.mem_cons_self)
      · exact .inr (htail h)

theorem indexTypes_losers (hfinal : Extends final (indexTypes index types).1)
    (hindex : ∀ entry ∈ index, ∀ t ∈ types, entry.2 ≠ t.location)
    (hplaces : (types.map (·.location)).Nodup) :
    (indexTypes index types).2 = types.filterMap (loser? final) := by
  induction types generalizing index with
  | nil => rfl
  | cons t types ih =>
    rw [List.map_cons, List.nodup_cons] at hplaces
    -- After `t` the index answers for its name, and the finished index answers alike.
    have hknown : final.lookup t.name = (index ++ [(t.name, t.location)]).lookup t.name := by
      obtain ⟨l, hl⟩ : ∃ l, (index ++ [(t.name, t.location)]).lookup t.name = some l := by
        rw [lookup_append, List.lookup_cons, beq_self_eq_true]
        cases index.lookup t.name <;> simp
      rw [hl]
      refine hfinal _ _ ?_
      have hcons : places (t :: types) = [(t.name, t.location)] ++ places types := rfl
      rw [lookup_indexTypes, hcons, ← List.append_assoc, lookup_append, hl, Option.some_or]
    have htail : ∀ entry ∈ index, ∀ u ∈ types, entry.2 ≠ u.location := fun entry he u hu =>
      hindex entry he u (List.mem_cons_of_mem t hu)
    rw [indexTypes] at hfinal ⊢
    rw [lookup_append, List.lookup_cons, beq_self_eq_true] at hknown
    cases hfirst : index.lookup t.name with
    | some first =>
      rw [hfirst] at hfinal hknown
      have hne : first ≠ t.location := by
        obtain ⟨before, after, rfl, -⟩ := List.lookup_eq_some_iff.1 hfirst
        exact hindex (t.name, first) (by simp) t List.mem_cons_self
      have hloser : loser? final t = some (.duplicateName t.name first t.location) := by
        rw [loser?, hknown]
        exact if_neg hne
      dsimp only at hfinal ⊢
      rw [List.filterMap_cons_some hloser, ih hfinal htail hplaces.2]
    | none =>
      rw [hfirst] at hfinal hknown
      have hloser : loser? final t = none := by
        rw [loser?, hknown]
        exact if_pos rfl
      dsimp only at hfinal ⊢
      rw [List.filterMap_cons_none hloser]
      refine ih hfinal (fun entry he u hu => ?_) hplaces.2
      rcases List.mem_append.1 he with he | he
      · exact htail entry he u hu
      · obtain rfl := List.mem_singleton.1 he
        intro heq
        exact hplaces.1 (List.mem_map.2 ⟨u, hu, heq.symm⟩)

/-- For each file the faults found on reading it, then its declarations that lost. -/
theorem indexFiles_faults (hfinal : Extends final (indexFiles index parsed).1)
    (hindex : ∀ entry ∈ index, ∀ t ∈ typesOf parsed, entry.2 ≠ t.location)
    (hplaces : ((typesOf parsed).map (·.location)).Nodup) :
    (indexFiles index parsed).2 = parsed.flatMap fun entry =>
      entry.2.diagnostics ++ entry.2.docs.types.filterMap (loser? final) := by
  induction parsed generalizing index with
  | nil => rfl
  | cons entry parsed ih =>
    have htypes : typesOf (entry :: parsed) = entry.2.docs.types ++ typesOf parsed := rfl
    rw [htypes, List.map_append, List.nodup_append] at hplaces
    obtain ⟨hhead, htail, hapart⟩ := hplaces
    rw [htypes] at hindex
    have hnext : Extends (indexFiles (indexTypes index entry.2.docs.types).1 parsed).1
        (indexTypes index entry.2.docs.types).1 :=
      extends_of_lookup_append (lookup_indexFiles _ parsed)
    have hdups := indexTypes_losers (fun n l hl => hfinal n l (hnext n l hl))
      (fun e he t ht => hindex e he t (List.mem_append_left _ ht)) hhead
    have hfaults := ih hfinal (fun e he t ht => ?_) htail
    · rw [indexFiles, List.flatMap_cons, ← hdups, ← hfaults]
    · rcases mem_indexTypes he with he | he
      · exact hindex e he t (List.mem_append_right _ ht)
      · obtain ⟨u, hu, rfl⟩ := List.mem_map.1 he
        exact hapart _ (List.mem_map_of_mem hu) _ (List.mem_map_of_mem ht)

/-! ### Sources -/

def declaredTypes (sources : List (Text × Text)) : List TypeDoc :=
  sources.flatMap fun source => (ParsedFile.ofContent source.1 source.2).docs.types

/-- Whether some source declares a type with a name. -/
def declares (sources : List (Text × Text)) (n : Text) : Bool :=
  (declaredTypes sources).any (·.name == n)

theorem typesOf_readSources (sources : List (Text × Text)) :
    typesOf (readSources sources) = declaredTypes (sortByKey sources) := by
  rw [typesOf, readSources, List.flatMap_map]
  rfl

theorem declaredTypes_sortByKey (sources : List (Text × Text)) :
    (declaredTypes (sortByKey sources)).Perm (declaredTypes sources) :=
  (sortByKey_perm sources).flatMap_right _

theorem isSome_lookup_indexFiles (sources : List (Text × Text)) (n : Text) :
    ((indexFiles [] (readSources sources)).1.lookup n).isSome = declares sources n := by
  rw [lookup_indexFiles, List.nil_append, lookup_places, Option.isSome_map, List.isSome_find?,
    typesOf_readSources]
  exact (declaredTypes_sortByKey sources).any_eq

end LuaDocs.Registry
