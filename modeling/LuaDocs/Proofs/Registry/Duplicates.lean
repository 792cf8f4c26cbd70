import LuaDocs.Proofs.Declaration.Faults
import LuaDocs.Proofs.Registry.Matching
import LuaDocs.Proofs.Source.Places
import Mathlib.Data.List.MinMax
import Mathlib.Data.List.Nodup

/-!
# Names declared twice

Of several declarations of a type name the one at the earliest place wins: the name stands for it, and
every other one is reported with the place of the winner. A function whose qualified name is that of a
type is reported too. The files of a registry are in the order of their paths and the types of a file in
that of their lines, so the earliest declaration is the one that is met first.
-/

namespace LuaDocs

def Diagnostic.isDuplicate : Diagnostic → Bool
  | duplicateName _ _ _ => true
  | _ => false

namespace Registry

variable {sources : List (Text × Text)} {types types' : List TypeDoc} {n : Text}

/-! ### Winners -/

/-- The declaration of a type name at the earliest place. -/
def winner? (sources : List (Text × Text)) (n : Text) : Option TypeDoc :=
  ((declaredTypes sources).filter (·.name == n)).argmin (·.location)

/-- The report on a declaration that is not the winner of its name. -/
def lost? (sources : List (Text × Text)) (t : TypeDoc) : Option Diagnostic :=
  (winner? sources t.name).bind fun winner =>
    if winner.location = t.location then none
    else some (.duplicateName t.name winner.location t.location)

/-- The report on a function of a file whose qualified name is that of a type. -/
def collision? (sources : List (Text × Text)) (path : Text) (f : FunctionDoc) : Option Diagnostic :=
  (winner? sources (qualifiedName path f)).map fun winner =>
    .duplicateName (qualifiedName path f) (min winner.location f.location)
      (max winner.location f.location)

theorem argmin_eq_of_perm (h : types.Perm types') (hplaces : (types.map (·.location)).Nodup) :
    types.argmin (·.location) = types'.argmin (·.location) := by
  cases hmin' : types'.argmin (·.location) with
  | none =>
    obtain rfl := List.argmin_eq_none.1 hmin'
    rw [h.eq_nil, List.argmin_nil]
  | some t' =>
    cases hmin : types.argmin (·.location) with
    | none =>
      obtain rfl := List.argmin_eq_none.1 hmin
      obtain rfl := h.nil_eq
      exact absurd hmin' nofun
    | some t =>
      have ht : t ∈ types := List.argmin_mem hmin
      have ht' : t' ∈ types := h.mem_iff.2 (List.argmin_mem hmin')
      have hle : t.location ≤ t'.location := List.le_of_mem_argmin ht' hmin
      have hle' : t'.location ≤ t.location := List.le_of_mem_argmin (h.mem_iff.1 ht) hmin'
      rw [List.inj_on_of_nodup_map hplaces ht ht' (le_antisymm hle hle')]

/-- Of types at ascending places the first is the earliest. -/
theorem argmin_filter (h : (types.map (·.location)).Pairwise (· < ·)) (p : TypeDoc → Bool) :
    (types.filter p).argmin (·.location) = types.find? p := by
  induction types with
  | nil => rfl
  | cons t types ih =>
    rw [List.map_cons, List.pairwise_cons] at h
    rw [List.find?_cons]
    cases hp : p t with
    | false => rw [List.filter_cons_of_neg (by simp [hp])]; exact ih h.2
    | true =>
      rw [List.filter_cons_of_pos hp, List.argmin_cons]
      cases hmin : (types.filter p).argmin (·.location) with
      | none => rfl
      | some u =>
        have hu : u ∈ types := List.mem_of_mem_filter (List.argmin_mem hmin)
        exact if_neg (h.1 u.location (List.mem_map_of_mem hu)).asymm

/-! ### Places of declared types -/

theorem pairwise_locations (h : (sources.map Prod.fst).Pairwise (· < ·)) :
    ((declaredTypes sources).map (·.location)).Pairwise (· < ·) := by
  have hfile : ∀ source : Text × Text,
      ∀ l ∈ (ParsedFile.ofContent source.1 source.2).docs.types.map (·.location),
        l.file = source.1 := by
    intro source l hl
    obtain ⟨ns, -, hlocations⟩ := Source.locations_ofContent source.1 source.2
    rw [hlocations] at hl
    obtain ⟨i, -, rfl⟩ := List.mem_map.1 hl
    rfl
  rw [declaredTypes, List.map_flatMap]
  refine List.pairwise_flatMap.2 ⟨fun source _ => ?_, ?_⟩
  · obtain ⟨ns, hns, hlocations⟩ := Source.locations_ofContent source.1 source.2
    rw [hlocations, List.pairwise_map]
    refine hns.imp ?_
    intro i j hij
    exact Location.lt_iff.2 (.inr ⟨rfl, hij⟩)
  · refine (List.pairwise_map.1 h).imp fun {a b} hab l hl m hm => Location.lt_iff.2 (.inl ?_)
    rwa [hfile a l hl, hfile b m hm]

section

variable (hpaths : (sources.map Prod.fst).Nodup)

include hpaths

theorem pairwise_locations_sorted :
    ((declaredTypes (sortByKey sources)).map (·.location)).Pairwise (· < ·) :=
  pairwise_locations (List.pairwise_map.2 (pairwise_lt_sortByKey hpaths))

/-- No two declarations of types share a place. -/
theorem nodup_locations : ((declaredTypes sources).map (·.location)).Nodup :=
  ((declaredTypes_sortByKey sources).map _).nodup_iff.1
    ((pairwise_locations_sorted hpaths).imp fun h => h.ne)

theorem winner?_eq_find? (n : Text) :
    winner? sources n = (declaredTypes (sortByKey sources)).find? (·.name == n) := by
  have hperm := (declaredTypes_sortByKey sources).symm.filter (·.name == n)
  have hplaces : (((declaredTypes sources).filter (·.name == n)).map (·.location)).Nodup :=
    (nodup_locations hpaths).sublist (List.filter_sublist.map _)
  rw [winner?, argmin_eq_of_perm hperm hplaces, argmin_filter (pairwise_locations_sorted hpaths)]

theorem lookup_index (n : Text) : (indexFiles [] (readSources sources)).1.lookup n =
    (winner? sources n).map (·.location) := by
  rw [lookup_indexFiles, List.nil_append, lookup_places, typesOf_readSources,
    winner?_eq_find? hpaths]

theorem ofSources_fields :
    (ofSources sources).types =
        ((declaredTypes (sortByKey sources)).map (TypeDoc.matched (declares sources))).filter
          (fun t => (winner? sources t.name).map (·.location) == some t.location) ∧
      (ofSources sources).diagnostics =
        (indexFiles [] (readSources sources)).2 ++
          ((readSources sources).flatMap fun file =>
            fileFaults (indexFiles [] (readSources sources)).1 (declares sources) file.1
              file.2.docs).foldl addFault [] := by
  rw [ofSources_eq, ofParsed_eq (pairwise_readSources hpaths) (isSome_lookup_indexFiles sources)]
  simp only [lookup_index hpaths, typesOf_readSources, and_self]

theorem type?_ofSources (n : Text) :
    (ofSources sources).type? n = (winner? sources n).map (TypeDoc.matched (declares sources)) := by
  rw [type?, (ofSources_fields hpaths).1, List.find?_filter, List.find?_map,
    winner?_eq_find? hpaths n]
  refine congrArg (Option.map _) ?_
  cases hfirst : (declaredTypes (sortByKey sources)).find? (·.name == n) with
  | none =>
    rw [List.find?_eq_none] at hfirst ⊢
    intro t ht
    have hname := hfirst t ht
    simp only [Function.comp_apply, decide_eq_true_eq, not_and]
    exact fun _ => hname
  | some t =>
    -- The first declaration of the name passes the filter for winners, and none before it has the name.
    have hwinner := winner?_eq_find? hpaths n
    rw [hfirst] at hwinner
    obtain ⟨hname, before, after, hsplit, hbefore⟩ := List.find?_eq_some_iff_append.1 hfirst
    refine List.find?_eq_some_iff_append.2 ⟨?_, before, after, hsplit, fun u hu => ?_⟩
    · have htn : t.name = n := beq_iff_eq.1 hname
      simp [TypeDoc.matched, htn, hwinner]
    · have hune := hbefore u hu
      simp only [Bool.not_eq_true', beq_eq_false_iff_ne] at hune
      simp [TypeDoc.matched, hune]

end

/-! ### Reports -/

theorem filter_addFault (reported : List Diagnostic) (fault : Diagnostic) :
    (addFault reported fault).filter Diagnostic.isDuplicate =
      reported.filter Diagnostic.isDuplicate ++ [fault].filter Diagnostic.isDuplicate := by
  rw [addFault]
  split
  · next hskip =>
    have hunresolved : fault.isUnresolved = true := (Bool.and_eq_true _ _ ▸ hskip).1
    cases fault with
    | unresolvedType here n => exact (List.append_nil _).symm
    | _ => cases hunresolved
  · exact List.filter_append _ _

theorem filter_foldl_addFault (faults reported : List Diagnostic) :
    (faults.foldl addFault reported).filter Diagnostic.isDuplicate =
      reported.filter Diagnostic.isDuplicate ++ faults.filter Diagnostic.isDuplicate := by
  induction faults generalizing reported with
  | nil => exact (List.append_nil _).symm
  | cons fault faults ih =>
    rw [List.foldl_cons, ih, filter_addFault, List.append_assoc, ← List.filter_append,
      List.singleton_append]

theorem filter_unresolvedIn (known : Text → Bool) (generics : List Text) (here : Location)
    (ts : List TypeExpr) :
    (ts.flatMap (unresolvedIn known generics here)).filter Diagnostic.isDuplicate = [] := by
  refine List.filter_eq_nil_iff.2 fun fault hfault => ?_
  obtain ⟨t, -, hfault⟩ := List.mem_flatMap.1 hfault
  obtain ⟨n, -, hfault⟩ := List.mem_flatMap.1 hfault
  split at hfault
  · exact absurd hfault List.not_mem_nil
  · obtain rfl := List.mem_singleton.1 hfault
    exact Bool.false_ne_true

section

variable (hpaths : (sources.map Prod.fst).Nodup)

include hpaths

theorem filter_functionFaults (path : Text) (f : FunctionDoc) :
    (functionFaults (indexFiles [] (readSources sources)).1 (declares sources) path f).filter
      Diagnostic.isDuplicate = (collision? sources path f).toList := by
  rw [functionFaults, List.filter_append, filter_unresolvedIn, List.nil_append, lookup_index hpaths,
    collision?]
  cases winner? sources (qualifiedName path f) with
  | none => rfl
  | some winner =>
    simp only [Option.map_some, Location.ordered_eq]
    rfl

theorem filter_fileFaults (path : Text) (docs : FileDocs) :
    (fileFaults (indexFiles [] (readSources sources)).1 (declares sources) path docs).filter
      Diagnostic.isDuplicate = docs.functions.filterMap (collision? sources path) := by
  have htypes : (docs.types.flatMap (typeFaults (declares sources))).filter
      Diagnostic.isDuplicate = [] := by
    rw [List.filter_flatMap, List.flatMap_eq_nil_iff]
    exact fun t _ => filter_unresolvedIn _ _ _ _
  rw [fileFaults, List.filter_append, htypes, List.append_nil, List.filter_flatMap,
    List.filterMap_eq_flatMap_toList]
  exact congrArg (docs.functions.flatMap ·) (funext (filter_functionFaults hpaths path))

theorem loser?_eq (t : TypeDoc) :
    loser? (indexFiles [] (readSources sources)).1 t = lost? sources t := by
  rw [loser?, lookup_index hpaths, lost?]
  cases winner? sources t.name with
  | none => rfl
  | some winner => rfl

theorem filter_indexFiles :
    (indexFiles [] (readSources sources)).2.filter Diagnostic.isDuplicate =
      (declaredTypes (sortByKey sources)).filterMap (lost? sources) := by
  have hplaces : ((typesOf (readSources sources)).map (·.location)).Nodup := by
    rw [typesOf_readSources]
    exact (pairwise_locations_sorted hpaths).imp fun h => h.ne
  have hlocal : ∀ file ∈ readSources sources,
      file.2.diagnostics.filter Diagnostic.isDuplicate = [] := by
    intro file hfile
    obtain ⟨source, -, rfl⟩ := List.mem_map.1 hfile
    refine List.filter_eq_nil_iff.2 fun fault hfault => ?_
    have hkind := isLocal_of_mem_ofContent hfault
    cases fault with
    | duplicateName n a b => cases hkind
    | _ => exact Bool.false_ne_true
  have hlost : ∀ ts : List TypeDoc,
      (ts.filterMap (loser? (indexFiles [] (readSources sources)).1)).filter Diagnostic.isDuplicate =
        ts.filterMap (lost? sources) := by
    intro ts
    rw [funext (loser?_eq hpaths)]
    refine List.filter_eq_self.2 fun fault hfault => ?_
    obtain ⟨t, -, ht⟩ := List.mem_filterMap.1 hfault
    obtain ⟨winner, -, ht⟩ := Option.bind_eq_some_iff.1 ht
    split at ht
    · cases ht
    · obtain rfl := Option.some.inj ht
      rfl
  rw [indexFiles_faults (fun _ _ h => h) (List.forall_mem_nil _) hplaces, List.filter_flatMap,
    ← typesOf_readSources, typesOf, List.filterMap_flatMap]
  refine List.flatMap_congr fun file hfile => ?_
  rw [List.filter_append, hlocal file hfile, List.nil_append, hlost]

/-- A type name stands for its declaration at the earliest place, with the names in it matched. Every
other declaration of the name is reported, and every function whose qualified name is that of a type. -/
theorem names_ofSources :
    ((declaredTypes sources).map (·.location)).Nodup ∧
      (∀ n, ((ofSources sources).type? n).isSome = declares sources n) ∧
      (∀ n, (ofSources sources).type? n =
        (winner? sources n).map (TypeDoc.matched (declares sources))) ∧
      ((ofSources sources).diagnostics.filter Diagnostic.isDuplicate).Perm
        ((declaredTypes sources).filterMap (lost? sources) ++
          sources.flatMap fun source =>
            (ParsedFile.ofContent source.1 source.2).docs.functions.filterMap
              (collision? sources source.1)) := by
  refine ⟨nodup_locations hpaths, fun n => ?_, type?_ofSources hpaths, ?_⟩
  · rw [type?_ofSources hpaths, Option.isSome_map, ← Option.isSome_map (f := (·.location)),
      ← lookup_index hpaths, isSome_lookup_indexFiles]
  · have hcollisions : ((readSources sources).flatMap fun file =>
        fileFaults (indexFiles [] (readSources sources)).1 (declares sources) file.1
          file.2.docs).filter Diagnostic.isDuplicate =
        (sortByKey sources).flatMap fun source =>
          (ParsedFile.ofContent source.1 source.2).docs.functions.filterMap
            (collision? sources source.1) := by
      rw [List.filter_flatMap, readSources, List.flatMap_map]
      exact List.flatMap_congr fun source _ => filter_fileFaults hpaths _ _
    rw [(ofSources_fields hpaths).2, List.filter_append, filter_foldl_addFault, filter_indexFiles hpaths,
      hcollisions, List.filter_nil, List.nil_append]
    exact ((declaredTypes_sortByKey sources).filterMap _).append
      ((sortByKey_perm sources).flatMap_right _)

end

/-- A name that two files declare, the later file twice, and that a function has as well. -/
theorem names_ofSources_thrice :
    let sources := [("z.lua".toList, "---@class demo.load\n---@class demo.load\n".toList),
      ("demo/init.lua".toList, "---@class demo.load\n\nfunction M.load() end\n".toList)]
    let winner : Location := ⟨"demo/init.lua".toList, 1⟩
    (sources.map Prod.fst).Nodup ∧
      ((ofSources sources).type? "demo.load".toList).map (·.location) = some winner ∧
      ((ofSources sources).diagnostics.filter Diagnostic.isDuplicate).Perm
        [.duplicateName "demo.load".toList winner ⟨"z.lua".toList, 1⟩,
          .duplicateName "demo.load".toList winner ⟨"z.lua".toList, 2⟩,
          .duplicateName "demo.load".toList winner ⟨"demo/init.lua".toList, 3⟩] := by
  intro sources winner
  have hpaths : (sources.map Prod.fst).Nodup := by decide
  obtain ⟨-, -, htype, hreports⟩ := names_ofSources hpaths
  refine ⟨hpaths, ?_, hreports.trans (.of_eq ?_)⟩
  · rw [htype]
    decide +kernel
  · decide +kernel

end Registry

end LuaDocs
