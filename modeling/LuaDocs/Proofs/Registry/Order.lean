import LuaDocs.Proofs.Files.Order
import LuaDocs.Registry.Basic

/-!
# Sources in any order

A registry is built from its files in the order of their paths. Paths are linearly ordered, so sources
with different paths can be put in that order in one way only, and a registry does not depend on the
order in which its sources arrive.
-/

namespace LuaDocs.Registry

variable {α β : Type} {entries entries' : List (Text × α)} {sources sources' : List (Text × Text)}
  {key : Text} {value : α}

/-! ### Entries by key -/

theorem sortByKey_perm (entries : List (Text × α)) : (sortByKey entries).Perm entries :=
  List.mergeSort_perm entries _

@[simp] theorem mem_sortByKey {entry : Text × α} : entry ∈ sortByKey entries ↔ entry ∈ entries :=
  (sortByKey_perm entries).mem_iff

theorem pairwise_sortByKey (entries : List (Text × α)) :
    (sortByKey entries).Pairwise fun a b => a.1 ≤ b.1 :=
  Text.pairwise_mergeSort Prod.fst entries

/-- Entries with different keys are sorted strictly. -/
theorem pairwise_lt_sortByKey (h : (entries.map Prod.fst).Nodup) :
    (sortByKey entries).Pairwise fun a b => a.1 < b.1 := by
  have hne : (sortByKey entries).Pairwise fun a b => a.1 ≠ b.1 :=
    List.pairwise_map.1 (((sortByKey_perm entries).map Prod.fst).nodup_iff.2 h)
  exact (pairwise_sortByKey entries).imp₂ (fun _ _ hle hab => lt_of_le_of_ne hle hab) hne

theorem sortByKey_eq_self (h : entries.Pairwise fun a b => a.1 < b.1) : sortByKey entries = entries :=
  List.mergeSort_of_pairwise (h.imp fun hlt => (Text.notAfter_iff _ _).2 hlt.le)

theorem sortByKey_eq_of_perm (h : entries.Perm entries') (hnodup : (entries.map Prod.fst).Nodup) :
    sortByKey entries = sortByKey entries' := by
  have hnodup' : (entries'.map Prod.fst).Nodup := (h.map Prod.fst).nodup_iff.1 hnodup
  refine List.Perm.eq_of_pairwise ?_ (pairwise_lt_sortByKey hnodup) (pairwise_lt_sortByKey hnodup')
    ((sortByKey_perm entries).trans (h.trans (sortByKey_perm entries').symm))
  intro a b _ _ hab hba
  exact absurd hba hab.asymm

theorem map_sortByKey (f : Text × α → β) (entries : List (Text × α)) :
    (sortByKey entries).map (fun entry => (entry.1, f entry)) =
      sortByKey (entries.map fun entry => (entry.1, f entry)) :=
  List.map_mergeSort fun _ _ _ _ => rfl

theorem lastOfEach_eq_self (h : entries.Pairwise fun a b => a.1 < b.1) :
    lastOfEach entries = entries := by
  fun_induction lastOfEach entries with
  | case1 => rfl
  | case2 entry => rfl
  | case3 first second rest heq ih =>
    have hlt : first.1 < second.1 := (List.pairwise_cons.1 h).1 second List.mem_cons_self
    exact absurd (beq_iff_eq.1 heq) hlt.ne
  | case4 first second rest hne ih => rw [ih h.of_cons]

theorem mem_of_mem_lastOfEach {entry : Text × α} (h : entry ∈ lastOfEach entries) :
    entry ∈ entries := by
  fun_induction lastOfEach entries with
  | case1 => exact h
  | case2 first => exact h
  | case3 first second rest heq ih => exact List.mem_cons_of_mem first (ih h)
  | case4 first second rest hne ih =>
    rcases List.mem_cons.1 h with rfl | h
    · exact List.mem_cons_self
    · exact List.mem_cons_of_mem first (ih h)

theorem lookup_eq_some_of_mem (h : (entries.map Prod.fst).Nodup) (hmem : (key, value) ∈ entries) :
    entries.lookup key = some value := by
  obtain ⟨before, after, rfl⟩ := List.append_of_mem hmem
  refine List.lookup_eq_some_iff.2 ⟨before, after, rfl, fun entry hentry => ?_⟩
  rw [List.map_append, List.map_cons] at h
  have hkey : key ∉ before.map Prod.fst := fun hkey =>
    (List.nodup_append.1 h).2.2 key hkey key List.mem_cons_self rfl
  rw [bne_iff_ne]
  rintro rfl
  exact hkey (List.mem_map_of_mem hentry)

/-! ### Sources -/

/-- The files that some sources are read as, in the order of their paths. -/
def readSources (sources : List (Text × Text)) : List (Text × ParsedFile) :=
  (sortByKey sources).map fun source => (source.1, .ofContent source.1 source.2)

theorem ofSources_eq (sources : List (Text × Text)) :
    ofSources sources = ofParsed (readSources sources) := by
  rw [readSources, map_sortByKey]
  rfl

theorem ofSources_singleton (path content : Text) :
    ofSources [(path, content)] = ofParsed [(path, .ofContent path content)] := by
  rw [ofSources_eq, readSources, sortByKey, List.mergeSort_singleton]
  rfl

theorem pairwise_readSources (h : (sources.map Prod.fst).Nodup) :
    (readSources sources).Pairwise fun a b => a.1 < b.1 :=
  List.pairwise_map.2 (pairwise_lt_sortByKey h)

/-- A registry does not depend on the order in which its sources arrive. -/
theorem ofSources_eq_of_perm (h : sources.Perm sources') (hpaths : (sources.map Prod.fst).Nodup) :
    ofSources sources = ofSources sources' := by
  rw [ofSources_eq, ofSources_eq, readSources, readSources, sortByKey_eq_of_perm h hpaths]

/-- Two files that both declare a type, the later one first. -/
theorem ofSources_swapped :
    ofSources [("b.lua".toList, "---@class A\n".toList), ("a.lua".toList, "---@class A\n".toList)] =
      ofSources [("a.lua".toList, "---@class A\n".toList), ("b.lua".toList, "---@class A\n".toList)] :=
  ofSources_eq_of_perm (.swap _ _ _) (by decide)

end LuaDocs.Registry
