import LuaDocs.Proofs.Registry.Duplicates

/-!
# Names that no source declares

A name that nothing stands for is reported at the place of the declaration that mentions it. One list of
reports goes through the whole run, so a name is reported once for a place, in however many types of the
declaration it stands and at whatever depth. Names are matched when all files have been indexed, so a
declaration in a later file counts like one in an earlier file.
-/

namespace LuaDocs

def Diagnostic.unresolved? : Diagnostic → Option (Location × Text)
  | unresolvedType here n => some (here, n)
  | _ => none

theorem Diagnostic.unresolved?_eq_some {fault : Diagnostic} {here : Location} {n : Text} :
    fault.unresolved? = some (here, n) ↔ fault = .unresolvedType here n := by
  cases fault <;> simp [unresolved?]

theorem Diagnostic.mem_unresolved {faults : List Diagnostic} {here : Location} {n : Text} :
    (here, n) ∈ faults.filterMap unresolved? ↔ .unresolvedType here n ∈ faults := by
  simp [List.mem_filterMap, unresolved?_eq_some]

namespace Registry

open Diagnostic

variable {sources : List (Text × Text)} {index : TypeIndex} {known : Text → Bool}
  {fault : Diagnostic} {faults reported : List Diagnostic} {generics : List Text} {here : Location}
  {path n : Text} {ts : List TypeExpr} {types : List TypeDoc} {parsed : List (Text × ParsedFile)}

/-! ### One list of reports -/

theorem mem_addFault (fault' : Diagnostic) :
    fault ∈ addFault reported fault' ↔ fault ∈ reported ∨ fault = fault' := by
  rw [addFault]
  split
  · next hskip =>
    have hmem : fault' ∈ reported := by simp_all
    refine ⟨Or.inl, fun h => h.elim id ?_⟩
    rintro rfl
    exact hmem
  · rw [List.mem_append, List.mem_singleton]

theorem mem_foldl_addFault :
    fault ∈ faults.foldl addFault reported ↔ fault ∈ reported ∨ fault ∈ faults := by
  induction faults generalizing reported with
  | nil => simp
  | cons fault' faults ih => rw [List.foldl_cons, ih, mem_addFault, List.mem_cons, or_assoc]

theorem nodup_addFault (h : (reported.filterMap unresolved?).Nodup) (fault : Diagnostic) :
    ((addFault reported fault).filterMap unresolved?).Nodup := by
  rw [addFault]
  split
  · exact h
  · next hnew =>
    rw [List.filterMap_append]
    cases fault with
    | unresolvedType here n =>
      have hnot : (here, n) ∉ reported.filterMap unresolved? := by
        rw [mem_unresolved]
        intro hmem
        apply hnew
        simp [isUnresolved, hmem]
      apply h.append (List.nodup_singleton (here, n))
      exact List.disjoint_singleton.2 hnot
    | _ => exact (List.append_nil _).symm ▸ h

theorem nodup_foldl_addFault (faults : List Diagnostic) (h : (reported.filterMap unresolved?).Nodup) :
    ((faults.foldl addFault reported).filterMap unresolved?).Nodup := by
  induction faults generalizing reported with
  | nil => exact h
  | cons fault faults ih => exact ih (nodup_addFault h fault)

/-! ### Faults of the first pass -/

theorem not_unresolved_indexTypes (here : Location) (n : Text) :
    .unresolvedType here n ∉ (indexTypes index types).2 := by
  induction types generalizing index with
  | nil => exact List.not_mem_nil
  | cons t types ih =>
    rw [indexTypes]
    cases index.lookup t.name with
    | none => exact ih
    | some first =>
      rw [List.mem_cons, not_or]
      refine ⟨fun heq => ?_, ih⟩
      cases heq

theorem not_unresolved_indexFiles (here : Location) (n : Text)
    (h : ∀ file ∈ parsed, .unresolvedType here n ∉ file.2.diagnostics) :
    .unresolvedType here n ∉ (indexFiles index parsed).2 := by
  induction parsed generalizing index with
  | nil => exact List.not_mem_nil
  | cons file parsed ih =>
    obtain ⟨hfile, hparsed⟩ := List.forall_mem_cons.1 h
    rw [indexFiles, List.mem_append, List.mem_append, not_or, not_or]
    exact ⟨⟨hfile, not_unresolved_indexTypes here n⟩, ih hparsed⟩

theorem not_unresolved_ofContent (file content : Text) (here : Location) (n : Text) :
    .unresolvedType here n ∉ (ParsedFile.ofContent file content).diagnostics :=
  fun h => Bool.false_ne_true (isLocal_of_mem_ofContent h)

/-! ### Open mentions -/

/-- Some types mention a name that nothing stands for: it stands at a leaf of one of them, at any depth, no
source declares it, and it is neither the receiver nor one of the type parameters. -/
structure Mentions (sources : List (Text × Text)) (generics : List Text) (types : List TypeExpr)
    (n : Text) : Prop where
  leaf : ∃ t ∈ types, (TypeExpr.named n).Inside t
  undeclared : declares sources n = false
  not_receiver : n ≠ "self".toList
  not_generic : n ∉ generics

/-- A function or a type of a source, declared at a place, mentions a name that nothing stands for. -/
def MentionsAt (sources : List (Text × Text)) (docs : FileDocs) (here : Location) (n : Text) : Prop :=
  (∃ f ∈ docs.functions, f.location = here ∧ Mentions sources f.generics f.types n) ∨
    ∃ t ∈ docs.types, t.location = here ∧ Mentions sources t.generics t.types n

theorem mem_unresolvedIn {place : Location} :
    .unresolvedType here n ∈ ts.flatMap (unresolvedIn (declares sources) generics place) ↔
      place = here ∧ Mentions sources generics ts n := by
  have hname (m : Text) : unresolvedType here n ∈
      (if declares sources m || isExpected generics m then [] else [unresolvedType place m]) ↔
        (place = here ∧ m = n) ∧ declares sources m = false ∧ isExpected generics m = false := by
    cases declares sources m <;> cases isExpected generics m <;>
      simp [eq_comm (a := here), eq_comm (a := n)]
  have hleaf (t : TypeExpr) : n ∈ t.names ↔ (TypeExpr.named n).Inside t := by
    rw [TypeExpr.names, List.mem_filterMap, ← TypeExpr.mem_subterms_iff]
    constructor
    · rintro ⟨s, hs, hopen⟩
      cases s with
      | named m =>
        obtain rfl := Option.some.inj hopen
        exact hs
      | _ => cases hopen
    · exact fun h => ⟨_, h, rfl⟩
  have hexpected : isExpected generics n = false ↔ n ≠ "self".toList ∧ n ∉ generics := by
    rw [isExpected, Bool.or_eq_false_iff, beq_eq_false_iff_ne, ← Bool.not_eq_true,
      List.contains_iff_mem]
  simp only [List.mem_flatMap, unresolvedIn]
  constructor
  · rintro ⟨t, ht, m, hm, hfault⟩
    obtain ⟨⟨rfl, rfl⟩, hundeclared, hnot⟩ := (hname m).1 hfault
    obtain ⟨hself, hgeneric⟩ := hexpected.1 hnot
    exact ⟨rfl, ⟨t, ht, (hleaf t).1 hm⟩, hundeclared, hself, hgeneric⟩
  · rintro ⟨rfl, ⟨t, ht, hinside⟩, hundeclared, hself, hgeneric⟩
    refine ⟨t, ht, n, (hleaf t).2 hinside, (hname n).2 ⟨⟨rfl, rfl⟩, hundeclared, ?_⟩⟩
    exact hexpected.2 ⟨hself, hgeneric⟩

theorem mem_fileFaults {docs : FileDocs} :
    .unresolvedType here n ∈ fileFaults index (declares sources) path docs ↔
      MentionsAt sources docs here n := by
  have hfunction (f : FunctionDoc) :
      .unresolvedType here n ∈ functionFaults index (declares sources) path f ↔
        f.location = here ∧ Mentions sources f.generics f.types n := by
    rw [functionFaults, List.mem_append, mem_unresolvedIn, or_iff_left]
    cases index.lookup (qualifiedName path f) <;> simp
  rw [fileFaults, List.mem_append, List.mem_flatMap, List.mem_flatMap, MentionsAt]
  simp only [hfunction, typeFaults, mem_unresolvedIn]

/-- A name without a declaration is reported exactly once for every place at which a function or a type of
some source mentions it, and for no other place. -/
theorem unresolved_ofSources (hpaths : (sources.map Prod.fst).Nodup) :
    let reported := (ofSources sources).diagnostics.filterMap unresolved?
    reported.Nodup ∧ ∀ here n, (here, n) ∈ reported ↔
      ∃ source ∈ sources,
        MentionsAt sources (ParsedFile.ofContent source.1 source.2).docs here n := by
  intro reported
  -- Reading and indexing report no open names, so all of them come up when names are matched.
  have hindexed (here : Location) (n : Text) :
      .unresolvedType here n ∉ (indexFiles [] (readSources sources)).2 := by
    apply not_unresolved_indexFiles
    intro file hfile
    obtain ⟨source, -, rfl⟩ := List.mem_map.1 hfile
    exact not_unresolved_ofContent source.1 source.2 here n
  have hfirst : (indexFiles [] (readSources sources)).2.filterMap unresolved? = [] := by
    apply List.eq_nil_iff_forall_not_mem.2
    rintro ⟨here, n⟩ hmem
    exact hindexed here n (mem_unresolved.1 hmem)
  refine ⟨?_, fun here n => ?_⟩
  · show ((ofSources sources).diagnostics.filterMap unresolved?).Nodup
    rw [(ofSources_fields hpaths).2, List.filterMap_append, hfirst, List.nil_append]
    exact nodup_foldl_addFault _ List.nodup_nil
  · show (here, n) ∈ (ofSources sources).diagnostics.filterMap unresolved? ↔ _
    rw [mem_unresolved, (ofSources_fields hpaths).2, List.mem_append, or_iff_right (hindexed here n),
      mem_foldl_addFault, or_iff_right List.not_mem_nil, readSources, List.flatMap_map]
    simp only [List.mem_flatMap, mem_fileFaults, mem_sortByKey]

open TypeExpr in
/-- A name that one class mentions twice and another one once, beside a declared name and a type
parameter. -/
theorem unresolved_ofSources_twice :
    let sources := [("b.lua".toList, "---@class B<T> : A|fun(y: A[]): T\n".toList),
      ("a.lua".toList, "---@class C : A, B\n".toList)]
    (sources.map Prod.fst).Nodup ∧
      ((ofSources sources).diagnostics.filterMap Diagnostic.unresolved?).Perm
        [(⟨"b.lua".toList, 1⟩, "A".toList), (⟨"a.lua".toList, 1⟩, "A".toList)] := by
  intro sources
  have hpaths : (sources.map Prod.fst).Nodup := by decide
  obtain ⟨hnodup, hreports⟩ := unresolved_ofSources hpaths
  refine ⟨hpaths, (List.perm_ext_iff_of_nodup hnodup (by decide)).2 fun (here, n) => ?_⟩
  have ha : Canonical (named "A".toList) :=
    .named (ident_of_all rfl rfl (by decide)) (by decide) (by decide) (by decide)
  have hb : Canonical (named "B".toList) :=
    .named (ident_of_all rfl rfl (by decide)) (by decide) (by decide) (by decide)
  have ht : Canonical (named "T".toList) :=
    .named (ident_of_all rfl rfl (by decide)) (by decide) (by decide) (by decide)
  have hfunction : Canonical (function [("y".toList, array (named "A".toList))] [named "T".toList]) :=
    .function (List.forall_mem_singleton.2 (.required (ident_of_all rfl rfl (by decide))))
      (List.forall_mem_singleton.2 (.array ha)) (Nat.le_refl 1) (List.forall_mem_singleton.2 ht)
  have hunion : Canonical (union [named "A".toList,
      function [("y".toList, array (named "A".toList))] [named "T".toList]]) :=
    canonical_union_pair ha hfunction rfl rfl rfl
  have hfirst : (ParsedFile.ofContent "b.lua".toList
      "---@class B<T> : A|fun(y: A[]): T\n".toList).docs = ⟨[], [⟨"B".toList, ["T".toList],
        .record [union [named "A".toList,
          function [("y".toList, array (named "A".toList))] [named "T".toList]]] [], [],
        ⟨"b.lua".toList, 1⟩⟩]⟩ := by
    rw [← hunion.parse_print]
    rfl
  have hsecond : (ParsedFile.ofContent "a.lua".toList "---@class C : A, B\n".toList).docs =
      ⟨[], [⟨"C".toList, [], .record [named "A".toList, named "B".toList] [], [],
        ⟨"a.lua".toList, 1⟩⟩]⟩ := by
    rw [← ha.parse_print, ← hb.parse_print]
    rfl
  have hfaults : sources.flatMap (fun source => fileFaults [] (declares sources) []
      (ParsedFile.ofContent source.1 source.2).docs) =
        [.unresolvedType ⟨"b.lua".toList, 1⟩ "A".toList,
          .unresolvedType ⟨"b.lua".toList, 1⟩ "A".toList,
          .unresolvedType ⟨"a.lua".toList, 1⟩ "A".toList] := by
    simp only [sources, List.flatMap_cons, List.flatMap_nil, hfirst, hsecond]
    rfl
  have hmentions (docs : FileDocs) : MentionsAt sources docs here n ↔
      .unresolvedType here n ∈ fileFaults [] (declares sources) [] docs := mem_fileFaults.symm
  simp only [hreports, hmentions, ← List.mem_flatMap, hfaults]
  simp

end Registry

end LuaDocs
