import LuaDocs.Proofs.Registry.Indexing
import LuaDocs.Proofs.TypeExpr.Canonical
import LuaDocs.Proofs.TypeExpr.Naming

/-!
# Matching names

A file in a registry is the file as it was read, with the names that some source declares matched in the
types of its declarations, at any depth, and with all else as it was. Matching is a run of steps that
report faults as they go; `Yields` says of a step what it gives and which faults it adds, for every list
of faults reported before, and every step of the run has one lemma that says so.
-/

namespace LuaDocs

/-! ### What matching makes of declarations -/

section

variable (known : Text → Bool)

def Member.matched (m : Member) : Member :=
  { m with type := m.type.matched known }

def ReturnValue.matched (r : ReturnValue) : ReturnValue :=
  { r with type := r.type.matched known }

def FunctionDoc.matched (f : FunctionDoc) : FunctionDoc :=
  { f with
    params := f.params.map (Member.matched known)
    returns := f.returns.map (ReturnValue.matched known) }

def TypeKind.matched : TypeKind → TypeKind
  | record parents fields =>
    record (parents.map (TypeExpr.matched known)) (fields.map (Member.matched known))
  | enumeration variants => enumeration variants
  | typeAlias t => typeAlias (t.matched known)

def TypeDoc.matched (t : TypeDoc) : TypeDoc :=
  { t with kind := t.kind.matched known }

def FileDocs.matched (docs : FileDocs) : FileDocs :=
  ⟨docs.functions.map (FunctionDoc.matched known), docs.types.map (TypeDoc.matched known)⟩

end

namespace Diagnostic

def isUnresolved : Diagnostic → Bool
  | unresolvedType _ _ => true
  | _ => false

end Diagnostic

namespace Registry

variable {α β : Type} {index : TypeIndex} {known : Text → Bool} {faults faults' : List Diagnostic}

/-! ### Steps that report faults -/

/-- The faults reported after one more. A name without a declaration is not reported twice for one
place. -/
def addFault (reported : List Diagnostic) (fault : Diagnostic) : List Diagnostic :=
  if fault.isUnresolved && reported.contains fault then reported else reported ++ [fault]

/-- A step gives a value and reports some faults, whatever was reported before. -/
def Yields (step : Reporting α) (value : α) (faults : List Diagnostic) : Prop :=
  ∀ reported, step.run reported = (value, faults.foldl addFault reported)

theorem yields_pure (value : α) : Yields (pure value) value [] :=
  fun _ => rfl

theorem yields_report (fault : Diagnostic) (h : fault.isUnresolved = false) :
    Yields (report fault) () [fault] := by
  intro reported
  rw [List.foldl_cons, addFault, h]
  rfl

theorem Yields.bind {step : Reporting α} {next : α → Reporting β} {a : α} {b : β}
    (h : Yields step a faults) (hnext : Yields (next a) b faults') :
    Yields (step >>= next) b (faults ++ faults') := by
  intro reported
  have hrun : (step >>= next).run reported =
      (next (step.run reported).1).run (step.run reported).2 := rfl
  rw [hrun, h reported, hnext, List.foldl_append]

theorem Yields.map {step : Reporting α} {a : α} (h : Yields step a faults) (f : α → β) :
    Yields (step >>= fun a => pure (f a)) (f a) faults := by
  have hbind : Yields (step >>= fun a => pure (f a)) (f a) (faults ++ []) :=
    h.bind (yields_pure (f a))
  rwa [List.append_nil] at hbind

theorem Yields.mapM {step : α → Reporting β} {f : α → β} {g : α → List Diagnostic} (as : List α)
    (h : ∀ a ∈ as, Yields (step a) (f a) (g a)) : Yields (as.mapM step) (as.map f) (as.flatMap g) := by
  induction as with
  | nil => exact yields_pure []
  | cons a as ih =>
    obtain ⟨ha, has⟩ := List.forall_mem_cons.1 h
    rw [List.mapM_cons, List.map_cons, List.flatMap_cons]
    exact ha.bind ((ih has).map (f a :: ·))

/-! ### Types -/

/-- The faults for the names of a type that are neither known nor expected. -/
def unresolvedIn (known : Text → Bool) (generics : List Text) (here : Location) (t : TypeExpr) :
    List Diagnostic :=
  t.names.flatMap fun n =>
    if known n || isExpected generics n then [] else [.unresolvedType here n]

theorem yields_mapNamesM {f : Text → Reporting TypeExpr} {g : Text → List Diagnostic}
    (h : ∀ n, Yields (f n) (TypeExpr.matched known (.named n)) (g n)) (t : TypeExpr) :
    Yields (t.mapNamesM f) (t.matched known) (t.names.flatMap g) := by
  have hall : ∀ ts : List TypeExpr,
      (∀ t ∈ ts, Yields (t.mapNamesM f) (t.matched known) (t.names.flatMap g)) →
      Yields (TypeExpr.mapNamesAllM f ts) (TypeExpr.matchedAll known ts)
        ((ts.flatMap TypeExpr.names).flatMap g) := by
    intro ts hts
    rw [TypeExpr.mapNamesAllM_eq_mapM, TypeExpr.matchedAll_eq_map, List.flatMap_assoc]
    exact Yields.mapM ts hts
  have hfields : ∀ fs : List (Text × TypeExpr),
      (∀ p ∈ fs, Yields (p.2.mapNamesM f) (p.2.matched known) (p.2.names.flatMap g)) →
      Yields (TypeExpr.mapNamesFieldsM f fs) (TypeExpr.matchedFields known fs)
        ((fs.flatMap fun p => p.2.names).flatMap g) := by
    intro fs hfs
    rw [TypeExpr.mapNamesFieldsM_eq_mapM, TypeExpr.matchedFields_eq_map, List.flatMap_assoc]
    exact Yields.mapM fs fun p hp => (hfs p hp).map (p.1, ·)
  induction t using TypeExpr.inductionOnParts with
  | builtin b => exact yields_pure _
  | declared n => exact yields_pure _
  | literal s => exact yields_pure _
  | named n =>
    rw [TypeExpr.names_named, List.flatMap_singleton]
    exact h n
  | array t ih => exact ih.map TypeExpr.array
  | optional t ih => exact ih.map TypeExpr.optional
  | union ts ih =>
    rw [TypeExpr.names_union]
    exact (hall ts ih).map TypeExpr.union
  | container n ts ih =>
    rw [TypeExpr.names_container]
    exact (hall ts ih).map (TypeExpr.container n)
  | function ps rs ihps ihrs =>
    rw [TypeExpr.names_function, List.flatMap_append]
    exact (hfields ps ihps).bind ((hall rs ihrs).map (TypeExpr.function _))
  | table fs ih =>
    rw [TypeExpr.names_table]
    exact (hfields fs ih).map TypeExpr.table

section

variable (hindex : ∀ n, (index.lookup n).isSome = known n)

include hindex

theorem yields_resolveName (generics : List Text) (here : Location) (n : Text) :
    Yields (resolveName index generics here n) (TypeExpr.matched known (.named n))
      (if known n || isExpected generics n then [] else [.unresolvedType here n]) := by
  intro reported
  rw [resolveName, hindex, TypeExpr.matched]
  cases hknown : known n with
  | true => rfl
  | false =>
    cases hexpected : isExpected generics n with
    | true => rfl
    | false =>
      -- What is left of the step asks whether the fault has been reported, and so does `addFault`.
      have hrun : ∀ r : List Diagnostic, (if r.contains (.unresolvedType here n) then
          (pure (.named n) : Reporting TypeExpr) else do
            report (.unresolvedType here n)
            return .named n).run r = (.named n, addFault r (.unresolvedType here n)) := by
        intro r
        rw [addFault]
        cases r.contains (.unresolvedType here n) with
        | true => rfl
        | false => rfl
      exact hrun reported

theorem yields_resolve (generics : List Text) (here : Location) (t : TypeExpr) :
    Yields (resolve index generics here t) (t.matched known) (unresolvedIn known generics here t) :=
  yields_mapNamesM (yields_resolveName hindex generics here) t

theorem yields_resolveMember (generics : List Text) (here : Location) (m : Member) :
    Yields (resolveMember index generics here m) (m.matched known)
      (unresolvedIn known generics here m.type) := by
  have htype := yields_resolve hindex generics here m.type
  exact htype.map (Member.mk m.name · m.description m.optional)

theorem yields_resolveReturn (generics : List Text) (here : Location) (r : ReturnValue) :
    Yields (resolveReturn index generics here r) (r.matched known)
      (unresolvedIn known generics here r.type) := by
  have htype := yields_resolve hindex generics here r.type
  exact htype.map (ReturnValue.mk · r.description)

/-- The faults for the names in a function: those of its types, then the collision of its own name with
that of a type. -/
def functionFaults (index : TypeIndex) (known : Text → Bool) (path : Text) (f : FunctionDoc) :
    List Diagnostic :=
  (f.types.flatMap (unresolvedIn known f.generics f.location)) ++
    ((index.lookup (qualifiedName path f)).map fun declared =>
      .duplicateName (qualifiedName path f) (Location.ordered declared f.location).1
        (Location.ordered declared f.location).2).toList

theorem yields_resolveFunction (path : Text) (f : FunctionDoc) :
    Yields (resolveFunction index path f) (f.matched known) (functionFaults index known path f) := by
  have hparams := Yields.mapM f.params fun m _ =>
    yields_resolveMember hindex f.generics f.location m
  have hreturns := Yields.mapM f.returns fun r _ =>
    yields_resolveReturn hindex f.generics f.location r
  have htypes : f.types.flatMap (unresolvedIn known f.generics f.location) =
      (f.params.flatMap fun m => unresolvedIn known f.generics f.location m.type) ++
        f.returns.flatMap fun r => unresolvedIn known f.generics f.location r.type := by
    rw [FunctionDoc.types, List.flatMap_append, List.flatMap_map, List.flatMap_map]
  rw [functionFaults, htypes, List.append_assoc]
  -- The name of the function is looked up last, when all its types have been gone through.
  refine hparams.bind (hreturns.bind ?_)
  dsimp only
  cases index.lookup (qualifiedName path f) with
  | none => exact yields_pure (f.matched known)
  | some declared =>
    have hreport := yields_report (.duplicateName (qualifiedName path f)
      (Location.ordered declared f.location).1 (Location.ordered declared f.location).2) rfl
    exact hreport.map fun _ => f.matched known

def typeFaults (known : Text → Bool) (t : TypeDoc) : List Diagnostic :=
  t.types.flatMap (unresolvedIn known t.generics t.location)

theorem yields_resolveType (t : TypeDoc) :
    Yields (resolveType index t) (t.matched known) (typeFaults known t) := by
  obtain ⟨name, generics, kind, description, location⟩ := t
  have hresolve := yields_resolve hindex generics location
  cases kind with
  | enumeration variants => exact yields_pure _
  | typeAlias type =>
    rw [typeFaults, TypeDoc.types, TypeKind.types, List.flatMap_singleton]
    exact (hresolve type).map fun type => TypeDoc.mk name generics (.typeAlias type) description location
  | record parents fields =>
    have hparents := Yields.mapM parents fun p _ => hresolve p
    have hfields := Yields.mapM fields fun m _ =>
      yields_resolveMember hindex generics location m
    have htypes : (parents ++ fields.map (·.type)).flatMap (unresolvedIn known generics location) =
        parents.flatMap (unresolvedIn known generics location) ++
          fields.flatMap fun m => unresolvedIn known generics location m.type := by
      rw [List.flatMap_append, List.flatMap_map]
    rw [typeFaults, TypeDoc.types, TypeKind.types, htypes]
    exact hparents.bind (hfields.map fun fields => TypeDoc.mk name generics
      (.record (parents.map (TypeExpr.matched known)) fields) description location)

def fileFaults (index : TypeIndex) (known : Text → Bool) (path : Text) (docs : FileDocs) :
    List Diagnostic :=
  docs.functions.flatMap (functionFaults index known path) ++ docs.types.flatMap (typeFaults known)

theorem yields_resolveFile (path : Text) (docs : FileDocs) :
    Yields (resolveFile index (path, docs)) (path, docs.matched known)
      (fileFaults index known path docs) := by
  have hfunctions := Yields.mapM docs.functions fun f _ =>
    yields_resolveFunction hindex path f
  have htypes := Yields.mapM docs.types fun t _ => yields_resolveType hindex t
  exact hfunctions.bind (htypes.map fun types =>
    (path, FileDocs.mk (docs.functions.map (FunctionDoc.matched known)) types))

end

/-- The registry of files in the order of their paths: the last file of each path with its known names
matched, the winners among the types of these, and the faults of both passes. -/
theorem ofParsed_eq_lastOfEach {parsed : List (Text × ParsedFile)}
    (hindex : ∀ n, ((indexFiles [] parsed).1.lookup n).isSome = known n) :
    ofParsed parsed =
      { files := (lastOfEach parsed).map fun file => (file.1, file.2.docs.matched known)
        types := ((typesOf (lastOfEach parsed)).map (TypeDoc.matched known)).filter fun t =>
          (indexFiles [] parsed).1.lookup t.name == some t.location
        diagnostics := (indexFiles [] parsed).2 ++ ((lastOfEach parsed).flatMap fun file =>
          fileFaults (indexFiles [] parsed).1 known file.1 file.2.docs).foldl addFault [] } := by
  have hfiles := Yields.mapM ((lastOfEach parsed).map fun file => (file.1, file.2.docs)) fun file _ =>
    yields_resolveFile hindex file.1 file.2
  rw [List.map_map, List.flatMap_map] at hfiles
  have htypes : ((lastOfEach parsed).map fun file => (file.1, file.2.docs.matched known)).flatMap
      (·.2.types) = (typesOf (lastOfEach parsed)).map (TypeDoc.matched known) := by
    rw [typesOf, List.flatMap_map, List.map_flatMap]
    rfl
  rw [ofParsed, ← htypes]
  dsimp only
  rw [hfiles []]
  rfl

/-- The registry of files with different paths, in the order of these. -/
theorem ofParsed_eq {parsed : List (Text × ParsedFile)} (hsorted : parsed.Pairwise fun a b => a.1 < b.1)
    (hindex : ∀ n, ((indexFiles [] parsed).1.lookup n).isSome = known n) :
    ofParsed parsed =
      { files := parsed.map fun file => (file.1, file.2.docs.matched known)
        types := ((typesOf parsed).map (TypeDoc.matched known)).filter fun t =>
          (indexFiles [] parsed).1.lookup t.name == some t.location
        diagnostics := (indexFiles [] parsed).2 ++ (parsed.flatMap fun file =>
          fileFaults (indexFiles [] parsed).1 known file.1 file.2.docs).foldl addFault [] } := by
  rw [ofParsed_eq_lastOfEach hindex, lastOfEach_eq_self hsorted]

/-! ### Functions -/

def functions (r : Registry) : List FunctionDoc :=
  r.files.flatMap (·.2.functions)

/-- Every function of a registry is one of a source with the known names matched, also when sources
share a path. -/
theorem exists_matched_of_mem_functions {sources : List (Text × Text)} {f : FunctionDoc}
    (hf : f ∈ (ofSources sources).functions) :
    ∃ source ∈ sources, ∃ g ∈ (ParsedFile.ofContent source.1 source.2).docs.functions,
      f = g.matched (declares sources) := by
  rw [functions, ofSources_eq, ofParsed_eq_lastOfEach (isSome_lookup_indexFiles sources),
    List.flatMap_map, List.mem_flatMap] at hf
  obtain ⟨file, hfile, hf⟩ := hf
  obtain ⟨source, hsource, rfl⟩ := List.mem_map.1 (mem_of_mem_lastOfEach hfile)
  obtain ⟨g, hg, rfl⟩ := List.mem_map.1 hf
  exact ⟨source, mem_sortByKey.1 hsource, g, hg, rfl⟩

end Registry

/-- The registry of sources with different paths has exactly these paths, and under each the
declarations of the source, with every name that some source declares matched at any depth in their
types and with all else unchanged. -/
theorem Registry.files_ofSources {sources : List (Text × Text)}
    (hpaths : (sources.map Prod.fst).Nodup) :
    ((ofSources sources).files.map Prod.fst).Perm (sources.map Prod.fst) ∧
      ∀ source ∈ sources, (ofSources sources).file? source.1 =
        some ((ParsedFile.ofContent source.1 source.2).docs.matched (declares sources)) := by
  have hfiles : (ofSources sources).files = (sortByKey sources).map fun source =>
      (source.1, (ParsedFile.ofContent source.1 source.2).docs.matched (declares sources)) := by
    rw [ofSources_eq,
      ofParsed_eq (pairwise_readSources hpaths) (isSome_lookup_indexFiles sources), readSources,
      List.map_map]
    rfl
  have hkeys : (ofSources sources).files.map Prod.fst = (sortByKey sources).map Prod.fst := by
    rw [hfiles, List.map_map]
    rfl
  have hperm : ((ofSources sources).files.map Prod.fst).Perm (sources.map Prod.fst) := by
    rw [hkeys]
    exact (sortByKey_perm sources).map Prod.fst
  refine ⟨hperm, fun source hsource => ?_⟩
  refine lookup_eq_some_of_mem (hperm.nodup_iff.2 hpaths) ?_
  rw [hfiles]
  exact List.mem_map.2 ⟨source, mem_sortByKey.2 hsource, rfl⟩

open TypeExpr in
/-- Two classes that refer to each other, one of them with a name that no file declares. -/
theorem Registry.files_ofSources_cyclic :
    let sources := [("b.lua".toList, "---@class B : A\n".toList),
      ("a.lua".toList, "---@class A : fun(x: B): C\n".toList)]
    let extending (name : Text) (parent : TypeExpr) (file : Text) : FileDocs :=
      ⟨[], [⟨name, [], .record [parent] [], [], ⟨file, 1⟩⟩]⟩
    (sources.map Prod.fst).Nodup ∧
      ((ofSources sources).files.map Prod.fst).Perm ["b.lua".toList, "a.lua".toList] ∧
      (ofSources sources).file? "b.lua".toList =
        some (extending "B".toList (declared "A".toList) "b.lua".toList) ∧
      (ofSources sources).file? "a.lua".toList = some (extending "A".toList
        (function [("x".toList, declared "B".toList)] [named "C".toList]) "a.lua".toList) := by
  intro sources extending
  have hpaths : (sources.map Prod.fst).Nodup := by decide
  obtain ⟨hkeys, hfiles⟩ := files_ofSources hpaths
  have hname : Canonical (named "A".toList) :=
    .named (ident_of_all rfl rfl (by decide)) (by decide) (by decide) (by decide)
  have hfunction : Canonical (function [("x".toList, named "B".toList)] [named "C".toList]) := by
    refine .function (List.forall_mem_singleton.2 (.required (ident_of_all rfl rfl (by decide))))
      (List.forall_mem_singleton.2 ?_) (Nat.le_refl 1) (List.forall_mem_singleton.2 ?_) <;>
    exact .named (ident_of_all rfl rfl (by decide)) (by decide) (by decide) (by decide)
  have hb : (ParsedFile.ofContent "b.lua".toList "---@class B : A\n".toList).docs =
      extending "B".toList (parse (named "A".toList).print) "b.lua".toList := by rfl
  have ha : (ParsedFile.ofContent "a.lua".toList "---@class A : fun(x: B): C\n".toList).docs =
      extending "A".toList
        (parse (function [("x".toList, named "B".toList)] [named "C".toList]).print)
        "a.lua".toList := by rfl
  refine ⟨hpaths, hkeys, ?_, ?_⟩
  · rw [hfiles ("b.lua".toList, _) (.head _), hb, hname.parse_print]
    rfl
  · rw [hfiles ("a.lua".toList, _) (.tail _ (.head _)), ha, hfunction.parse_print]
    rfl

end LuaDocs
