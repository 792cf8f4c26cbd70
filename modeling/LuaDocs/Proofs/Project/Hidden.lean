import LuaDocs.Proofs.Project.Repeating
import LuaDocs.Proofs.Registry.Matching
import LuaDocs.Proofs.Source.Rewording

/-!
# Documentation that stays hidden

What is generated for a project comes from the functions for users in one file and from the types that
these lead to. The types of a registry, and which names are matched in it, depend on the types of its files
only, and the functions for users on those of the files. So whatever is written about other functions
leaves no trace in the generated text.
-/

namespace LuaDocs

/-! ### Registries that are the same for users -/

namespace Registry

variable {r r' : Registry} {parsed parsed' : List (Text × ParsedFile)}
  {sources sources' : List (Text × Text)}

/-- Two registries with the same types and, in every file, the same functions for users. -/
structure Agrees (r r' : Registry) : Prop where
  types : r.types = r'.types
  functions : ∀ path, r.exposedFunctions path = r'.exposedFunctions path

theorem type?_eq (h : r.types = r'.types) : r.type? = r'.type? := by
  funext n
  rw [type?, type?, h]

theorem discover_congr (h : r.types = r'.types) (seen names : List Text) :
    r.discover seen names = r'.discover seen names := by
  induction names generalizing seen with
  | nil => rfl
  | cons n names ih => simp only [discover, ih, type?_eq h]

theorem follow_congr (h : r.types = r'.types) (seen : List Text) (queue : List TypeDoc) :
    r.follow seen queue = r'.follow seen queue := by
  fun_induction r.follow seen queue with
  | case1 seen => rw [follow]
  | case2 seen t queue ih =>
    rw [ih]
    conv => rhs; rw [follow]
    rw [discover_congr h]

theorem referencedTypes_congr (h : r.types = r'.types) (functions : List FunctionDoc) :
    r.referencedTypes functions = r'.referencedTypes functions := by
  rw [referencedTypes, referencedTypes, discover_congr h]
  exact follow_congr h _ _

/-! ### From files to registries -/

theorem typesOf_congr
    (h : List.Forall₂ (fun a b => a.1 = b.1 ∧ Source.Agrees a.2.docs b.2.docs) parsed parsed') :
    typesOf parsed = typesOf parsed' := by
  induction h with
  | nil => rfl
  | cons hfile _ ih =>
    rw [typesOf, typesOf] at ih ⊢
    rw [List.flatMap_cons, List.flatMap_cons, hfile.2.types, ih]

theorem exposed_matched (known : Text → Bool) (docs : FileDocs) :
    Source.exposed (docs.matched known) = (Source.exposed docs).map (FunctionDoc.matched known) := by
  rw [Source.exposed, FileDocs.matched, List.filter_map]
  rfl

theorem exposedFunctions_eq (r : Registry) (path : Text) :
    r.exposedFunctions path = ((r.files.lookup path).map Source.exposed).getD [] := by
  rw [exposedFunctions, file?]
  cases r.files.lookup path <;> rfl

theorem lookup_congr {files files' : List (Text × FileDocs)}
    (h : List.Forall₂ (fun a b => a.1 = b.1 ∧ Source.exposed a.2 = Source.exposed b.2) files files')
    (path : Text) :
    (files.lookup path).map Source.exposed = (files'.lookup path).map Source.exposed := by
  induction h with
  | nil => rfl
  | @cons a b files files' hfile _ ih =>
    obtain ⟨key, docs⟩ := a
    obtain ⟨key', docs'⟩ := b
    obtain ⟨rfl, hdocs⟩ : key = key' ∧ Source.exposed docs = Source.exposed docs' := hfile
    rw [List.lookup_cons, List.lookup_cons]
    cases path == key with
    | true => exact congrArg some hdocs
    | false => exact ih

theorem agrees_ofParsed (hsorted : parsed.Pairwise fun a b => a.1 < b.1)
    (hsorted' : parsed'.Pairwise fun a b => a.1 < b.1)
    (h : List.Forall₂ (fun a b => a.1 = b.1 ∧ Source.Agrees a.2.docs b.2.docs) parsed parsed') :
    Agrees (ofParsed parsed) (ofParsed parsed') := by
  have hlookup (n : Text) :
      (indexFiles [] parsed').1.lookup n = (indexFiles [] parsed).1.lookup n := by
    rw [lookup_indexFiles, lookup_indexFiles, typesOf_congr h]
  rw [ofParsed_eq hsorted fun _ => rfl, ofParsed_eq hsorted' fun n => congrArg Option.isSome (hlookup n)]
  constructor
  · simp only [typesOf_congr h, hlookup]
  · intro path
    rw [exposedFunctions_eq, exposedFunctions_eq, lookup_congr]
    rw [List.forall₂_map_left_iff, List.forall₂_map_right_iff]
    refine h.imp fun a b hab => ⟨hab.1, ?_⟩
    dsimp only
    rw [exposed_matched, exposed_matched, hab.2.exposed]

theorem forall₂_of_keys {α β : Type} {R : Text × α → Text × β → Prop} {as : List (Text × α)}
    {bs : List (Text × β)} (hkeys : as.map Prod.fst = bs.map Prod.fst)
    (h : ∀ a ∈ as, ∀ b ∈ bs, a.1 = b.1 → R a b) : List.Forall₂ R as bs := by
  induction as generalizing bs with
  | nil =>
    rw [List.map_nil, eq_comm, List.map_eq_nil_iff] at hkeys
    rw [hkeys]
    exact .nil
  | cons a as ih =>
    obtain ⟨b, bs, rfl, hkey, hkeys⟩ := List.map_eq_cons_iff.1 hkeys.symm
    refine .cons (h a List.mem_cons_self b List.mem_cons_self hkey.symm) (ih hkeys.symm ?_)
    exact fun c hc d hd => h c (List.mem_cons_of_mem a hc) d (List.mem_cons_of_mem b hd)

theorem keys_sortByKey (hpaths : (sources.map Prod.fst).Nodup)
    (hsame : (sources.map Prod.fst).Perm (sources'.map Prod.fst)) :
    (sortByKey sources).map Prod.fst = (sortByKey sources').map Prod.fst := by
  have hsorted : ((sortByKey sources).map Prod.fst).Pairwise (· < ·) :=
    List.pairwise_map.2 (pairwise_lt_sortByKey hpaths)
  have hsorted' : ((sortByKey sources').map Prod.fst).Pairwise (· < ·) :=
    List.pairwise_map.2 (pairwise_lt_sortByKey (hsame.nodup_iff.1 hpaths))
  have hperm := ((sortByKey_perm sources).map Prod.fst).trans
    (hsame.trans ((sortByKey_perm sources').map Prod.fst).symm)
  refine hperm.eq_of_pairwise ?_ hsorted hsorted'
  exact fun _ _ _ _ hab hba => absurd hba hab.asymm

/-- The contents of some sources are replaced by others with reworded documentation of functions that are
not for users. -/
structure Rewording (sources sources' : List (Text × Text)) : Prop where
  distinct : (sources.map Prod.fst).Nodup
  paths : (sources.map Prod.fst).Perm (sources'.map Prod.fst)
  contents : ∀ path content content', (path, content) ∈ sources → (path, content') ∈ sources' →
    Source.Rewording path (Text.lines content) (Text.lines content')

theorem Rewording.agrees (h : Rewording sources sources') :
    Agrees (ofSources sources) (ofSources sources') := by
  rw [ofSources_eq, ofSources_eq]
  refine agrees_ofParsed (pairwise_readSources h.distinct)
    (pairwise_readSources (h.paths.nodup_iff.1 h.distinct)) ?_
  rw [readSources, readSources, List.forall₂_map_left_iff, List.forall₂_map_right_iff]
  refine forall₂_of_keys (keys_sortByKey h.distinct h.paths) ?_
  rintro ⟨path, content⟩ ha ⟨path', content'⟩ hb hpath
  obtain rfl : path = path' := hpath
  exact ⟨rfl, (h.contents path content content' (mem_sortByKey.1 ha) (mem_sortByKey.1 hb)).agrees⟩

end Registry

/-! ### What is generated -/

namespace Project

open Text

variable {sources sources' : List (Text × Text)}

/-- What is written about functions that are not for users does not come through: rewording it leaves the
functions of the interface and all that is generated as they are. -/
theorem generated_of_rewording (p : Project) (h : Registry.Rewording sources sources') :
    p.apiFunctions (.ofSources sources) = p.apiFunctions (.ofSources sources') ∧
      p.readmeApi (.ofSources sources) = p.readmeApi (.ofSources sources') ∧
      ∀ options, p.helpLines (.ofSources sources) options = p.helpLines (.ofSources sources') options := by
  have hagrees := h.agrees
  have hfunctions : p.apiFunctions (.ofSources sources) = p.apiFunctions (.ofSources sources') :=
    hagrees.functions p.apiFile
  have htypes := Registry.referencedTypes_congr hagrees.types
  refine ⟨hfunctions, ?_, fun options => ?_⟩
  · rw [readmeApi, readmeApi, hfunctions, Markdown.render, Markdown.render, htypes]
  · have hapi : p.apiSection (.ofSources sources) = p.apiSection (.ofSources sources') := by
      rw [apiSection, apiSection, hfunctions, Help.render, Help.render, htypes]
    rw [helpLines, helpLines, hapi]

def localLines (doc : Text) : List Text :=
  [doc, "local function add(a, b) end".toList, [], "---Adds a number to itself.".toList,
    "function M.twice(a) end".toList]

theorem rewording_localLines (file : Text) :
    Source.Rewording file (localLines "---Adds.".toList)
      (localLines "---@private to this file".toList) := by
  refine ⟨.cons (.inr ⟨rfl, rfl⟩) (List.forall₂_same.2 fun _ _ => .inl rfl), ?_⟩
  rintro first stop hrun ⟨i, hfirst, hstop, hchange⟩
  -- Only the first line has changed, and it is a run of its own.
  obtain rfl : i = 0 := by
    cases i with
    | zero => rfl
    | succ i => exact absurd rfl hchange
  have hone : Source.WholeRun (localLines "---Adds.".toList) 0 1 := by
    refine ⟨Nat.zero_le 1, fun i _ hi => ?_, nofun, ?_⟩
    · obtain rfl := Nat.lt_one_iff.1 hi
      exact ⟨_, rfl, rfl⟩
    · have hcode : (localLines "---Adds.".toList)[1]? = some "local function add(a, b) end".toList := rfl
      rw [Source.isDocAt_iff hcode]
      exact Bool.false_ne_true
  obtain rfl : stop = 1 := hrun.unique hone ⟨hfirst, hstop⟩ ⟨Nat.le_refl 0, Nat.one_pos⟩
  let add : Signature := ⟨"add".toList, true, false, ["a".toList, "b".toList]⟩
  have hlocal : (FunctionDoc.ofBlock (Block.above (localLines "---Adds.".toList) 1) add
      ⟨file, 2⟩).1.visibility = .local := rfl
  have hprivate : (FunctionDoc.ofBlock (Block.above (localLines "---@private to this file".toList) 1)
      add ⟨file, 2⟩).1.visibility = .hidden := rfl
  refine ⟨⟨rfl, rfl, add, rfl, ?_⟩, ⟨rfl, rfl, add, rfl, ?_⟩⟩
  · rw [hlocal]
    exact nofun
  · rw [hprivate]
    exact nofun

/-- The local function has another documentation in the second version of the file. -/
theorem generated_of_rewording_local :
    let sources := [("demo/init.lua".toList, unlines (localLines "---Adds.".toList))]
    let sources' := [("demo/init.lua".toList, unlines (localLines "---@private to this file".toList))]
    Registry.Rewording sources sources' ∧
      sample.apiFunctions (.ofSources sources) = sample.apiFunctions (.ofSources sources') ∧
      sample.readmeApi (.ofSources sources) = sample.readmeApi (.ofSources sources') ∧
      ∀ options, sample.helpLines (.ofSources sources) options =
        sample.helpLines (.ofSources sources') options := by
  intro sources sources'
  have h : Registry.Rewording sources sources' := by
    refine ⟨by decide, .refl _, ?_⟩
    intro path content content' hcontent hcontent'
    obtain ⟨rfl, rfl⟩ := Prod.mk.inj (List.mem_singleton.1 hcontent)
    obtain ⟨-, rfl⟩ := Prod.mk.inj (List.mem_singleton.1 hcontent')
    exact rewording_localLines _
  exact ⟨h, generated_of_rewording sample h⟩

end Project

end LuaDocs
