import LuaDocs.Proofs.Registry.Duplicates
import LuaDocs.Proofs.Render.Reachable
import LuaDocs.Proofs.Source.Parameters

/-!
# Documented types

The documentation of a function comes with the declarations that its types lead to. A name leads somewhere
from a leaf, where it is matched to its declaration; the name at the head of a container is part of that
node and is never matched. So a declared type is documented when a leaf of a signature has its name, and a
type that signatures name only at the heads of containers is not.
-/

namespace LuaDocs

variable {sources : List (Text × Text)} {f : FunctionDoc} {n : Text} {t : TypeExpr}

namespace TypeExpr

/-- A name stands at a leaf of a type, matched to a declaration or not. -/
def HasLeaf (n : Text) (t : TypeExpr) : Prop :=
  (named n).Inside t ∨ (declared n).Inside t

/-- A name stands at the head of a container in a type. -/
def HasHead (n : Text) (t : TypeExpr) : Prop :=
  ∃ ts, (container n ts).Inside t

end TypeExpr

namespace Registry

/-- The declaration that a name stands for is documented with a function. -/
def Documents (r : Registry) (f : FunctionDoc) (n : Text) : Prop :=
  ∃ t, r.type? n = some t ∧ t ∈ r.referencedTypes [f]

theorem exists_type?_of_declares (hpaths : (sources.map Prod.fst).Nodup) (hn : declares sources n = true) :
    ∃ t, (ofSources sources).type? n = some t := by
  rw [← isSome_lookup_indexFiles, lookup_index hpaths, Option.isSome_map] at hn
  obtain ⟨t, ht⟩ := Option.isSome_iff_exists.1 hn
  refine ⟨t.matched (declares sources), ?_⟩
  rw [type?_ofSources hpaths, ht, Option.map_some]

theorem types_matched (known : Text → Bool) (f : FunctionDoc) :
    (f.matched known).types = f.types.map (TypeExpr.matched known) := by
  simp only [FunctionDoc.types, FunctionDoc.matched, List.map_map, List.map_append]
  rfl

/-- In a registry every leaf with a declared name is matched to its declaration. -/
theorem inside_of_hasLeaf (hf : f ∈ (ofSources sources).functions) (hn : declares sources n = true)
    (ht : t ∈ f.types) (hleaf : t.HasLeaf n) : (TypeExpr.declared n).Inside t := by
  rcases hleaf with hopen | hmatched
  · obtain ⟨source, -, g, -, rfl⟩ := exists_matched_of_mem_functions hf
    rw [types_matched] at ht
    obtain ⟨s, -, rfl⟩ := List.mem_map.1 ht
    exact absurd hopen (TypeExpr.not_inside_matched_of_known hn s)
  · exact hmatched

/-- A declared type is documented with a function if a leaf of the function's types has its name, and in
any case exactly if these types lead to its name. -/
theorem documents_declared (hpaths : (sources.map Prod.fst).Nodup)
    (hf : f ∈ (ofSources sources).functions) (hn : declares sources n = true) :
    ((∃ t ∈ f.types, t.HasLeaf n) → (ofSources sources).Documents f n) ∧
      ((ofSources sources).Documents f n ↔ (ofSources sources).Reaches f.types n) := by
  have htypes : [f].flatMap (·.types) = f.types := List.flatMap_singleton _ _
  have hiff : (ofSources sources).Documents f n ↔ (ofSources sources).Reaches f.types n := by
    constructor
    · rintro ⟨t, ht, hmem⟩
      obtain ⟨m, hm, hmt⟩ := mem_referencedTypes_iff.1 hmem
      -- A declaration is known by one name only.
      obtain rfl : m = n := (name_of_type? hmt).symm.trans (name_of_type? ht)
      rwa [htypes] at hm
    · intro hreaches
      obtain ⟨t, ht⟩ := exists_type?_of_declares hpaths hn
      refine ⟨t, ht, mem_referencedTypes_of_reaches ?_ ht⟩
      rwa [htypes]
  refine ⟨?_, hiff⟩
  rintro ⟨t, ht, hleaf⟩
  exact hiff.2 (.mentioned ht (inside_of_hasLeaf hf hn ht hleaf))

/-! ### A class in two places -/

def boxText : Text :=
  "---@class Box<T>\n\n---@param b Box<number>\nfunction f(b) end\n\n".toList ++
    "---@param b Box[]\nfunction g(b) end\n".toList

def boxLines : List Text :=
  ["---@class Box<T>".toList, [], "---@param b Box<number>".toList, "function f(b) end".toList, [],
    "---@param b Box[]".toList, "function g(b) end".toList]

def entryOf (t : TypeExpr) : Tag.ParamEntry :=
  ⟨"b".toList, false, t, none⟩

def functionOf (name : Text) (t : TypeExpr) (line : Nat) : FunctionDoc :=
  { name, declaredName := name, params := [(entryOf t).member], returns := [], description := []
    note := none, deprecated := none, generics := [], visibility := .exposed
    location := ⟨"a.lua".toList, line⟩ }

theorem declarationAt_entryOf (ht : TypeExpr.Canonical t) (name : Text) (idx : Nat)
    (hblock : Block.above boxLines idx = [Source.docLine (entryOf t, idx)])
    (hcode : (Source.codeAt? boxLines idx).bind Signature.parse? =
      some ⟨name, false, false, ["b".toList]⟩)
    (hname : Signature.lastPart name = name) (hvisible : ['_'].isPrefixOf name = false) :
    Source.declarationAt "a.lua".toList boxLines idx = (⟨[functionOf name t (idx + 1)], []⟩, []) := by
  have hentry : (entryOf t).Readable := ⟨.simple rfl nofun, ht, nofun⟩
  obtain ⟨target, hread⟩ := Source.read_docLines "a.lua".toList .empty
    (List.forall_mem_singleton.2 hentry) idx
  rw [List.zipIdx_singleton, List.map_singleton] at hread
  have hmember : (entryOf t).member.name = "b".toList := rfl
  have hfunction : FunctionDoc.ofBlock [Source.docLine (entryOf t, idx)]
      ⟨name, false, false, ["b".toList]⟩ ⟨"a.lua".toList, idx + 1⟩ =
        (functionOf name t (idx + 1), []) := by
    rw [FunctionDoc.ofBlock]
    dsimp only
    rw [hread, hname]
    simp only [FunctionDraft.empty, List.nil_append, List.map_singleton, hmember,
      Source.mismatches_self, FunctionDoc.visibilityOf, hvisible]
    rfl
  rw [Source.declarationAt, FileDocs.ofBlock, hblock, hcode]
  simp only [hfunction]
  rfl

theorem ofContent_boxText : ParsedFile.ofContent "a.lua".toList boxText =
    ⟨⟨[functionOf "f".toList (.container "Box".toList [.builtin .number]) 4,
      functionOf "g".toList (.array (.named "Box".toList)) 7],
      [⟨"Box".toList, ["T".toList], .record [] [], [], ⟨"a.lua".toList, 1⟩⟩]⟩, []⟩ := by
  have hname : TypeExpr.Ident "Box".toList := TypeExpr.ident_of_all rfl rfl (by decide)
  have happlied : TypeExpr.Canonical (.container "Box".toList [.builtin .number]) :=
    .container hname (List.cons_ne_nil _ _) (List.forall_mem_singleton.2 (.builtin .number))
  have hlisted : TypeExpr.Canonical (.array (.named "Box".toList)) :=
    .array (.named hname (by decide) (by decide) (by decide))
  have hclass : Source.declarationAt "a.lua".toList boxLines 1 =
      (⟨[], [⟨"Box".toList, ["T".toList], .record [] [], [], ⟨"a.lua".toList, 1⟩⟩]⟩, []) := by
    rfl
  have hf := declarationAt_entryOf happlied "f".toList 3 rfl rfl rfl rfl
  have hg := declarationAt_entryOf hlisted "g".toList 6 rfl rfl rfl rfl
  have hlines : Text.lines boxText = boxLines := by rfl
  have hpoints : Source.declarationPoints boxLines = [1, 3, 6] := by decide
  rw [ParsedFile.ofContent, hlines, ParsedFile.ofLines, hpoints]
  simp only [List.map_cons, List.map_nil, hclass, hf, hg]
  rfl

theorem functions_boxText : (ofSources [("a.lua".toList, boxText)]).functions =
    [functionOf "f".toList (.container "Box".toList [.builtin .number]) 4,
      functionOf "g".toList (.array (.declared "Box".toList)) 7] := by
  rw [ofSources_singleton, ofContent_boxText]
  rfl

theorem declares_boxText : declares [("a.lua".toList, boxText)] "Box".toList = true := by
  rw [declares, declaredTypes, List.flatMap_singleton, ofContent_boxText]
  rfl

/-- The class is an element of the list. -/
theorem documents_declared_element :
    let sources := [("a.lua".toList, boxText)]
    ∃ f ∈ (ofSources sources).functions,
      (sources.map Prod.fst).Nodup ∧ declares sources "Box".toList = true ∧
        (∃ t ∈ f.types, t.HasLeaf "Box".toList) ∧ (ofSources sources).Documents f "Box".toList := by
  let f := functionOf "g".toList (.array (.declared "Box".toList)) 7
  have hf : f ∈ (ofSources [("a.lua".toList, boxText)]).functions := by
    rw [functions_boxText]
    exact List.mem_cons_of_mem _ List.mem_cons_self
  have hleaf : ∃ t ∈ f.types, t.HasLeaf "Box".toList :=
    ⟨_, List.mem_cons_self, .inr (.element .whole)⟩
  have hpaths : ([("a.lua".toList, boxText)].map Prod.fst).Nodup := List.nodup_singleton _
  exact ⟨f, hf, hpaths, declares_boxText, hleaf,
    (documents_declared hpaths hf declares_boxText).1 hleaf⟩

/-- The class is applied to an argument. -/
theorem not_documents_head :
    let sources := [("a.lua".toList, boxText)]
    ∃ f ∈ (ofSources sources).functions,
      (sources.map Prod.fst).Nodup ∧ declares sources "Box".toList = true ∧
        (∃ t ∈ f.types, t.HasHead "Box".toList) ∧ ¬ (ofSources sources).Documents f "Box".toList := by
  let f := functionOf "f".toList (.container "Box".toList [.builtin .number]) 4
  have hf : f ∈ (ofSources [("a.lua".toList, boxText)]).functions := by
    rw [functions_boxText]
    exact List.mem_cons_self
  have hhead : ∃ t ∈ f.types, t.HasHead "Box".toList := ⟨_, List.mem_cons_self, _, .whole⟩
  refine ⟨f, hf, List.nodup_singleton _, declares_boxText, hhead, ?_⟩
  rintro ⟨t, -, ht⟩
  have hnone : declaredNames ([f].flatMap (·.types)) = [] := by rfl
  rw [referencedTypes_eq, hnone, List.eraseDups_nil, List.filterMap_nil, follow] at ht
  exact List.not_mem_nil ht

end Registry

end LuaDocs
