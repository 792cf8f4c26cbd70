import LuaDocs.Proofs.Declaration.Segments

/-!
# Documented and declared parameters

The names in the parameter tags of a block are compared with the names in the declaration, the receiver
apart. Nothing is reported exactly if the two lists are one; names that stand in one of them only are reported
one by one; and lists of the same names that differ all the same differ in order or number, which is one report.
-/

namespace LuaDocs

/-! ### Names -/

def Segment.paramName? (s : Segment) : Option Text :=
  match s.directive, Tag.member s.body s.variants with
  | .param, .ok m => some m.name
  | _, _ => none

def Block.paramNames (block : Block) : List Text :=
  (segments Directive.tags block).filterMap Segment.paramName?

theorem Segment.map_name_statement (s : Segment) :
    s.statement.params.map (·.name) = s.paramName?.toList := by
  rw [statement, paramName?]
  cases s.directive with
  | param => cases Tag.member s.body s.variants <;> rfl
  | returns => cases Tag.returnValues s.body s.variants <;> rfl
  | generic => cases Tag.genericNames s.body <;> rfl
  | _ => rfl

theorem FunctionDraft.map_name_read (file : Text) (block : Block) :
    (FunctionDraft.empty.read file block).params.map (·.name) = block.paramNames := by
  obtain ⟨target, hread⟩ := read_eq file .empty block
  rw [hread, foldl_addProse, Block.paramNames, List.filterMap_eq_flatMap_toList]
  simp only [empty, state, List.nil_append, List.flatMap_map, List.map_flatMap, Segment.map_name_statement]

/-! ### Disagreements -/

namespace Signature

variable {documented declared : List Text}

/-- Every name of the one list stands in the other. -/
def SameNames (documented declared : List Text) : Prop :=
  (∀ n ∈ declared, n ∈ documented) ∧ ∀ n ∈ documented, n ∈ declared

instance (documented declared : List Text) : Decidable (SameNames documented declared) :=
  inferInstanceAs (Decidable (_ ∧ _))

/-- A report for each declared name without a tag, then one for each tag whose name is not declared. -/
def unmatched (documented declared : List Text) : List Mismatch :=
  (declared.filter (· ∉ documented)).map .missingTag ++ (documented.filter (· ∉ declared)).map .unknownParam

theorem unmatched_eq_nil_iff : unmatched documented declared = [] ↔ SameNames documented declared := by
  simp [unmatched, SameNames]

theorem unmatched_self (names : List Text) : unmatched names names = [] :=
  unmatched_eq_nil_iff.2 ⟨fun _ h => h, fun _ h => h⟩

theorem mismatches_eq (documented declared : List Text) :
    mismatches documented declared =
      if withoutSelf documented = withoutSelf declared then []
      else if SameNames (withoutSelf documented) (withoutSelf declared) then
        [.order (withoutSelf documented) (withoutSelf declared)]
      else unmatched (withoutSelf documented) (withoutSelf declared) := by
  generalize hdocumented : withoutSelf documented = P
  generalize hdeclared : withoutSelf declared = S
  have hcode : mismatches documented declared =
      if SameNames P S ∧ P ≠ S then [.order P S] else unmatched P S := by
    simp [mismatches, unmatched, SameNames, hdocumented, hdeclared]
  rw [hcode]
  by_cases heq : P = S
  · obtain rfl := heq
    simp [unmatched_self]
  · by_cases hsame : SameNames P S <;> simp [heq, hsame]

theorem mismatches_eq_nil_iff :
    mismatches documented declared = [] ↔ withoutSelf documented = withoutSelf declared := by
  rw [mismatches_eq]
  split
  · next heq => exact iff_of_true rfl heq
  · next hne =>
    refine iff_of_false ?_ hne
    split
    · exact List.cons_ne_nil _ _
    · next hnames => exact unmatched_eq_nil_iff.not.2 hnames

end Signature

/-! ### Reports -/

def Diagnostic.mismatch? : Diagnostic → Option Mismatch
  | signatureMismatch _ _ mismatch => some mismatch
  | _ => none

namespace FunctionDoc

theorem filterMap_mismatch?_read (file : Text) (block : Block) :
    (FunctionDraft.empty.read file block).diagnostics.filterMap Diagnostic.mismatch? = [] := by
  obtain ⟨target, hread⟩ := FunctionDraft.read_eq file .empty block
  rw [hread, FunctionDraft.foldl_addProse, List.filterMap_eq_nil_iff]
  intro fault hfault
  obtain ⟨s, -, hs⟩ := List.mem_filterMap.1 hfault
  obtain ⟨lack, -, rfl⟩ := Option.map_eq_some_iff.1 hs
  rfl

/-- The faults of a function are malformed tags and, at its own place, disagreements with its declaration. -/
theorem ofBlock_diagnostics (block : Block) (signature : Signature) (location : Location) :
    (ofBlock block signature location).2 =
      (FunctionDraft.empty.read location.file block).diagnostics ++
        (if block = [] then [] else Signature.mismatches block.paramNames signature.params).map
          (.signatureMismatch location (ofBlock block signature location).1.name) := by
  rw [ofBlock, ← FunctionDraft.map_name_read location.file]
  simp only [List.isEmpty_iff]

/-- The parameters that a block documents are checked against the declaration. No disagreement is reported
exactly if there is no block or the names are the same in the same order; the same names in another order or
number are one report; otherwise every declared name without a tag is reported, in the order of the declaration,
and then every name in a tag that is not declared, in the order of the tags. All reports are about the function,
at its place. -/
theorem ofBlock_mismatches (block : Block) (signature : Signature) (location : Location) :
    let documented := Signature.withoutSelf block.paramNames
    let declared := Signature.withoutSelf signature.params
    let found := (ofBlock block signature location).2.filterMap Diagnostic.mismatch?
    (found = [] ↔ block = [] ∨ documented = declared) ∧
      found = (if block = [] ∨ documented = declared then []
        else if (∀ n ∈ declared, n ∈ documented) ∧ ∀ n ∈ documented, n ∈ declared then
          [.order documented declared]
        else (declared.filter (· ∉ documented)).map .missingTag ++
          (documented.filter (· ∉ declared)).map .unknownParam) ∧
      ∀ fault ∈ (ofBlock block signature location).2, ∀ mismatch ∈ fault.mismatch?,
        fault = .signatureMismatch location (ofBlock block signature location).1.name mismatch := by
  intro documented declared found
  have hfound : found =
      if block = [] then [] else Signature.mismatches block.paramNames signature.params := by
    simp only [found]
    rw [ofBlock_diagnostics, List.filterMap_append, filterMap_mismatch?_read, List.nil_append,
      List.filterMap_map]
    exact List.filterMap_some
  refine ⟨?_, ?_, ?_⟩
  · rw [hfound]
    by_cases hblock : block = []
    · simp [hblock]
    · rw [if_neg hblock, Signature.mismatches_eq_nil_iff, or_iff_right hblock]
  · rw [hfound]
    by_cases hblock : block = []
    · simp [hblock]
    · rw [if_neg hblock, Signature.mismatches_eq]
      simp only [hblock, false_or]
      rfl
  · intro fault hfault mismatch hmismatch
    rw [ofBlock_diagnostics] at hfault
    rcases List.mem_append.1 hfault with hdraft | hcheck
    · have hnone := List.filterMap_eq_nil_iff.1 (filterMap_mismatch?_read location.file block) fault hdraft
      rw [hnone] at hmismatch
      cases hmismatch
    · obtain ⟨mismatch', -, rfl⟩ := List.mem_map.1 hcheck
      obtain rfl := Option.some.inj hmismatch
      rfl

end FunctionDoc

end LuaDocs
