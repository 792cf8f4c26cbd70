import LuaDocs.Source.File

/-!
# Faults of a file

What reading a file reports is about one block of it: a tag without the form of its kind, or tags that
disagree with the declaration below them. A draft only ever adds such faults to those it has. That a name
is declared nowhere or twice shows when all files have been read, so reading a file reports neither.
-/

namespace LuaDocs

/-- Whether a fault is about a block alone. -/
def Diagnostic.isLocal : Diagnostic → Bool
  | malformedTag _ _ _ => true
  | signatureMismatch _ _ _ => true
  | _ => false

/-- Some faults, and perhaps further ones about a block alone. -/
def Reports (before after : List Diagnostic) : Prop :=
  ∃ faults, after = before ++ faults ∧ ∀ fault ∈ faults, fault.isLocal = true

variable {before middle after : List Diagnostic} {here : Location} {directive : Directive}
  {body : Text} {variants : Option TypeExpr}

theorem reports_refl (before : List Diagnostic) : Reports before before :=
  ⟨[], (List.append_nil before).symm, nofun⟩

theorem reports_concat (before : List Diagnostic) (here : Location) (directive : Directive)
    (fault : TagFault) : Reports before (before ++ [.malformedTag here directive fault]) :=
  ⟨_, rfl, List.forall_mem_singleton.2 rfl⟩

theorem Reports.trans (h : Reports before middle) (h' : Reports middle after) :
    Reports before after := by
  obtain ⟨faults, rfl, hfaults⟩ := h
  obtain ⟨faults', rfl, hfaults'⟩ := h'
  exact ⟨faults ++ faults', List.append_assoc _ _ _, List.forall_mem_append.2 ⟨hfaults, hfaults'⟩⟩

/-! ### Functions -/

namespace FunctionDraft

theorem diagnostics_addProse (d : FunctionDraft) (text : Text) :
    (d.addProse text).diagnostics = d.diagnostics := by
  rw [addProse]
  cases d.target <;> rfl

theorem reports_addTag (d : FunctionDraft) :
    Reports d.diagnostics (d.addTag here directive body variants).diagnostics := by
  cases directive with
  | param =>
    rw [addTag]
    cases Tag.member body variants with
    | ok m => exact reports_refl _
    | error fault => exact reports_concat _ _ _ _
  | returns =>
    rw [addTag]
    cases Tag.returnValues body variants with
    | ok values => exact reports_refl _
    | error fault => exact reports_concat _ _ _ _
  | generic =>
    rw [addTag]
    cases Tag.genericNames body with
    | nil => exact reports_concat _ _ _ _
    | cons name names => exact reports_refl _
  | _ => exact reports_refl _

theorem reports_read (file : Text) (d : FunctionDraft) (block : Block) :
    Reports d.diagnostics (d.read file block).diagnostics := by
  induction block generalizing d with
  | nil => exact reports_refl _
  | cons l block ih =>
    rw [read]
    cases l.content with
    | prose text => exact diagnostics_addProse d text ▸ ih (d.addProse text)
    | variant text => exact ih d
    | tag directive body => exact d.reports_addTag.trans (ih _)

end FunctionDraft

theorem isLocal_of_mem_functionOfBlock {block : Block} {signature : Signature} {fault : Diagnostic}
    (h : fault ∈ (FunctionDoc.ofBlock block signature here).2) : fault.isLocal = true := by
  obtain ⟨faults, hfaults, hlocal⟩ := FunctionDraft.reports_read here.file .empty block
  rw [FunctionDoc.ofBlock] at h
  dsimp only at h
  rw [hfaults] at h
  rcases List.mem_append.1 h with h | h
  · exact hlocal fault h
  · obtain ⟨mismatch, -, rfl⟩ := List.mem_map.1 h
    rfl

/-! ### Types -/

namespace TypesDraft

theorem diagnostics_addProse (d : TypesDraft) (text : Text) :
    (d.addProse text).diagnostics = d.diagnostics := by
  rw [addProse]
  split <;> rfl

theorem diagnostics_addVariant (d : TypesDraft) (text : Text) :
    (d.addVariant text).diagnostics = d.diagnostics := by
  rw [addVariant]
  split
  · split <;> rfl
  · rfl

theorem reports_addField (d : TypesDraft) :
    Reports d.diagnostics (d.addField here body variants).diagnostics := by
  rw [addField]
  cases d.current with
  | none => exact reports_refl _
  | some t =>
    dsimp only
    cases t.kind with
    | typeAlias type alts => exact reports_refl _
    | record parents fields =>
      dsimp only
      cases Tag.member (Tag.dropScope body) variants with
      | ok m => exact reports_refl _
      | error fault => exact reports_concat _ _ _ _

theorem reports_addTag (d : TypesDraft) :
    Reports d.diagnostics (d.addTag here directive body variants).diagnostics := by
  cases directive with
  | record =>
    rw [addTag]
    cases Tag.classHead? body with
    | none => exact reports_concat _ _ _ _
    | some head => exact reports_refl _
  | typeAlias =>
    rw [addTag]
    cases Tag.aliasHead? body with
    | none => exact reports_concat _ _ _ _
    | some head =>
      dsimp only
      cases head.description with
      | none => exact reports_refl _
      | some text =>
        dsimp only
        rw [diagnostics_addProse]
        exact reports_refl _
  | field => exact d.reports_addField
  | _ => exact reports_refl _

theorem reports_read (file : Text) (d : TypesDraft) (block : Block) :
    Reports d.diagnostics (d.read file block).diagnostics := by
  induction block generalizing d with
  | nil => exact reports_refl _
  | cons l block ih =>
    rw [read]
    cases l.content with
    | prose text => exact diagnostics_addProse d text ▸ ih (d.addProse text)
    | variant text => exact diagnostics_addVariant d text ▸ ih (d.addVariant text)
    | tag directive body => exact d.reports_addTag.trans (ih _)

end TypesDraft

/-! ### Files -/

theorem isLocal_of_mem_ofBlock {block : Block} {source : Option Text} {file : Text} {decl : Nat}
    {fault : Diagnostic} (h : fault ∈ (FileDocs.ofBlock block source file decl).2) :
    fault.isLocal = true := by
  rw [FileDocs.ofBlock] at h
  split at h
  · obtain ⟨faults, hfaults, hlocal⟩ := TypesDraft.reports_read file .empty block
    have h : fault ∈ (TypesDraft.empty.read file block).diagnostics := h
    rw [hfaults] at h
    exact hlocal fault h
  · split at h
    · exact absurd h List.not_mem_nil
    · exact isLocal_of_mem_functionOfBlock h

/-- Reading a file reports faults of its blocks only. -/
theorem isLocal_of_mem_ofContent {file content : Text} {fault : Diagnostic}
    (h : fault ∈ (ParsedFile.ofContent file content).diagnostics) : fault.isLocal = true := by
  obtain ⟨found, hfound, hfault⟩ := List.mem_flatMap.1 h
  obtain ⟨decl, -, rfl⟩ := List.mem_map.1 hfound
  exact isLocal_of_mem_ofBlock hfault

end LuaDocs
