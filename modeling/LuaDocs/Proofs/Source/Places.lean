import LuaDocs.Proofs.Files.Order
import LuaDocs.Source.File

/-!
# Places of declarations

Places are ordered by file and then by line. A type is placed at the line of its tag. Reading a block adds
types at lines of the block only, in ascending order, and the blocks of a file are apart from each other,
because a declaration is looked for only at lines that end a block. So the types of a file stand at
ascending places, and no two of them at the same.
-/

namespace LuaDocs

namespace Location

variable {a b : Location}

def key (l : Location) : List Char ×ₗ ℕ :=
  toLex (l.file, l.line)

theorem key_injective : Function.Injective key := by
  intro a b h
  cases a
  cases b
  simp_all [key]

instance : LinearOrder Location :=
  LinearOrder.lift' key key_injective

theorem lt_iff : a < b ↔ a.file < b.file ∨ a.file = b.file ∧ a.line < b.line :=
  Prod.Lex.toLex_lt_toLex

theorem precedes_iff : a.precedes b = true ↔ a ≤ b := by
  have hle : a ≤ b ↔ a.file < b.file ∨ a.file = b.file ∧ a.line ≤ b.line :=
    Prod.Lex.toLex_le_toLex
  rw [precedes, hle]
  by_cases hfile : a.file = b.file
  · simp [hfile]
  · rw [if_neg (by simpa using hfile), Text.notAfter_iff, le_iff_lt_or_eq]
    simp [hfile]

/-- Two places in ascending order. -/
theorem ordered_eq (a b : Location) : ordered a b = (min a b, max a b) := by
  rw [ordered]
  by_cases h : a ≤ b
  · rw [if_pos (precedes_iff.2 h), min_eq_left h, max_eq_right h]
  · have hba : b ≤ a := (lt_of_not_ge h).le
    rw [if_neg (precedes_iff.not.2 h), min_eq_right hba, max_eq_left hba]

end Location

/-! ### Blocks -/

namespace TypesDraft

variable {d : TypesDraft} {here : Location} {directive : Directive} {body : Text}
  {variants : Option TypeExpr}

def locations (d : TypesDraft) : List Location :=
  d.types.map (·.location)

theorem locations_addProse (d : TypesDraft) (text : Text) :
    (d.addProse text).locations = d.locations := by
  obtain ⟨finished, current, leading, target, diagnostics⟩ := d
  cases current with
  | none => cases target <;> rfl
  | some t =>
    obtain ⟨name, generics, kind, description, location⟩ := t
    cases target <;> cases kind <;> simp [addProse, locations, types, TypeDraft.finish,
      TypeDraft.appendToField, TypeDraft.appendToVariant]

theorem locations_addVariant (d : TypesDraft) (text : Text) :
    (d.addVariant text).locations = d.locations := by
  obtain ⟨finished, current, leading, target, diagnostics⟩ := d
  cases current with
  | none => rfl
  | some t =>
    obtain ⟨name, generics, kind, description, location⟩ := t
    cases kind with
    | record parents fields => rfl
    | typeAlias type alts =>
      rw [addVariant]
      dsimp only
      cases TypeExpr.leading? text with
      | none => rfl
      | some read => simp [locations, types, TypeDraft.finish]

theorem locations_close (d : TypesDraft) : d.close.locations = d.locations := by
  simp [close, locations, types]

theorem locations_start (d : TypesDraft) (here : Location) (name : Text) (generics : List Text)
    (kind : KindDraft) : (d.close.start here name generics kind).locations = d.locations ++ [here] := by
  simp [start, close, locations, types, TypeDraft.finish]

theorem locations_addField (d : TypesDraft) :
    (d.addField here body variants).locations = d.locations := by
  obtain ⟨finished, current, leading, target, diagnostics⟩ := d
  cases current with
  | none => rfl
  | some t =>
    obtain ⟨name, generics, kind, description, location⟩ := t
    cases kind with
    | typeAlias type alts => rfl
    | record parents fields =>
      rw [addField]
      dsimp only
      cases Tag.member (Tag.dropScope body) variants with
      | error fault => rfl
      | ok m => simp [locations, types, TypeDraft.finish]

/-- A tag adds at most one type, at its own place. -/
theorem locations_addTag (d : TypesDraft) (here : Location) (directive : Directive) (body : Text)
    (variants : Option TypeExpr) :
    (d.addTag here directive body variants).locations = d.locations ∨
      (d.addTag here directive body variants).locations = d.locations ++ [here] := by
  cases directive with
  | record =>
    rw [addTag]
    cases Tag.classHead? body with
    | none => exact .inl (locations_close d)
    | some head => exact .inr (locations_start d here _ _ _)
  | typeAlias =>
    rw [addTag]
    cases Tag.aliasHead? body with
    | none => exact .inl (locations_close d)
    | some head =>
      right
      dsimp only
      cases head.description with
      | none => exact locations_start d here _ _ _
      | some text => exact (locations_addProse _ text).trans (locations_start d here _ _ _)
  | field => exact .inl (locations_addField d)
  | _ => exact .inl rfl

/-- A block adds types at some of its lines, in the order of the lines. -/
theorem locations_read (file : Text) (d : TypesDraft) (block : Block) :
    ∃ lines : List ℕ, lines.Sublist (block.map (·.line)) ∧
      (d.read file block).locations = d.locations ++ lines.map (Location.mk file) := by
  induction block generalizing d with
  | nil => exact ⟨[], .slnil, (List.append_nil _).symm⟩
  | cons l block ih =>
    rw [read, List.map_cons]
    -- A line that adds no type passes on what holds of the lines below it.
    have hstay : ∀ d' : TypesDraft, d'.locations = d.locations →
        ∃ lines : List ℕ, lines.Sublist (l.line :: block.map (·.line)) ∧
          (d'.read file block).locations = d.locations ++ lines.map (Location.mk file) := by
      intro d' hd'
      obtain ⟨lines, hlines, hread⟩ := ih d'
      exact ⟨lines, hlines.cons _, hread.trans (by rw [hd'])⟩
    cases l.content with
    | prose text => exact hstay _ (locations_addProse d text)
    | variant text => exact hstay _ (locations_addVariant d text)
    | tag directive body =>
      rcases locations_addTag d ⟨file, l.line⟩ directive body (Tag.variantUnion? block) with
        htag | htag
      · exact hstay _ htag
      · obtain ⟨lines, hlines, hread⟩ := ih (d.addTag ⟨file, l.line⟩ directive body
          (Tag.variantUnion? block))
        refine ⟨l.line :: lines, hlines.cons_cons _, ?_⟩
        rw [hread, htag, List.append_assoc, List.map_cons, List.singleton_append]

end TypesDraft

namespace Source

variable {lines : List Text} {i j : ℕ}

theorem locations_ofBlock (block : Block) (source : Option Text) (file : Text) (decl : ℕ) :
    ∃ lines : List ℕ, lines.Sublist (block.map (·.line)) ∧
      (FileDocs.ofBlock block source file decl).1.types.map (·.location) =
        lines.map (Location.mk file) := by
  rw [FileDocs.ofBlock]
  split
  · exact TypesDraft.locations_read file .empty block
  · cases source.bind Signature.parse? with
    | none => exact ⟨[], List.nil_sublist _, rfl⟩
    | some signature => exact ⟨[], List.nil_sublist _, rfl⟩

/-! ### Files -/

theorem lines_ofRun (run : List Text) (first : ℕ) :
    ((Block.ofRun run first).map (·.line)).Sublist (List.range' first run.length) := by
  induction run generalizing first with
  | nil => exact List.nil_sublist _
  | cons line run ih =>
    have htail := ih (first + 1)
    rw [Block.ofRun] at htail ⊢
    rw [List.zipIdx_cons, List.length_cons, List.range'_succ]
    cases htext : Comment.docText? line with
    | none =>
      rw [List.filterMap_cons_none (by simp [htext])]
      exact htail.cons _
    | some text =>
      rw [List.filterMap_cons_some (b := ⟨.classify text, first⟩) (by simp [htext]), List.map_cons]
      exact htail.cons_cons _

theorem length_docRun_le {line : Text} (hline : lines[i]? = some line)
    (hdoc : Comment.isDoc line = false) : (Block.docRun lines).length + (i + 1) ≤ lines.length := by
  obtain ⟨hi, rfl⟩ := List.getElem?_eq_some_iff.1 hline
  have hsplit : lines.reverse =
      (lines.drop (i + 1)).reverse ++ lines[i] :: (lines.take i).reverse := by
    simp
  have hrun : (Block.docRun lines).length ≤ (lines.drop (i + 1)).reverse.length := by
    rw [Block.docRun, List.length_reverse, hsplit, List.takeWhile_append]
    split
    · simp [hdoc]
    · exact (List.takeWhile_sublist _).length_le
  rw [List.length_reverse, List.length_drop] at hrun
  omega

/-- The lines of the block above a place stand before it and after every earlier line that is no doc
comment. -/
theorem mem_lines_above {n : ℕ} (hj : j ≤ lines.length)
    (hn : n ∈ (Block.above lines j).map (·.line)) :
    n ≤ j ∧ ∀ i < j, ∀ line, lines[i]? = some line → Comment.isDoc line = false → i + 1 < n := by
  have hlength : (lines.take j).length = j := by rw [List.length_take, min_eq_left hj]
  have hmem := (lines_ofRun _ _).mem hn
  rw [hlength, List.mem_range'_1] at hmem
  have hrun : (Block.docRun (lines.take j)).length ≤ j := by
    have hle : (Block.docRun (lines.take j)).length ≤ (lines.take j).reverse.length := by
      rw [Block.docRun, List.length_reverse]
      exact (List.takeWhile_sublist _).length_le
    rwa [List.length_reverse, hlength] at hle
  refine ⟨by omega, fun i hi line hline hdoc => ?_⟩
  have htake : (lines.take j)[i]? = some line := by rw [List.getElem?_take_of_lt hi, hline]
  have hshort := length_docRun_le htake hdoc
  rw [hlength] at hshort
  omega

theorem pairwise_lines_above (lines : List Text) :
    ((declarationPoints lines).flatMap fun i =>
      (Block.above lines i).map (·.line)).Pairwise (· < ·) := by
  have hpoint : ∀ i ∈ declarationPoints lines, i ≤ lines.length ∧
      ∀ line, lines[i]? = some line → Comment.isDoc line = false := by
    intro i hi
    rw [declarationPoints, List.mem_filter, List.mem_range] at hi
    refine ⟨Nat.le_of_lt_succ hi.1, fun line hline => ?_⟩
    have hnot := hi.2
    rw [isDeclarationPoint, hline, Bool.and_eq_true] at hnot
    simpa using hnot.1
  have hascending : (declarationPoints lines).Pairwise (· < ·) :=
    List.pairwise_lt_range.filter _
  refine List.pairwise_flatMap.2 ⟨fun i _ => ?_, ?_⟩
  · exact (List.pairwise_lt_range' (s := _)).sublist (lines_ofRun _ _)
  · -- The earlier point is itself no doc comment, so the block of the later one starts below it.
    refine hascending.imp_of_mem fun {i j} hi hj hij m hm n hn => ?_
    obtain ⟨hile, hidoc⟩ := hpoint i hi
    obtain ⟨hjle, -⟩ := hpoint j hj
    have hilt : i < lines.length := lt_of_lt_of_le hij hjle
    have hm := (mem_lines_above hile hm).1
    have hn := (mem_lines_above hjle hn).2 i hij lines[i] (List.getElem?_eq_getElem hilt)
      (hidoc _ (List.getElem?_eq_getElem hilt))
    omega

theorem exists_sublist_flatMap {f : ℕ → List Location} {g : ℕ → List ℕ} (file : Text) (is : List ℕ)
    (h : ∀ i ∈ is, ∃ ns : List ℕ, ns.Sublist (g i) ∧ f i = ns.map (Location.mk file)) :
    ∃ ns : List ℕ, ns.Sublist (is.flatMap g) ∧ is.flatMap f = ns.map (Location.mk file) := by
  induction is with
  | nil => exact ⟨[], .slnil, rfl⟩
  | cons i is ih =>
    obtain ⟨hi, his⟩ := List.forall_mem_cons.1 h
    obtain ⟨ms, hms, hi⟩ := hi
    obtain ⟨ns, hns, his⟩ := ih his
    exact ⟨ms ++ ns, hms.append hns, by rw [List.flatMap_cons, hi, his, List.map_append]⟩

/-- The types of a file stand at lines of its blocks, in the order of the lines. -/
theorem sublist_locations (file : Text) (lines : List Text) :
    ∃ ns : List ℕ,
      ns.Sublist ((declarationPoints lines).flatMap fun i => (Block.above lines i).map (·.line)) ∧
      (ParsedFile.ofLines file lines).docs.types.map (·.location) = ns.map (Location.mk file) := by
  obtain ⟨ns, hns, hlocations⟩ := exists_sublist_flatMap file (declarationPoints lines) fun i _ =>
    locations_ofBlock (Block.above lines i) (codeAt? lines i) file i
  refine ⟨ns, hns, ?_⟩
  rw [← hlocations, ParsedFile.ofLines, List.map_flatMap, List.flatMap_map]
  rfl

/-- The types of a file stand at ascending lines of the file. -/
theorem locations_ofContent (file content : Text) :
    ∃ ns : List ℕ, ns.Pairwise (· < ·) ∧
      (ParsedFile.ofContent file content).docs.types.map (·.location) =
        ns.map (Location.mk file) :=
  let ⟨ns, hns, hlocations⟩ := sublist_locations file (Text.lines content)
  ⟨ns, (pairwise_lines_above _).sublist hns, hlocations⟩

end Source

/-! ### Functions -/

theorem FileDocs.exists_of_mem_ofBlock {block : Block} {source : Option Text} {file : Text} {decl : ℕ}
    {f : FunctionDoc} (hf : f ∈ (ofBlock block source file decl).1.functions) :
    ∃ signature, source.bind Signature.parse? = some signature ∧
      f = (FunctionDoc.ofBlock block signature ⟨file, decl + 1⟩).1 := by
  rw [ofBlock] at hf
  split at hf
  · exact absurd hf List.not_mem_nil
  · split at hf
    · exact absurd hf List.not_mem_nil
    · next signature hsignature => exact ⟨signature, hsignature, List.mem_singleton.1 hf⟩

/-- A function of a file is what the block above a declaration says of it. -/
theorem ParsedFile.exists_of_mem_ofContent {file content : Text} {f : FunctionDoc}
    (hf : f ∈ (ofContent file content).docs.functions) :
    ∃ decl signature,
      (Source.codeAt? (Text.lines content) decl).bind Signature.parse? = some signature ∧
        f = (FunctionDoc.ofBlock (Block.above (Text.lines content) decl) signature
          ⟨file, decl + 1⟩).1 := by
  obtain ⟨found, hfound, hf⟩ := List.mem_flatMap.1 hf
  obtain ⟨decl, -, rfl⟩ := List.mem_map.1 hfound
  exact ⟨decl, FileDocs.exists_of_mem_ofBlock hf⟩

end LuaDocs
