import LuaDocs.Proofs.Source.Places
import Mathlib.Data.List.Nodup
import Mathlib.Data.List.TakeWhile

/-!
# The scan of a file

A scan hands on one block for every line at which it looks for a declaration. The block is the whole run
of doc comments above that line, and every run of doc comments ends right above such a line, if only that
at the end of the file. So no doc comment is lost and none is read twice. Functions stand at the lines
below blocks and types at lines of blocks, which keeps all places of a file apart.
-/

namespace LuaDocs.Source

variable {lines run rest after : List Text} {line : Text} {i j first stop : ℕ}

/-! ### Runs of doc comments -/

def IsDocAt (lines : List Text) (i : ℕ) : Prop :=
  ∃ line, lines[i]? = some line ∧ Comment.isDoc line = true

/-- The doc comment with an index as a line of a block: what it carries, and its number. -/
def docLine? (lines : List Text) (i : ℕ) : Option DocLine := do
  let line ← lines[i]?
  let text ← Comment.docText? line
  return ⟨.classify text, i + 1⟩

/-- All lines from one index up to another are doc comments, and no doc comment stands right before or
right after them. -/
structure WholeRun (lines : List Text) (first stop : ℕ) : Prop where
  le : first ≤ stop
  isDoc : ∀ i, first ≤ i → i < stop → IsDocAt lines i
  before : ∀ i, i + 1 = first → ¬IsDocAt lines i
  after : ¬IsDocAt lines stop

theorem isDocAt_iff (h : lines[i]? = some line) : IsDocAt lines i ↔ Comment.isDoc line = true := by
  simp [IsDocAt, h]

theorem lt_length_of_isDocAt (h : IsDocAt lines i) : i < lines.length :=
  let ⟨_, hline, _⟩ := h
  (List.getElem?_eq_some_iff.1 hline).1

theorem not_isDocAt_iff :
    ¬IsDocAt lines i ↔ ((lines[i]?.map Comment.isDoc).getD false) = false := by
  cases h : lines[i]? <;> simp [IsDocAt, h]

/-- A run of doc comments ends somewhere. -/
theorem exists_stop (lines : List Text) (i : ℕ) (h : IsDocAt lines i) :
    ∃ stop, i < stop ∧ (∀ k, i ≤ k → k < stop → IsDocAt lines k) ∧ ¬IsDocAt lines stop := by
  by_cases hnext : IsDocAt lines (i + 1)
  · have hlt : i + 1 < lines.length := lt_length_of_isDocAt hnext
    obtain ⟨stop, hstop, hdoc, hafter⟩ := exists_stop lines (i + 1) hnext
    refine ⟨stop, by omega, fun k hik hk => ?_, hafter⟩
    rcases hik.eq_or_lt with rfl | hik
    · exact h
    · exact hdoc k hik hk
  · refine ⟨i + 1, by omega, fun k hik hk => ?_, hnext⟩
    obtain rfl : k = i := by omega
    exact h
termination_by lines.length - i

theorem WholeRun.unique {stop' : ℕ} {first' : ℕ} (h : WholeRun lines first stop)
    (h' : WholeRun lines first' stop') (hi : first ≤ i ∧ i < stop) (hi' : first' ≤ i ∧ i < stop') :
    stop = stop' := by
  rcases lt_trichotomy stop stop' with hlt | heq | hlt
  · exact absurd (h'.isDoc stop (by omega) hlt) h.after
  · exact heq
  · exact absurd (h.isDoc stop' (by omega) hlt) h'.after

/-! ### The block above a line -/

/-- The run at the end of some lines is all that follows the last line that is no doc comment. -/
theorem exists_append_docRun (lines : List Text) :
    ∃ rest, lines = rest ++ Block.docRun lines ∧
      (∀ line ∈ Block.docRun lines, Comment.isDoc line = true) ∧
      ∀ line ∈ rest.getLast?, Comment.isDoc line = false := by
  refine ⟨(lines.reverse.dropWhile Comment.isDoc).reverse, ?_, fun line hline => ?_,
    fun line hline => ?_⟩
  · rw [Block.docRun, ← List.reverse_append, List.takeWhile_append_dropWhile, List.reverse_reverse]
  · exact List.mem_takeWhile_imp (List.mem_reverse.1 hline)
  · rw [List.getLast?_reverse] at hline
    have hhead := List.head?_dropWhile_not Comment.isDoc lines.reverse
    rwa [Option.mem_def.1 hline] at hhead

/-- A run of doc comments becomes a block line by line. -/
theorem map_some_ofRun (hlines : lines = rest ++ (run ++ after))
    (hdoc : ∀ line ∈ run, Comment.isDoc line = true) :
    (Block.ofRun run (rest.length + 1)).map some =
      (List.range' rest.length run.length).map (docLine? lines) := by
  induction run generalizing rest with
  | nil => rfl
  | cons line run ih =>
    obtain ⟨hline, hrun⟩ := List.forall_mem_cons.1 hdoc
    obtain ⟨text, htext⟩ := Option.isSome_iff_exists.1 hline
    have hlines' : lines = (rest ++ [line]) ++ (run ++ after) := by simp [hlines]
    have htail := ih hlines' hrun
    have hhead : docLine? lines rest.length = some ⟨.classify text, rest.length + 1⟩ := by
      simp [docLine?, hlines, htext]
    rw [List.length_append, List.length_singleton] at htail
    rw [List.length_cons, List.range'_succ, List.map_cons, hhead, ← htail, Block.ofRun,
      List.zipIdx_cons, List.filterMap_cons_some (b := ⟨.classify text, rest.length + 1⟩)
        (by simp [htext]), List.map_cons]
    rfl

/-- The block above a line is the whole run of doc comments that ends there. -/
theorem wholeRun_above (hstop : stop ≤ lines.length) (hafter : ¬IsDocAt lines stop) :
    ∃ first, WholeRun lines first stop ∧
      (Block.above lines stop).map some =
        (List.range' first (stop - first)).map (docLine? lines) := by
  have hlength : (lines.take stop).length = stop := by rw [List.length_take, min_eq_left hstop]
  obtain ⟨rest, hsplit, hdoc, hlast⟩ := exists_append_docRun (lines.take stop)
  rw [Block.above, hlength]
  generalize Block.docRun (lines.take stop) = run at hsplit hdoc ⊢
  have hsum : stop = rest.length + run.length := by
    rw [← hlength, hsplit, List.length_append]
  have hlines : lines = rest ++ (run ++ lines.drop stop) := by
    rw [← List.append_assoc, ← hsplit, List.take_append_drop]
  have hfirst : stop - run.length = rest.length := by omega
  have hrun : stop - rest.length = run.length := by omega
  have hget (i : ℕ) (hi : i < stop) : lines[i]? = (rest ++ run)[i]? := by
    rw [← hsplit, List.getElem?_take_of_lt hi]
  refine ⟨rest.length, ⟨by omega, fun i hfirst hi => ?_, fun i hi => ?_, hafter⟩, ?_⟩
  · have hlt : i - rest.length < run.length := by omega
    rw [isDocAt_iff ((hget i hi).trans ((List.getElem?_append_right hfirst).trans
      (List.getElem?_eq_getElem hlt)))]
    exact hdoc _ (List.getElem_mem hlt)
  · rintro ⟨line, hline, hisDoc⟩
    rw [hget i (by omega), List.getElem?_append_left (by omega)] at hline
    have hmem : line ∈ rest.getLast? := by
      rw [List.getLast?_eq_getElem?, ← hi]
      exact hline
    rw [hlast line hmem] at hisDoc
    cases hisDoc
  · rw [hfirst, hrun]
    exact map_some_ofRun hlines hdoc

/-! ### The blocks of a scan -/

/-- The blocks that a scan hands on, each with the index of the line that it stands above. -/
def scannedBlocks (lines : List Text) : List (ℕ × Block) :=
  (declarationPoints lines).map fun stop => (stop, Block.above lines stop)

/-- Some blocks lose and repeat no doc comment: each doc comment is a line of one of them, and that one
is the whole run of doc comments around it. -/
structure Covers (lines : List Text) (blocks : List (ℕ × Block)) : Prop where
  ascending : blocks.Pairwise fun a b => a.1 < b.1
  once : ∀ i, IsDocAt lines i → ∃! entry, entry ∈ blocks ∧ i + 1 ∈ entry.2.map (·.line)
  whole : ∀ entry ∈ blocks, ∃ first, WholeRun lines first entry.1 ∧
    entry.2.map some = (List.range' first (entry.1 - first)).map (docLine? lines)

theorem line_of_docLine? {l : DocLine} (h : docLine? lines i = some l) : l.line = i + 1 := by
  simp only [docLine?, Option.bind_eq_bind, Option.bind_eq_some_iff] at h
  obtain ⟨_, -, _, -, h⟩ := h
  cases h
  rfl

/-- A block contains the lines of its run. -/
theorem mem_lines_iff {block : Block}
    (h : block.map some = (List.range' first (stop - first)).map (docLine? lines)) :
    i + 1 ∈ block.map (·.line) ↔ first ≤ i ∧ i < stop := by
  have hmem (l : DocLine) : l ∈ block ↔ ∃ k, (first ≤ k ∧ k < stop) ∧ docLine? lines k = some l := by
    have hsome : l ∈ block ↔ some l ∈ block.map some := by simp
    rw [hsome, h, List.mem_map]
    refine exists_congr fun k => and_congr_left fun _ => ?_
    rw [List.mem_range'_1]
    omega
  constructor
  · intro hi
    obtain ⟨l, hl, hline⟩ := List.mem_map.1 hi
    obtain ⟨k, hk, hdoc⟩ := (hmem l).1 hl
    rw [line_of_docLine? hdoc] at hline
    omega
  · intro hi
    have hsome : docLine? lines i ∈ block.map some := by
      rw [h]
      exact List.mem_map_of_mem (List.mem_range'_1.2 (by omega))
    obtain ⟨l, hl, hdoc⟩ := List.mem_map.1 hsome
    exact List.mem_map.2 ⟨l, hl, line_of_docLine? hdoc.symm⟩

theorem exists_eq_succ_of_mem_lines {block : Block} {n : ℕ}
    (h : block.map some = (List.range' first (stop - first)).map (docLine? lines))
    (hn : n ∈ block.map (·.line)) : ∃ i, n = i + 1 := by
  obtain ⟨l, hl, rfl⟩ := List.mem_map.1 hn
  obtain ⟨i, -, hdoc⟩ := List.mem_map.1 (h ▸ List.mem_map_of_mem (f := some) hl)
  exact ⟨i, line_of_docLine? hdoc⟩

theorem of_mem_declarationPoints (h : stop ∈ declarationPoints lines) :
    stop ≤ lines.length ∧ ¬IsDocAt lines stop := by
  rw [declarationPoints, List.mem_filter, List.mem_range, isDeclarationPoint, Bool.and_eq_true,
    Bool.not_eq_true', ← not_isDocAt_iff] at h
  exact ⟨Nat.le_of_lt_succ h.1, h.2.1⟩

/-- A declaration is looked for right below every run. -/
theorem mem_declarationPoints (hdoc : IsDocAt lines i) (hafter : ¬IsDocAt lines (i + 1)) :
    i + 1 ∈ declarationPoints lines := by
  obtain ⟨line, hline, hisDoc⟩ := hdoc
  have hlt := lt_length_of_isDocAt ⟨line, hline, hisDoc⟩
  rw [declarationPoints, List.mem_filter, List.mem_range]
  refine ⟨by omega, ?_⟩
  rw [isDeclarationPoint, not_isDocAt_iff.1 hafter, followsBlock, hline]
  simp [hisDoc]

theorem ascending_declarationPoints (lines : List Text) :
    (declarationPoints lines).Pairwise (· < ·) :=
  List.pairwise_lt_range.filter _

theorem covers_scannedBlocks (lines : List Text) : Covers lines (scannedBlocks lines) := by
  have hwhole : ∀ entry ∈ scannedBlocks lines, ∃ first, WholeRun lines first entry.1 ∧
      entry.2.map some = (List.range' first (entry.1 - first)).map (docLine? lines) := by
    intro entry hentry
    obtain ⟨stop, hstop, rfl⟩ := List.mem_map.1 hentry
    obtain ⟨hle, hafter⟩ := of_mem_declarationPoints hstop
    exact wholeRun_above hle hafter
  refine ⟨List.pairwise_map.2 (ascending_declarationPoints lines), fun i hi => ?_, hwhole⟩
  obtain ⟨stop, histop, hdoc, hafter⟩ := exists_stop lines i hi
  obtain ⟨last, rfl⟩ : ∃ last, stop = last + 1 := ⟨stop - 1, by omega⟩
  have hpoint := mem_declarationPoints (hdoc last (by omega) (by omega)) hafter
  have hentry : (last + 1, Block.above lines (last + 1)) ∈ scannedBlocks lines :=
    List.mem_map_of_mem hpoint
  obtain ⟨first, hrun, hblock⟩ := hwhole _ hentry
  -- The run of the block goes back beyond `i`, since it could not start behind a doc comment.
  have hfirst : first ≤ i := by
    by_contra hlt
    have hle := hrun.le
    exact hrun.before (first - 1) (by omega) (hdoc _ (by omega) (by omega))
  refine ⟨_, ⟨hentry, (mem_lines_iff hblock).2 ⟨hfirst, histop⟩⟩, ?_⟩
  rintro entry ⟨hmem, hline⟩
  obtain ⟨first', hrun', hblock'⟩ := hwhole entry hmem
  have hsame := hrun'.unique hrun ((mem_lines_iff hblock').1 hline) ⟨hfirst, histop⟩
  obtain ⟨stop', -, rfl⟩ := List.mem_map.1 hmem
  obtain rfl : stop' = last + 1 := hsame
  rfl

/-! ### Places -/

theorem functions_ofBlock (block : Block) (source : Option Text) (file : Text) (decl : ℕ) :
    (FileDocs.ofBlock block source file decl).1.functions.map (·.location) = [] ∨
      source.isSome ∧ (FileDocs.ofBlock block source file decl).1.functions.map (·.location) =
        [⟨file, decl + 1⟩] := by
  rw [FileDocs.ofBlock]
  split
  · exact .inl rfl
  · cases source with
    | none => exact .inl rfl
    | some code =>
      cases hsignature : Signature.parse? code with
      | none => exact .inl (by simp [hsignature, FileDocs.empty])
      | some signature => exact .inr ⟨rfl, by simp [hsignature, FunctionDoc.ofBlock]⟩

/-- The functions of a file stand at ascending lines that are no doc comments. -/
theorem locations_functions (file : Text) (lines : List Text) :
    ∃ ns : List ℕ, ns.Pairwise (· < ·) ∧
      (∀ n ∈ ns, ∃ i, n = i + 1 ∧ i < lines.length ∧ ¬IsDocAt lines i) ∧
      (ParsedFile.ofLines file lines).docs.functions.map (·.location) =
        ns.map (Location.mk file) := by
  have hpoint (i : ℕ) : ∃ ns : List ℕ, ns.Sublist (if i < lines.length then [i + 1] else []) ∧
      (declarationAt file lines i).1.functions.map (·.location) = ns.map (Location.mk file) := by
    obtain hnone | ⟨hcode, hone⟩ :=
      functions_ofBlock (Block.above lines i) (codeAt? lines i) file i
    · exact ⟨[], List.nil_sublist _, hnone⟩
    · have hlt : i < lines.length := by
        by_contra hle
        rw [codeAt?, List.getElem?_eq_none (not_lt.1 hle)] at hcode
        cases hcode
      rw [if_pos hlt]
      exact ⟨[i + 1], .refl _, hone⟩
  have hline {i n : ℕ} (hn : n ∈ if i < lines.length then [i + 1] else []) :
      i < lines.length ∧ n = i + 1 := by
    split at hn
    · next hlt => exact ⟨hlt, List.mem_singleton.1 hn⟩
    · cases hn
  obtain ⟨ns, hns, hlocations⟩ :=
    exists_sublist_flatMap file (declarationPoints lines) fun i _ => hpoint i
  refine ⟨ns, .sublist hns (List.pairwise_flatMap.2 ⟨fun i _ => ?_, ?_⟩), fun n hn => ?_, ?_⟩
  · split
    · exact List.pairwise_singleton _ _
    · exact .nil
  · refine (ascending_declarationPoints lines).imp fun {i j} hij m hm n hn => ?_
    have := (hline hm).2
    have := (hline hn).2
    omega
  · obtain ⟨i, hi, hin⟩ := List.mem_flatMap.1 (hns.mem hn)
    obtain ⟨hlt, rfl⟩ := hline hin
    exact ⟨i, rfl, hlt, (of_mem_declarationPoints hi).2⟩
  · rw [← hlocations, ParsedFile.ofLines, List.map_flatMap, List.flatMap_map]

/-- The types of a file stand at ascending lines that are doc comments. -/
theorem locations_types (file : Text) (lines : List Text) :
    ∃ ns : List ℕ, ns.Pairwise (· < ·) ∧ (∀ n ∈ ns, ∃ i, n = i + 1 ∧ IsDocAt lines i) ∧
      (ParsedFile.ofLines file lines).docs.types.map (·.location) = ns.map (Location.mk file) := by
  obtain ⟨ns, hns, hlocations⟩ := sublist_locations file lines
  refine ⟨ns, (pairwise_lines_above lines).sublist hns, fun n hn => ?_, hlocations⟩
  obtain ⟨stop, hstop, hline⟩ := List.mem_flatMap.1 (hns.mem hn)
  obtain ⟨hle, hafter⟩ := of_mem_declarationPoints hstop
  obtain ⟨first, hrun, hblock⟩ := wholeRun_above hle hafter
  obtain ⟨i, rfl⟩ := exists_eq_succ_of_mem_lines hblock hline
  obtain ⟨hfirst, hi⟩ := (mem_lines_iff hblock).1 hline
  exact ⟨i, rfl, hrun.isDoc i hfirst hi⟩

/-- The scan of a file loses and repeats nothing. The file documents what its blocks do; every doc comment
is a line of exactly one block, which is the whole run of doc comments around it and has each of them with
its number and what it carries; and the functions stand at ascending lines that are no doc comments, the
types at ascending lines that are, so that no two declarations share a place. -/
theorem scan_ofContent (file content : Text) :
    let lines := Text.lines content
    let parsed := ParsedFile.ofContent file content
    let found := (scannedBlocks lines).map fun (stop, block) =>
      FileDocs.ofBlock block (codeAt? lines stop) file stop
    parsed.docs.functions = found.flatMap (·.1.functions) ∧
      parsed.docs.types = found.flatMap (·.1.types) ∧
      parsed.diagnostics = found.flatMap (·.2) ∧
      Covers lines (scannedBlocks lines) ∧
      (∃ ns : List ℕ, ns.Pairwise (· < ·) ∧
        (∀ n ∈ ns, ∃ i, n = i + 1 ∧ i < lines.length ∧ ¬IsDocAt lines i) ∧
        parsed.docs.functions.map (·.location) = ns.map (Location.mk file)) ∧
      (∃ ns : List ℕ, ns.Pairwise (· < ·) ∧ (∀ n ∈ ns, ∃ i, n = i + 1 ∧ IsDocAt lines i) ∧
        parsed.docs.types.map (·.location) = ns.map (Location.mk file)) ∧
      (parsed.docs.functions.map (·.location) ++ parsed.docs.types.map (·.location)).Nodup := by
  intro lines parsed found
  have hparsed : parsed = ParsedFile.ofLines file lines := rfl
  have hfound : found = (declarationPoints lines).map (declarationAt file lines) := by
    simp only [found, scannedBlocks, List.map_map]
    rfl
  obtain ⟨ms, hms, hcode, hfunctions⟩ := locations_functions file lines
  obtain ⟨ns, hns, hdoc, htypes⟩ := locations_types file lines
  refine ⟨by rw [hfound]; rfl, by rw [hfound]; rfl, by rw [hfound]; rfl, covers_scannedBlocks lines,
    ⟨ms, hms, hcode, hfunctions⟩, ⟨ns, hns, hdoc, htypes⟩, ?_⟩
  have hinjective : Function.Injective (Location.mk file) := fun m n h => (Location.mk.inj h).2
  rw [hparsed, hfunctions, htypes, ← List.map_append]
  refine List.Nodup.map hinjective (List.nodup_append.2
    ⟨hms.imp fun h => h.ne, hns.imp fun h => h.ne, fun m hm n hn hmn => ?_⟩)
  obtain ⟨i, rfl, -, hnot⟩ := hcode m hm
  obtain ⟨j, rfl, hisDoc⟩ := hdoc n hn
  obtain rfl : i = j := Nat.succ.inj hmn
  exact hnot hisDoc

end LuaDocs.Source
