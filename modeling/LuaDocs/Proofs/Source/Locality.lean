import LuaDocs.Proofs.Declaration.Agreement
import LuaDocs.Proofs.Declaration.Faults
import LuaDocs.Proofs.Source.Rewording

/-!
# Doc comments are local

Everything that is found at a line stands at that line or in the block above it. The block is the whole run of
doc comments above the line, and no other doc comment has a part in what is found there. So if a whole run is
exchanged for other doc comments, the file changes only in that run and on the line directly after it.
-/

namespace LuaDocs

variable {starts : Directive → Bool} {block : Block} {s : Segment} {file : Text} {fault : Diagnostic}

/-! ### Places of faults -/

theorem Block.line_mem_of_mem_segments (hs : s ∈ segments starts block) : s.line ∈ block.map (·.line) := by
  have hline : s.line ∈ s.block.map (·.line) := List.mem_cons_self
  rw [(isCut starts block).whole, List.map_append, List.map_flatMap]
  exact List.mem_append_right _ (List.mem_flatMap.2 ⟨s, hs, hline⟩)

def Location.Among (file : Text) (ns : List ℕ) (l : Location) : Prop :=
  ∃ n ∈ ns, l = ⟨file, n⟩

theorem FunctionDraft.among_of_mem_read
    (h : fault ∈ (FunctionDraft.empty.read file block).diagnostics) :
    fault.location.Among file (block.map (·.line)) := by
  obtain ⟨target, hread⟩ := read_eq file .empty block
  rw [hread, foldl_addProse] at h
  obtain ⟨s, hs, hreport⟩ := List.mem_filterMap.1 h
  obtain ⟨lack, -, rfl⟩ := Option.map_eq_some_iff.1 hreport
  exact ⟨s.line, Block.line_mem_of_mem_segments hs, rfl⟩

namespace TypesDraft

variable {d : TypesDraft} {here : Location} {directive : Directive} {body : Text} {variants : Option TypeExpr}

theorem mem_report {lack : TagFault} (h : fault ∈ (d.report here directive lack).diagnostics) :
    fault ∈ d.diagnostics ∨ fault.location = here := by
  rcases List.mem_append.1 h with h | h
  · exact .inl h
  · obtain rfl := List.mem_singleton.1 h
    exact .inr rfl

theorem mem_addField (h : fault ∈ (d.addField here body variants).diagnostics) :
    fault ∈ d.diagnostics ∨ fault.location = here := by
  rw [addField] at h
  split at h
  · split at h
    · split at h
      · exact .inl h
      · exact mem_report h
    · exact .inl h
  · exact .inl h

/-- A tag reports faults at its own place only. -/
theorem mem_addTag (h : fault ∈ (d.addTag here directive body variants).diagnostics) :
    fault ∈ d.diagnostics ∨ fault.location = here := by
  cases directive with
  | record =>
    rw [addTag] at h
    split at h
    · exact .inl h
    · exact mem_report h
  | typeAlias =>
    rw [addTag] at h
    split at h
    · split at h
      · rw [diagnostics_addProse] at h
        exact .inl h
      · exact .inl h
    · exact mem_report h
  | field => exact mem_addField h
  | _ => exact .inl h

theorem among_of_mem_read (h : fault ∈ (d.read file block).diagnostics) :
    fault ∈ d.diagnostics ∨ fault.location.Among file (block.map (·.line)) := by
  induction block generalizing d with
  | nil => exact .inl h
  | cons l rest ih =>
    have hrest (h : fault.location.Among file (rest.map (·.line))) :
        fault.location.Among file ((l :: rest).map (·.line)) :=
      let ⟨n, hn, hlocation⟩ := h
      ⟨n, List.mem_cons_of_mem _ hn, hlocation⟩
    rw [read] at h
    rcases ih h with h | h
    · cases hcontent : l.content with
      | prose text =>
        rw [hcontent] at h
        exact .inl (diagnostics_addProse d text ▸ h)
      | variant text =>
        rw [hcontent] at h
        exact .inl (diagnostics_addVariant d text ▸ h)
      | tag directive body =>
        rw [hcontent] at h
        exact (mem_addTag h).imp_right fun hhere => ⟨l.line, List.mem_cons_self, hhere⟩
    · exact .inr (hrest h)

end TypesDraft

theorem FileDocs.among_of_mem_ofBlock {source : Option Text} {decl : ℕ}
    (h : fault ∈ (ofBlock block source file decl).2) :
    fault.location.Among file ((decl + 1) :: block.map (·.line)) := by
  have hblock (h : fault.location.Among file (block.map (·.line))) :
      fault.location.Among file ((decl + 1) :: block.map (·.line)) :=
    let ⟨n, hn, hlocation⟩ := h
    ⟨n, List.mem_cons_of_mem _ hn, hlocation⟩
  rw [ofBlock] at h
  split at h
  · rcases TypesDraft.among_of_mem_read (d := .empty) h with h | h
    · cases h
    · exact hblock h
  · split at h
    · cases h
    · dsimp only at h
      rw [FunctionDoc.ofBlock_diagnostics] at h
      rcases List.mem_append.1 h with h | h
      · exact hblock (FunctionDraft.among_of_mem_read h)
      · obtain ⟨mismatch, -, rfl⟩ := List.mem_map.1 h
        exact ⟨decl + 1, List.mem_cons_self, rfl⟩

/-! ### What is found elsewhere -/

/-- Whether a place is neither in the run of doc comments from one index up to another nor on the line directly
after it. Indexes count from zero, line numbers from one. -/
def Location.isApart (first stop : ℕ) (l : Location) : Bool :=
  !(decide (first < l.line) && decide (l.line ≤ stop + 1))

namespace Source

variable {lines lines' before run run' after : List Text} {first stop decl : ℕ}

theorem not_isApart_of_among {l : Location} (hstop : stop ≤ lines.length) (hrun : WholeRun lines first stop)
    (h : l.Among file ((stop + 1) :: (Block.above lines stop).map (·.line))) : l.isApart first stop = false := by
  obtain ⟨n, hn, rfl⟩ := h
  have hbounds : first < n ∧ n ≤ stop + 1 := by
    rcases List.mem_cons.1 hn with rfl | hn
    · exact ⟨Nat.lt_succ_of_le hrun.le, Nat.le_refl _⟩
    · obtain ⟨first', hrun', hblock⟩ := wholeRun_above hstop hrun.after
      obtain rfl := hrun.first_unique hrun'
      obtain ⟨i, rfl⟩ := exists_eq_succ_of_mem_lines hblock hn
      have hi := (mem_lines_iff hblock).1 hn
      omega
  simp [Location.isApart, hbounds]

/-- Nothing that is found below a run stands apart from it. -/
theorem filter_declarationAt_stop (file : Text) (hstop : stop ≤ lines.length)
    (hrun : WholeRun lines first stop) :
    (declarationAt file lines stop).1.functions.filter (·.location.isApart first stop) = [] ∧
      (declarationAt file lines stop).1.types.filter (·.location.isApart first stop) = [] ∧
      (declarationAt file lines stop).2.filter (·.location.isApart first stop) = [] := by
  have hplace {l : Location} (h : l.Among file ((stop + 1) :: (Block.above lines stop).map (·.line))) :
      ¬ l.isApart first stop = true := by
    rw [not_isApart_of_among hstop hrun h]
    exact Bool.false_ne_true
  refine ⟨List.filter_eq_nil_iff.2 fun f hf => hplace ?_, List.filter_eq_nil_iff.2 fun t ht => hplace ?_,
    List.filter_eq_nil_iff.2 fun fault hfault => hplace (FileDocs.among_of_mem_ofBlock hfault)⟩
  · obtain ⟨signature, -, rfl⟩ := FileDocs.exists_of_mem_ofBlock hf
    exact ⟨stop + 1, List.mem_cons_self, rfl⟩
  · obtain ⟨ns, hns, hlocations⟩ := locations_ofBlock (Block.above lines stop) (codeAt? lines stop) file stop
    have hmem : t.location ∈ ns.map (Location.mk file) := hlocations ▸ List.mem_map_of_mem ht
    obtain ⟨n, hn, hlocation⟩ := List.mem_map.1 hmem
    exact ⟨n, List.mem_cons_of_mem _ (hns.mem hn), hlocation.symm⟩

/-- Between some lines stands a whole run of doc comments, and other doc comments, as many, take its place. -/
structure Exchanged (before run run' after : List Text) : Prop where
  isDoc : ∀ line ∈ run, Comment.isDoc line = true
  isDoc' : ∀ line ∈ run', Comment.isDoc line = true
  length : run.length = run'.length
  before : ∀ line ∈ before.getLast?, Comment.isDoc line = false
  after : ∀ line ∈ after.head?, Comment.isDoc line = false

namespace Exchanged

theorem wholeRun (h : Exchanged before run run' after) :
    WholeRun (before ++ (run ++ after)) before.length (before.length + run.length) := by
  refine ⟨Nat.le_add_right _ _, fun i hfirst hstop => ?_, fun i hi => ?_, ?_⟩
  · have hlt : i - before.length < run.length := by omega
    refine ⟨run[i - before.length], ?_, h.isDoc _ (List.getElem_mem hlt)⟩
    rw [List.getElem?_append_right hfirst, List.getElem?_append_left hlt, List.getElem?_eq_getElem hlt]
  · rintro ⟨line, hline, hdoc⟩
    rw [List.getElem?_append_left (by omega)] at hline
    have hlast : line ∈ before.getLast? := by
      rw [List.getLast?_eq_getElem?, ← hi]
      exact hline
    rw [h.before line hlast] at hdoc
    cases hdoc
  · rintro ⟨line, hline, hdoc⟩
    rw [List.getElem?_append_right (Nat.le_add_right _ _), List.getElem?_append_right (by omega)] at hline
    have hhead : line ∈ after.head? := by
      rw [List.head?_eq_getElem?]
      simpa using hline
    rw [h.after line hhead] at hdoc
    cases hdoc

theorem linewise (h : Exchanged before run run' after) :
    List.Forall₂ Reworded (before ++ (run ++ after)) (before ++ (run' ++ after)) := by
  have hsame (ls : List Text) : List.Forall₂ Reworded ls ls :=
    List.forall₂_same.2 fun _ _ => .inl rfl
  have hrun : List.Forall₂ Reworded run run' :=
    List.forall₂_iff_zip.2 ⟨h.length, fun hmem =>
      .inr ⟨h.isDoc _ (List.of_mem_zip hmem).1, h.isDoc' _ (List.of_mem_zip hmem).2⟩⟩
  exact List.rel_append (hsame before) (List.rel_append hrun (hsame after))

theorem elsewhere (h : Exchanged before run run' after) {i : ℕ}
    (hi : ¬ (before.length ≤ i ∧ i < before.length + run.length)) :
    (before ++ (run ++ after))[i]? = (before ++ (run' ++ after))[i]? := by
  rcases Nat.lt_or_ge i before.length with hlt | hle
  · rw [List.getElem?_append_left hlt, List.getElem?_append_left hlt]
  · have hlength := h.length
    rw [List.getElem?_append_right hle, List.getElem?_append_right hle,
      List.getElem?_append_right (by omega), List.getElem?_append_right (by omega), hlength]

/-- At every line but the one below the run the same is found before and after. -/
theorem declarationAt_eq (h : Exchanged before run run' after) (file : Text)
    (hdecl : decl ∈ declarationPoints (before ++ (run ++ after)))
    (hne : decl ≠ before.length + run.length) :
    declarationAt file (before ++ (run ++ after)) decl = declarationAt file (before ++ (run' ++ after)) decl := by
  obtain ⟨hle, hafter⟩ := of_mem_declarationPoints hdecl
  obtain ⟨first, hrun, -⟩ := wholeRun_above hle hafter
  have hsame : ∀ i, first ≤ i → i < decl → (before ++ (run ++ after))[i]? = (before ++ (run' ++ after))[i]? :=
    fun i hfirst hi => h.elsewhere fun hmem => hne (hrun.unique h.wholeRun ⟨hfirst, hi⟩ hmem)
  rw [declarationAt, declarationAt, above_eq h.linewise hle hrun hsame, codeAt?_eq h.linewise hafter]

end Exchanged

/-- If a whole run of doc comments is exchanged for other doc comments, then the functions, the types and the
faults with a place neither in the run nor on the line directly after it are the same as before, in the same
order. -/
theorem ofContent_exchanged {content content' : Text} (h : Exchanged before run run' after)
    (hlines : Text.lines content = before ++ (run ++ after))
    (hlines' : Text.lines content' = before ++ (run' ++ after)) (file : Text) :
    let apart := Location.isApart before.length (before.length + run.length)
    let parsed := ParsedFile.ofContent file content
    let parsed' := ParsedFile.ofContent file content'
    parsed.docs.functions.filter (apart ·.location) = parsed'.docs.functions.filter (apart ·.location) ∧
      parsed.docs.types.filter (apart ·.location) = parsed'.docs.types.filter (apart ·.location) ∧
      parsed.diagnostics.filter (apart ·.location) = parsed'.diagnostics.filter (apart ·.location) := by
  intro apart parsed parsed'
  have hrun := h.wholeRun
  have hrun' := (wholeRun_iff_of_reworded h.linewise).1 hrun
  have hpoint : ∀ decl ∈ declarationPoints (before ++ (run ++ after)),
      let found := declarationAt file (before ++ (run ++ after)) decl
      let found' := declarationAt file (before ++ (run' ++ after)) decl
      found.1.functions.filter (apart ·.location) = found'.1.functions.filter (apart ·.location) ∧
        found.1.types.filter (apart ·.location) = found'.1.types.filter (apart ·.location) ∧
        found.2.filter (apart ·.location) = found'.2.filter (apart ·.location) := by
    intro decl hdecl
    by_cases hstop : decl = before.length + run.length
    · subst hstop
      have hle : before.length + run.length ≤ (before ++ (run ++ after)).length := by simp
      obtain ⟨hfunctions, htypes, hfaults⟩ := filter_declarationAt_stop file hle hrun
      obtain ⟨hfunctions', htypes', hfaults'⟩ :=
        filter_declarationAt_stop file (h.linewise.length_eq ▸ hle) hrun'
      exact ⟨hfunctions.trans hfunctions'.symm, htypes.trans htypes'.symm, hfaults.trans hfaults'.symm⟩
    · rw [h.declarationAt_eq file hdecl hstop]
      exact ⟨rfl, rfl, rfl⟩
  simp only [parsed, parsed', ParsedFile.ofContent, hlines, hlines', ParsedFile.ofLines,
    ← declarationPoints_eq h.linewise, List.flatMap_map, List.filter_flatMap]
  exact ⟨List.flatMap_congr fun decl hdecl => (hpoint decl hdecl).1,
    List.flatMap_congr fun decl hdecl => (hpoint decl hdecl).2.1,
    List.flatMap_congr fun decl hdecl => (hpoint decl hdecl).2.2⟩

/-- A run in the middle of a parameter list that declared a type and then no longer does. -/
theorem ofContent_exchanged_inside :
    let content := "function M.f(a,\n---@class X\n  b)\n---Tells.\nfunction M.g() end\n".toList
    let content' := "function M.f(a,\n--- and so on )\n  b)\n---Tells.\nfunction M.g() end\n".toList
    let parsed := ParsedFile.ofContent "a.lua".toList content
    let parsed' := ParsedFile.ofContent "a.lua".toList content'
    parsed.docs.types.length = 1 ∧ parsed'.docs.types.length = 0 ∧
      parsed.docs.functions.filter (·.location.isApart 1 2) =
        parsed'.docs.functions.filter (·.location.isApart 1 2) ∧
      (parsed.docs.functions.filter (·.location.isApart 1 2)).map (·.params.map (·.name)) =
        [["a".toList, "b".toList], []] := by
  intro content content' parsed parsed'
  let before := ["function M.f(a,".toList]
  let after := ["  b)".toList, "---Tells.".toList, "function M.g() end".toList]
  have h : Exchanged before ["---@class X".toList] ["--- and so on )".toList] after :=
    ⟨by decide, by decide, rfl, by decide, by decide⟩
  have hlines : Text.lines content = before ++ (["---@class X".toList] ++ after) := by decide +kernel
  have hlines' : Text.lines content' = before ++ (["--- and so on )".toList] ++ after) := by decide +kernel
  have hfunctions := (ofContent_exchanged h hlines hlines' "a.lua".toList).1
  exact ⟨by decide +kernel, by decide +kernel, hfunctions, by decide +kernel⟩

end Source

end LuaDocs
