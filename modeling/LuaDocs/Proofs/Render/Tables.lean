import LuaDocs.Proofs.Declaration.OneLine
import LuaDocs.Proofs.Render.Documented
import LuaDocs.Proofs.Render.Framing

/-!
# Tables

A row of a table is cut at the bars that have no backslash in front of them. A text gets into a row as a
cell or as code, and in both every bar has a backslash in front of it; texts put together from such parts
are cells again. So the row is cut between its cells only, and all rows of a table are cut as often as its
header. They are lines, since no text that a table shows holds a line feed.
-/

namespace LuaDocs.Markdown

open Text

variable {s t v : Text} {c : Char} {guarded : Bool} {cells ls : List Text}

/-! ### Bars -/

/-- The number of bars without a backslash right in front of them; `guarded` says whether a backslash
stands in front of the text. -/
def openBars (guarded : Bool) : Text → ℕ
  | [] => 0
  | c :: s => (if c == '|' && !guarded then 1 else 0) + openBars (c == '\\') s

theorem exists_openBars_append (guarded : Bool) (s : Text) :
    ∃ behind, ∀ t, openBars guarded (s ++ t) = openBars guarded s + openBars behind t := by
  induction s generalizing guarded with
  | nil => exact ⟨guarded, fun t => (Nat.zero_add _).symm⟩
  | cons c s ih =>
    obtain ⟨behind, h⟩ := ih (c == '\\')
    refine ⟨behind, fun t => ?_⟩
    rw [List.cons_append, openBars, openBars, h t, Nat.add_assoc]

/-- After a space the text in front does not matter. -/
theorem openBars_append_space (guarded : Bool) (s t : Text) :
    openBars guarded (s ++ ' ' :: t) = openBars guarded s + openBars false t := by
  obtain ⟨behind, h⟩ := exists_openBars_append guarded s
  have hspace : openBars behind (' ' :: t) = openBars false t := by
    rw [openBars]
    exact Nat.zero_add _
  rw [h, hspace]

/-- No bar of the text is open, whatever stands in front of it. -/
def Closed (s : Text) : Prop :=
  ∀ guarded, openBars guarded s = 0

theorem closed_of_not_mem (h : '|' ∉ s) : Closed s := by
  intro guarded
  induction s generalizing guarded with
  | nil => rfl
  | cons c s ih =>
    rw [List.mem_cons, not_or] at h
    have hc : (c == '|') = false := beq_eq_false_iff_ne.2 (Ne.symm h.1)
    rw [openBars, ih h.2, hc]
    rfl

theorem Closed.append (hs : Closed s) (ht : Closed t) : Closed (s ++ t) := by
  intro guarded
  obtain ⟨behind, h⟩ := exists_openBars_append guarded s
  rw [h, hs, ht]

theorem closed_replaceChar (s : Text) : Closed (replaceChar '|' "\\|".toList s) := by
  have hpiece : ∀ c : Char, Closed (if c == '|' then "\\|".toList else [c]) := by
    intro c
    split
    · exact fun _ => rfl
    · next hc => exact closed_of_not_mem (by simpa using Ne.symm (a := c) (by simpa using hc))
  induction s with
  | nil => exact fun _ => rfl
  | cons c s ih =>
    rw [replaceChar, List.flatMap_cons]
    exact (hpiece c).append ih

/-! ### Cells -/

/-- A text that fits into a row: a single line at whose bars the row is not cut. -/
structure IsCell (s : Text) : Prop where
  oneLine : '\n' ∉ s
  closed : Closed s

theorem isCell_of_not_mem (hfeed : '\n' ∉ s) (hbar : '|' ∉ s) : IsCell s :=
  ⟨hfeed, closed_of_not_mem hbar⟩

theorem IsCell.append (hs : IsCell s) (ht : IsCell t) : IsCell (s ++ t) :=
  ⟨List.not_mem_append hs.oneLine ht.oneLine, hs.closed.append ht.closed⟩

theorem isCell_join (hv : IsCell v) (hls : ∀ l ∈ ls, IsCell l) : IsCell (join v ls) := by
  induction ls with
  | nil => exact isCell_of_not_mem List.not_mem_nil List.not_mem_nil
  | cons l ls ih =>
    obtain ⟨hl, hls⟩ := List.forall_mem_cons.1 hls
    cases ls with
    | nil => rwa [join_singleton]
    | cons m ms =>
      rw [join_cons_cons]
      exact hl.append (hv.append (ih hls))

theorem not_feed_replaceChar (h : '\n' ∉ s) : '\n' ∉ replaceChar '|' "\\|".toList s := by
  intro hmem
  rcases mem_replaceChar hmem with hmem | ⟨hmem, -⟩
  · exact absurd hmem (by decide)
  · exact h hmem

theorem isCell_cell (h : '\n' ∉ s) : IsCell (cell s) :=
  ⟨not_feed_replaceChar h, closed_replaceChar s⟩

theorem isCell_code (h : '\n' ∉ s) : IsCell (code s) := by
  have hquote : IsCell "\x60".toList := isCell_of_not_mem (by decide) (by decide)
  exact (hquote.append (isCell_cell h)).append hquote

theorem isCell_describe {description : Option Text} (h : Prose.OneLine description) :
    IsCell (describe description) := by
  cases description with
  | none => exact isCell_cell List.not_mem_nil
  | some d => exact isCell_cell (h d rfl)

theorem IsCell.append_space (hs : IsCell s) (ht : IsCell t) : IsCell (s ++ ' ' :: t) := by
  have hspace : IsCell [' '] := isCell_of_not_mem (by decide) (by decide)
  exact hs.append (hspace.append ht)

theorem isCell_entry {name : Text} {type : TypeExpr} {description : Option Text} (hname : '\n' ∉ name)
    (htype : type.OneLine) (h : Prose.OneLine description) : IsCell (entry name type description) := by
  have hhead : IsCell (cell name ++ ' ' :: code type.print) :=
    (isCell_cell hname).append_space (isCell_code htype)
  cases description with
  | none =>
    rw [entry, List.append_nil]
    exact hhead
  | some d => exact hhead.append_space (isCell_cell (h d rfl))

theorem isCell_variantEntry {v : Variant} (h : v.OneLine) : IsCell (variantEntry v) := by
  obtain ⟨value, description⟩ := v
  cases description with
  | none =>
    rw [variantEntry, List.append_nil]
    exact isCell_code h.value
  | some d => exact (isCell_code h.value).append_space (isCell_cell (h.description d rfl))

theorem not_feed_fieldName {m : Member} (h : m.OneLine) : '\n' ∉ m.fieldName := by
  rw [Member.fieldName]
  split
  · exact List.not_mem_append h.name (by decide)
  · exact h.name

theorem isCell_of_mem_kindEntries {kind : TypeKind} (h : kind.OneLine) :
    ∀ s ∈ kindEntries kind, IsCell s := by
  cases kind with
  | record parents fields =>
    refine List.forall_mem_append.2 ⟨fun s hs => ?_, List.forall_mem_map.2 fun m hm => ?_⟩
    · split at hs
      · exact absurd hs List.not_mem_nil
      · obtain rfl := List.mem_singleton.1 hs
        have hextends : IsCell "extends ".toList := isCell_of_not_mem (by decide) (by decide)
        have hcomma : IsCell ", ".toList := isCell_of_not_mem (by decide) (by decide)
        exact hextends.append
          (isCell_join hcomma (List.forall_mem_map.2 fun t ht => isCell_code (h.1 t ht)))
    · exact isCell_entry (not_feed_fieldName (h.2 m hm)) (h.2 m hm).type (h.2 m hm).description
  | enumeration variants => exact List.forall_mem_map.2 fun v hv => isCell_variantEntry (h v hv)
  | typeAlias type => exact List.forall_mem_singleton.2 (isCell_code h)

theorem isCell_label (kind : TypeKind) : IsCell kind.label := by
  cases kind with
  | record => exact isCell_of_not_mem (s := "class".toList) (by decide) (by decide)
  | enumeration => exact isCell_of_not_mem (s := "enum".toList) (by decide) (by decide)
  | typeAlias => exact isCell_of_not_mem (s := "alias".toList) (by decide) (by decide)

/-! ### Rows -/

theorem openBars_cells (hcells : ∀ s ∈ cells, IsCell s) (hne : cells ≠ []) :
    openBars false (join " | ".toList cells ++ " |".toList) = cells.length := by
  induction cells with
  | nil => exact absurd rfl hne
  | cons s cells ih =>
    obtain ⟨hs, hcells⟩ := List.forall_mem_cons.1 hcells
    cases cells with
    | nil =>
      have hend : openBars false (s ++ ' ' :: ['|']) = 1 := by
        rw [openBars_append_space, hs.closed]
        rfl
      rwa [join_singleton]
    | cons t cells =>
      have hrest := ih hcells (List.cons_ne_nil t cells)
      have hcut : openBars false (s ++ ' ' :: '|' :: [] ++ ' ' ::
          (join " | ".toList (t :: cells) ++ " |".toList)) = 1 + (t :: cells).length := by
        rw [openBars_append_space, openBars_append_space, hs.closed, hrest]
        rfl
      rw [join_cons_cons, List.length_cons, Nat.add_comm]
      simpa using hcut

/-- A row is cut in front of each of its cells and behind the last. -/
theorem openBars_row (hcells : ∀ s ∈ cells, IsCell s) (hne : cells ≠ []) :
    openBars false (row cells) = cells.length + 1 := by
  have hopen := openBars_append_space false ['|'] (join " | ".toList cells ++ " |".toList)
  rw [openBars_cells hcells hne] at hopen
  rw [Nat.add_comm, row]
  simpa [openBars] using hopen

/-- A bar in a cell does not count, nor does one after a backslash that was there before. -/
example : openBars false (row [cell "a|b".toList, code "c\\|".toList]) = 3 := by
  decide

theorem not_feed_row (hcells : ∀ s ∈ cells, IsCell s) : '\n' ∉ row cells :=
  List.not_mem_append
    (List.not_mem_append (by decide) (not_mem_join (by decide) fun s hs => (hcells s hs).oneLine))
    (by decide)

/-! ### Tables -/

/-- A table: its header, the line below it and its rows. -/
structure Table where
  header : Text
  rule : Text
  rows : List Text

namespace Table

def lines (t : Table) : List Text :=
  t.header :: t.rule :: t.rows ++ [[]]

/-- The lines of a table hold no line feed and have as many open bars as its header. -/
structure Aligned (t : Table) : Prop where
  oneLine : ∀ l ∈ t.header :: t.rule :: t.rows, '\n' ∉ l
  bars : ∀ l ∈ t.rule :: t.rows, openBars false l = openBars false t.header

def shown (header rule : Text) (rows : List Text) : List Table :=
  if rows.isEmpty then [] else [⟨header, rule, rows⟩]

theorem flatMap_lines_shown {α : Type} (header rule : Text) (xs : List α) (f : α → Text) :
    (shown header rule (xs.map f)).flatMap lines =
      if xs.isEmpty then [] else header :: rule :: xs.map f ++ [[]] := by
  cases xs with
  | nil => rfl
  | cons x xs => exact List.append_nil _

theorem aligned_of_mem_shown {t : Table} {header rule : Text} {rows : List Text} (columns : ℕ)
    (hheader : '\n' ∉ header ∧ openBars false header = columns + 1)
    (hrule : '\n' ∉ rule ∧ openBars false rule = columns + 1)
    (hrows : ∀ l ∈ rows, ∃ cells, l = row cells ∧ cells.length = columns ∧ cells ≠ [] ∧
      ∀ s ∈ cells, IsCell s) (ht : t ∈ shown header rule rows) : t.Aligned := by
  rw [shown] at ht
  split at ht
  · exact absurd ht List.not_mem_nil
  · obtain rfl := List.mem_singleton.1 ht
    constructor
    · refine List.forall_mem_cons.2 ⟨hheader.1, List.forall_mem_cons.2 ⟨hrule.1, fun l hl => ?_⟩⟩
      obtain ⟨cells, rfl, -, -, hcells⟩ := hrows l hl
      exact not_feed_row hcells
    · refine List.forall_mem_cons.2 ⟨hrule.2.trans hheader.2.symm, fun l hl => ?_⟩
      obtain ⟨cells, rfl, rfl, hne, hcells⟩ := hrows l hl
      exact (openBars_row hcells hne).trans hheader.2.symm

end Table

def paramRow (p : Member) : Text :=
  row [cell p.name, code p.type.print, describe p.description]

def returnRow (r : ReturnValue) : Text :=
  row [code r.type.print, describe r.description]

def functionTables (f : FunctionDoc) : List Table :=
  Table.shown "| Param | Type | Desc |".toList "| ----- | ---- | ---- |".toList (f.params.map paramRow) ++
    Table.shown "| Returns | Desc |".toList "| ------- | ---- |".toList (f.returns.map returnRow)

/-- The table of types. -/
def typeTables (types : List TypeDoc) : List Table :=
  Table.shown "| Type | Kind | Fields |".toList "| ---- | ---- | ------ |".toList (types.map typeRow)

def heading (f : FunctionDoc) : List Text :=
  ["### ".toList ++ f.call (·.name), [],
    "\x60\x60\x60lua".toList, usage f, "\x60\x60\x60".toList, []] ++
  deprecation f.deprecated

def opening (f : FunctionDoc) : List Text :=
  heading f ++ paragraphs f.description

theorem functionBlock_eq (f : FunctionDoc) : functionBlock f =
    opening f ++ (functionTables f).flatMap Table.lines ++ noteLines f.note := by
  have hparams : paramTable f.params = (Table.shown "| Param | Type | Desc |".toList
      "| ----- | ---- | ---- |".toList (f.params.map paramRow)).flatMap Table.lines :=
    (Table.flatMap_lines_shown _ _ _ _).symm
  have hreturns : returnTable f.returns = (Table.shown "| Returns | Desc |".toList
      "| ------- | ---- |".toList (f.returns.map returnRow)).flatMap Table.lines :=
    (Table.flatMap_lines_shown _ _ _ _).symm
  rw [functionBlock, opening, heading, functionTables, List.flatMap_append, ← hparams, ← hreturns]
  simp only [List.append_assoc]

theorem typeTable_eq_flatMap (types : List TypeDoc) : typeTable types =
    (typeTables types).flatMap fun t => "### Types".toList :: [] :: t.lines := by
  cases types with
  | nil => rfl
  | cons t types => exact (List.append_nil _).symm

theorem aligned_of_mem_functionTables {f : FunctionDoc} (hf : f.OneLine) :
    ∀ t ∈ functionTables f, t.Aligned := by
  refine List.forall_mem_append.2 ⟨fun t ht => ?_, fun t ht => ?_⟩
  · refine Table.aligned_of_mem_shown 3 ⟨by decide, rfl⟩ ⟨by decide, rfl⟩ ?_ ht
    refine List.forall_mem_map.2 fun p hp => ⟨_, rfl, rfl, List.cons_ne_nil _ _, ?_⟩
    obtain ⟨hname, htype, hdescription⟩ := hf.params p hp
    simp only [List.forall_mem_cons]
    exact ⟨isCell_cell hname, isCell_code htype, isCell_describe hdescription, nofun⟩
  · refine Table.aligned_of_mem_shown 2 ⟨by decide, rfl⟩ ⟨by decide, rfl⟩ ?_ ht
    refine List.forall_mem_map.2 fun r hr => ⟨_, rfl, rfl, List.cons_ne_nil _ _, ?_⟩
    obtain ⟨htype, hdescription⟩ := hf.returns r hr
    simp only [List.forall_mem_cons]
    exact ⟨isCell_code htype, isCell_describe hdescription, nofun⟩

theorem aligned_of_mem_typeTables {types : List TypeDoc} (htypes : ∀ t ∈ types, t.OneLine) :
    ∀ t ∈ typeTables types, t.Aligned := by
  intro table htable
  refine Table.aligned_of_mem_shown 3 ⟨by decide, rfl⟩ ⟨by decide, rfl⟩ ?_ htable
  refine List.forall_mem_map.2 fun t ht => ⟨_, rfl, rfl, List.cons_ne_nil _ _, ?_⟩
  obtain ⟨hname, hkind⟩ := htypes t ht
  have hbreak : IsCell "<br>".toList := isCell_of_not_mem (by decide) (by decide)
  simp only [List.forall_mem_cons]
  exact ⟨isCell_code hname, isCell_label t.kind,
    isCell_join hbreak (isCell_of_mem_kindEntries hkind), nofun⟩

/-- The documentation of some functions of a registry consists of their openings, their tables and their
notes, and of the table of the types they refer to. Every row of such a table is a single line that is cut
as often as the header of the table. -/
theorem render_tables {sources : List (Text × Text)} {functions : List FunctionDoc}
    (h : ∀ f ∈ functions, f ∈ (Registry.ofSources sources).functions) :
    let registry := Registry.ofSources sources
    let types := registry.referencedTypes functions
    render functions registry = dropTrailingEmpty
        (functions.flatMap (fun f =>
            opening f ++ (functionTables f).flatMap Table.lines ++ noteLines f.note) ++
          (typeTables types).flatMap fun t => "### Types".toList :: [] :: t.lines) ∧
      ∀ t ∈ functions.flatMap functionTables ++ typeTables types, t.Aligned := by
  intro registry types
  constructor
  · have hblocks : functionBlock = fun f =>
        opening f ++ (functionTables f).flatMap Table.lines ++ noteLines f.note := by
      funext f
      exact functionBlock_eq f
    rw [render, hblocks, typeTable_eq_flatMap]
  · refine List.forall_mem_append.2 ⟨fun t ht => ?_, aligned_of_mem_typeTables fun t ht => ?_⟩
    · obtain ⟨f, hf, ht⟩ := List.mem_flatMap.1 ht
      exact aligned_of_mem_functionTables (Registry.oneLine_of_mem_functions (h f hf)) t ht
    · obtain ⟨n, -, hn⟩ := Registry.mem_referencedTypes_iff.1 ht
      exact Registry.oneLine_of_mem_types (List.mem_of_find?_eq_some hn)

/-- Two functions with a parameter each. -/
theorem render_tables_box :
    let registry := Registry.ofSources [("a.lua".toList, Registry.boxText)]
    let functions := registry.functions
    let types := registry.referencedTypes functions
    (functions.flatMap functionTables).map (·.rows) =
        [["| b | \x60Box<number>\x60 |  |".toList], ["| b | \x60Box[]\x60 |  |".toList]] ∧
      (∀ f ∈ functions, f ∈ registry.functions) ∧
      render functions registry = dropTrailingEmpty
        (functions.flatMap (fun f =>
            opening f ++ (functionTables f).flatMap Table.lines ++ noteLines f.note) ++
          (typeTables types).flatMap fun t => "### Types".toList :: [] :: t.lines) ∧
      ∀ t ∈ functions.flatMap functionTables ++ typeTables types, t.Aligned := by
  intro registry functions types
  have hfunctions : ∀ f ∈ functions, f ∈ registry.functions := fun f hf => hf
  have hrows : (functions.flatMap functionTables).map (·.rows) =
      [["| b | \x60Box<number>\x60 |  |".toList], ["| b | \x60Box[]\x60 |  |".toList]] := by
    have hbox := Registry.functions_boxText
    rw [show functions = _ from hbox]
    rfl
  exact ⟨hrows, hfunctions, render_tables hfunctions⟩

end LuaDocs.Markdown
