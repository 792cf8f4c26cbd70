import LuaDocs.Proofs.Registry.Order
import LuaDocs.Proofs.Render.Blocks
import LuaDocs.Proofs.Text.Filling

/-!
# The width of help text

Filled text keeps to the width of the layout, and the titles of lists are short. What can be wider is what
is not filled: the two halves of a heading that do not stand on one line, and the lines of a note. So the
wide lines of a block are those among these, and the wide lines of help text are those of its blocks.
-/

namespace LuaDocs.Help

open Text

variable {layout : Layout} {moduleName s title line : Text} {ls ms : List Text} {registry : Registry}
  {functions : List FunctionDoc} {b : Block} {p : Passage}

/-! ### Wide lines -/

def wide (layout : Layout) (ls : List Text) : List Text :=
  ls.filter (layout.wrapWidth < ·.length)

theorem wide_append (layout : Layout) (ls ms : List Text) :
    wide layout (ls ++ ms) = wide layout ls ++ wide layout ms :=
  List.filter_append _ _

theorem wide_flatMap {α : Type} (layout : Layout) (f : α → List Text) (xs : List α) :
    wide layout (xs.flatMap f) = xs.flatMap fun x => wide layout (f x) :=
  List.filter_flatMap

def Fits (layout : Layout) (ls : List Text) : Prop :=
  ∀ line ∈ ls, line.length ≤ layout.wrapWidth

theorem Fits.wide_eq (h : Fits layout ls) : wide layout ls = [] := by
  refine List.filter_eq_nil_iff.2 fun line hline => ?_
  have hle := h line hline
  simp only [decide_eq_true_eq]
  omega

theorem fits_nil : Fits layout [] :=
  List.forall_mem_nil _

theorem fits_empty : Fits layout [[]] :=
  List.forall_mem_singleton.2 (Nat.zero_le _)

theorem Fits.append (hls : Fits layout ls) (hms : Fits layout ms) : Fits layout (ls ++ ms) :=
  List.forall_mem_append.2 ⟨hls, hms⟩

theorem fits_flatMap {α : Type} {f : α → List Text} {xs : List α} (h : ∀ x ∈ xs, Fits layout (f x)) :
    Fits layout (xs.flatMap f) := by
  intro line hline
  obtain ⟨x, hx, hline⟩ := List.mem_flatMap.1 hline
  exact h x hx line hline

theorem wide_dropTrailingEmpty (layout : Layout) (ls : List Text) :
    wide layout (dropTrailingEmpty ls) = wide layout ls := by
  obtain ⟨empties, hempties, hls⟩ := exists_append_dropTrailingEmpty ls
  have hfits : Fits layout empties := by
    intro line hline
    rw [hempties line hline]
    exact Nat.zero_le _
  conv_rhs => rw [hls, wide_append, hfits.wide_eq, List.append_nil]

/-! ### What fits -/

section

variable (hroom : layout.indent + 11 ≤ layout.wrapWidth)

include hroom

/-- The widest hanging indentation leaves room for five columns. -/
theorem fits_lines (hfirst : p.first ≤ p.further) (hfurther : p.further ≤ 6) :
    Fits layout (p.lines layout) := by
  intro line hline
  exact length_le_of_mem_wrap (Nat.add_le_add_left hfirst _) (by omega) hline

theorem fits_paragraph (s : Text) : Fits layout (paragraph layout s) :=
  fits_lines hroom (p := .plain s) le_rfl (Nat.zero_le _)

theorem fits_entry (head : Text) (description : Option Text) :
    Fits layout (entry layout head description) := by
  rw [entry_eq]
  exact fits_lines hroom (Nat.le_add_right 2 4) le_rfl

theorem fits_description (s : Text) : Fits layout (description layout s) := by
  intro line hline
  rcases mem_description hline with rfl | ⟨p, hp, hline⟩
  · exact Nat.zero_le _
  · obtain ⟨text, -, rfl⟩ := List.mem_map.1 hp
    exact fits_paragraph hroom text line hline

theorem fits_titled (htitle : title.length ≤ 11) (h : Fits layout ls) :
    Fits layout (titled layout title ls) := by
  refine List.forall_mem_cons.2 ⟨Nat.zero_le _, List.forall_mem_cons.2 ⟨?_, h⟩⟩
  rw [List.length_append, margin, length_spaces]
  omega

theorem fits_members (htitle : title.length ≤ 11) (name : Member → Text) (ms : List Member) :
    Fits layout (members layout title name ms) := by
  rw [members]
  split
  · exact fits_nil
  · exact fits_titled hroom htitle (fits_flatMap fun m _ => fits_entry hroom _ _)

theorem fits_deprecation (reason : Option Text) : Fits layout (deprecation layout reason) := by
  match reason with
  | none => exact fits_nil
  | some [] => exact fits_paragraph hroom _
  | some (_ :: _) => exact fits_paragraph hroom _

theorem fits_returnList (returns : List ReturnValue) : Fits layout (returnList layout returns) := by
  rw [returnList]
  split
  · exact fits_nil
  · exact fits_titled hroom (by decide) (fits_flatMap fun r _ => fits_entry hroom _ _)

theorem fits_kindLines (kind : TypeKind) : Fits layout (kindLines layout kind) := by
  cases kind with
  | record parents fields =>
    refine Fits.append ?_ (fits_members hroom (by decide) _ _)
    split
    · exact fits_nil
    · exact fits_paragraph hroom _
  | enumeration variants =>
    exact fits_titled hroom (by decide) (fits_flatMap fun v _ => fits_entry hroom _ _)
  | typeAlias type => exact fits_paragraph hroom _

end

/-! ### What is not filled -/

/-- The lines of a heading whose tag does not fit beside its text. -/
def Block.broken (layout : Layout) (b : Block) : List Text :=
  if b.left.length + 1 + (tag b.name).length ≤ layout.wrapWidth then [] else [b.left, tag b.name]

def Block.noted (layout : Layout) (b : Block) : List Text :=
  b.note.elim [] fun note => (lines note).map fun line => trimEnd (margin layout 2 ++ escape line)

/-- The lines of a block that are not filled: the text and the tag of its heading when they do not stand
side by side, and the lines of its note. -/
def Block.unfilled (layout : Layout) (b : Block) : List Text :=
  b.broken layout ++ b.noted layout

/-- A tag that is pushed to the right margin is as wide as the layout, unless it is wider by itself. -/
theorem wide_pushed (layout : Layout) (s : Text) :
    wide layout [spaces (layout.wrapWidth - s.length) ++ s] = wide layout [s] := by
  rcases Nat.lt_or_ge layout.wrapWidth s.length with hlong | hshort
  · rw [Nat.sub_eq_zero_of_le (Nat.le_of_lt hlong)]
    rfl
  · have hpushed : Fits layout [spaces (layout.wrapWidth - s.length) ++ s] := by
      refine List.forall_mem_singleton.2 ?_
      rw [List.length_append, length_spaces]
      omega
    have hs : Fits layout [s] := List.forall_mem_singleton.2 hshort
    rw [hpushed.wide_eq, hs.wide_eq]

theorem wide_heading (layout : Layout) (b : Block) :
    wide layout (leftRight b.left (tag b.name) layout.wrapWidth) = wide layout (b.broken layout) := by
  rw [leftRight, Block.broken]
  split
  · next hfits =>
    refine Fits.wide_eq (List.forall_mem_singleton.2 ?_)
    rw [List.length_append, List.length_append, length_spaces]
    omega
  · have hpair : ∀ left right, wide layout [left, right] = wide layout [left] ++ wide layout [right] :=
      fun left right => wide_append layout [left] [right]
    rw [hpair, hpair, wide_pushed]

theorem wide_noteLines (hroom : layout.indent + 11 ≤ layout.wrapWidth) (b : Block) :
    wide layout (noteLines layout b.note) = wide layout (b.noted layout) := by
  rw [Block.noted]
  cases b.note with
  | none => rfl
  | some note =>
    have hframe : ∀ frame ∈ frames, Fits layout [margin layout 2 ++ frame] := by
      intro frame hframe
      have hlength : frame.length ≤ 6 := by revert frame; decide
      refine List.forall_mem_singleton.2 ?_
      rw [List.length_append, margin, length_spaces]
      omega
    have hopen : Fits layout (titled layout "Note:".toList [margin layout 2 ++ "<pre>".toList]) :=
      fits_titled hroom (by decide) (hframe _ (by decide))
    have hsplit : noteLines layout (some note) =
        titled layout "Note:".toList [margin layout 2 ++ "<pre>".toList] ++
          ((lines note).map (fun line => trimEnd (margin layout 2 ++ escape line)) ++
            [margin layout 2 ++ "</pre>".toList]) := rfl
    rw [hsplit, wide_append, wide_append, hopen.wide_eq, (hframe _ (by decide)).wide_eq, List.nil_append,
      List.append_nil]
    rfl

/-! ### Blocks -/

section

variable (hroom : layout.indent + 11 ≤ layout.wrapWidth)

include hroom

theorem wide_functionBlock (moduleName : Text) (f : FunctionDoc) :
    wide layout (functionBlock layout moduleName f) =
      wide layout ((Block.ofFunction moduleName f).unfilled layout) := by
  have hheading := wide_heading layout (.ofFunction moduleName f)
  have hnote := wide_noteLines hroom (.ofFunction moduleName f)
  have hmembers : Fits layout (members layout "Parameters:".toList (·.name) f.params) :=
    fits_members hroom (by decide) _ _
  rw [Block.ofFunction] at hheading hnote
  rw [functionBlock, Block.unfilled, Block.ofFunction]
  simp only [wide_append, hheading, hnote, hmembers.wide_eq, (fits_deprecation hroom _).wide_eq,
    (fits_description hroom _).wide_eq, (fits_returnList hroom _).wide_eq, List.append_nil]

theorem wide_typeBlock (t : TypeDoc) :
    wide layout (typeBlock layout t) = wide layout ((Block.ofType t).unfilled layout) := by
  have hheading := wide_heading layout (.ofType t)
  rw [Block.ofType] at hheading
  rw [typeBlock, Block.unfilled, Block.ofType]
  simp only [wide_append, hheading, (fits_paragraph hroom _).wide_eq,
    (fits_description hroom _).wide_eq, (fits_kindLines hroom _).wide_eq, List.append_nil]
  exact (List.append_nil _).symm

theorem wide_typeBlocks (types : List TypeDoc) :
    wide layout (typeBlocks layout types) =
      types.flatMap fun t => wide layout ((Block.ofType t).unfilled layout) := by
  rw [typeBlocks]
  split
  · next hnil =>
    rw [List.isEmpty_iff.1 hnil]
    rfl
  · have htitle : Fits layout ["Types:".toList, []] := by
      refine List.forall_mem_cons.2 ⟨?_, fits_empty⟩
      have hlength : "Types:".toList.length = 6 := rfl
      omega
    have hsplit : "Types:".toList :: [] :: types.flatMap (fun t => typeBlock layout t ++ [[]]) =
        ["Types:".toList, []] ++ types.flatMap fun t => typeBlock layout t ++ [[]] := rfl
    rw [hsplit, wide_append, htitle.wide_eq, List.nil_append, wide_flatMap]
    refine List.flatMap_congr fun t _ => ?_
    rw [wide_append, fits_empty.wide_eq, List.append_nil, wide_typeBlock hroom]

/-- The lines of help text that are wider than the layout are, in order, those of its blocks that are not
filled. -/
theorem wide_render (moduleName : Text) (functions : List FunctionDoc) (registry : Registry) :
    wide layout (render layout moduleName functions registry) =
      (blocks moduleName functions registry).flatMap fun b => wide layout (b.unfilled layout) := by
  have hfunctions : wide layout (functions.flatMap fun f => functionBlock layout moduleName f ++ [[]]) =
      functions.flatMap fun f => wide layout ((Block.ofFunction moduleName f).unfilled layout) := by
    rw [wide_flatMap]
    refine List.flatMap_congr fun f _ => ?_
    rw [wide_append, fits_empty.wide_eq, List.append_nil, wide_functionBlock hroom]
  rw [render, wide_dropTrailingEmpty, wide_append, hfunctions, wide_typeBlocks hroom, blocks,
    List.flatMap_append, List.flatMap_map, List.flatMap_map]

end

/-- A call, its tag and a note that are all wider than the narrowest layout. -/
theorem wide_render_narrow :
    let registry := Registry.ofSources
      [("a.lua".toList, "---@note\n---two  blanks\nfunction unfillable() end\n".toList)]
    let functions := registry.exposedFunctions "a.lua".toList
    0 + 11 ≤ 11 ∧
      wide ⟨11, 0⟩ (render ⟨11, 0⟩ "m".toList functions registry) =
        (blocks "m".toList functions registry).flatMap
          (fun b => wide ⟨11, 0⟩ (b.unfilled ⟨11, 0⟩)) ∧
      wide ⟨11, 0⟩ (render ⟨11, 0⟩ "m".toList functions registry) =
        ["unfillable()".toList, "*m.unfillable*".toList, "  two  blanks".toList] := by
  let f : FunctionDoc :=
    { name := "unfillable".toList, declaredName := "unfillable".toList, params := [], returns := []
      description := [], note := some "two  blanks".toList, deprecated := none, generics := []
      visibility := .exposed, location := ⟨"a.lua".toList, 3⟩ }
  have hregistry : Registry.ofSources
      [("a.lua".toList, "---@note\n---two  blanks\nfunction unfillable() end\n".toList)] =
        ⟨[("a.lua".toList, ⟨[f], []⟩)], [], []⟩ := by
    rw [Registry.ofSources_singleton]
    rfl
  have hfunctions : Registry.exposedFunctions ⟨[("a.lua".toList, ⟨[f], []⟩)], [], []⟩
      "a.lua".toList = [f] := rfl
  have htypes : Registry.referencedTypes ⟨[("a.lua".toList, ⟨[f], []⟩)], [], []⟩ [f] = [] := by
    change Registry.follow _ [] [] = []
    rw [Registry.follow]
  intro registry functions
  have hroom : (⟨11, 0⟩ : Layout).indent + 11 ≤ (⟨11, 0⟩ : Layout).wrapWidth := by decide
  have hwide := wide_render hroom "m".toList functions registry
  refine ⟨hroom, hwide, hwide.trans ?_⟩
  dsimp only [functions, registry]
  rw [hregistry, hfunctions, blocks, htypes]
  rfl

end LuaDocs.Help
