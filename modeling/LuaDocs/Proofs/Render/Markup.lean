import LuaDocs.Proofs.Registry.Order
import LuaDocs.Proofs.Render.Blocks
import LuaDocs.Proofs.Render.Escaping
import LuaDocs.Proofs.Text.Filling

/-!
# Markup in help text

The only tags in rendered help text are those of its headings, and it has no links and opens no examples.
Text is escaped before it is filled, so this can fail in one way: a word that is longer than a line is
cut, the cut may part a mark from its backslash, and a piece may look like the start of an example.
-/

namespace LuaDocs.Help

open Text

variable {layout : Layout} {moduleName s t line name w : Text} {registry : Registry}
  {functions : List FunctionDoc} {b : Block} {p : Passage}

/-! ### Sound lines -/

/-- The line ends in the tag of a name at the right margin, and the two stars around the tag are its only
marks without a backslash. -/
def Headed (layout : Layout) (name line : Text) : Prop :=
  ∃ left, line = left ++ tag name ∧ Guarded left ∧ (∀ c ∈ escapeTag name, isMark c = false) ∧
    line.length = max layout.wrapWidth (tag name).length

/-- A line whose only markup is the tag of a heading. -/
structure Sound (layout : Layout) (blocks : List Block) (line : Text) : Prop where
  marks : Guarded line ∨ ∃ b ∈ blocks, Headed layout b.name line
  ending : ¬ EndsInOpener line

theorem Neutral.sound (h : Neutral line) (layout : Layout) (blocks : List Block) :
    Sound layout blocks line :=
  ⟨.inl h.guarded, h.ending⟩

theorem getLast?_append_tag (s name : Text) : (s ++ tag name).getLast? = some '*' := by
  rw [tag, ← List.append_assoc, List.getLast?_concat]

/-- No example is opened by the star at the end of a tag. -/
theorem not_endsInOpener_tag (s name : Text) : ¬ EndsInOpener (s ++ tag name) := by
  rintro ⟨before, w, heq, hw, -⟩
  cases w with
  | nil => cases hw
  | cons c w =>
    rw [isOpener, Bool.and_eq_true, beq_iff_eq, List.all_eq_true] at hw
    obtain ⟨rfl, hw⟩ := hw
    have hstar : '*' ∈ '>' :: w := by
      have hlast := congrArg List.getLast? heq
      rw [getLast?_append_tag, List.getLast?_append,
        Option.or_of_isSome (by rw [List.getLast?_cons]; rfl)] at hlast
      exact List.mem_of_getLast? hlast.symm
    rcases List.mem_cons.1 hstar with h | h
    · cases h
    · cases hw '*' h

/-- The two ways in which a heading is laid out. -/
theorem sound_of_mem_leftRight {blocks : List Block} (hb : b ∈ blocks) (hleft : Escaped b.left)
    (h : line ∈ leftRight b.left (tag b.name) layout.wrapWidth) : Sound layout blocks line := by
  have hmarks : ∀ c ∈ escapeTag b.name, isMark c = false := fun c hc => (mem_escapeTag hc).1
  rw [leftRight] at h
  split at h
  · next hfits =>
    obtain rfl := List.mem_singleton.1 h
    refine ⟨.inr ⟨b, hb, _, rfl, (hleft.append (escaped_spaces _)).guarded, hmarks, ?_⟩,
      not_endsInOpener_tag _ _⟩
    rw [List.length_append, List.length_append, length_spaces]
    omega
  · rw [List.mem_cons, List.mem_singleton] at h
    rcases h with rfl | rfl
    · exact hleft.neutral.sound layout blocks
    · refine ⟨.inr ⟨b, hb, _, rfl, (escaped_spaces _).guarded, hmarks, ?_⟩,
        not_endsInOpener_tag _ _⟩
      rw [List.length_append, length_spaces]
      omega

/-! ### Passages -/

def Passage.room (layout : Layout) (p : Passage) : ℕ :=
  max 1 (layout.wrapWidth - (layout.indent + p.further))

/-- The pieces of the words of a passage that are longer than a line. -/
def Passage.cuts (layout : Layout) (p : Passage) : List Text :=
  ((words p.text).filter (p.room layout < ·.length)).flatMap (chunks (p.room layout))

theorem mem_words_of_mem_lines (h : line ∈ p.lines layout) (hw : w ∈ words line) :
    w ∈ words p.text ∨ w ∈ p.cuts layout := by
  have hpiece : w ∈ (words p.text).flatMap (chunks (p.room layout)) := mem_pieces_of_mem_wrap h hw
  obtain ⟨v, hv, hwv⟩ := List.mem_flatMap.1 hpiece
  rcases Nat.lt_or_ge (p.room layout) v.length with hlong | hshort
  · refine .inr (List.mem_flatMap.2 ⟨v, List.mem_filter.2 ⟨hv, ?_⟩, hwv⟩)
    exact decide_eq_true hlong
  · rw [chunks_of_length_le hshort] at hwv
    obtain rfl := List.mem_singleton.1 hwv
    exact .inl hv

/-- A line of an escaped passage is neutral if the pieces of cut words in it are. -/
theorem neutral_of_mem_lines (hp : Escaped p.text) (h : line ∈ p.lines layout)
    (hcuts : ∀ piece ∈ p.cuts layout, piece ∈ words line → Neutral piece) : Neutral line := by
  refine (escaped_iff.2 fun w hw => ?_).neutral
  rcases mem_words_of_mem_lines h hw with hword | hcut
  · exact escaped_iff.1 hp w hword
  · exact (hcuts w hcut hw).escaped (unbroken_of_mem_words hw).2

theorem escaped_of_mem_paragraphs (hp : p ∈ Passage.paragraphs s) : Escaped p.text := by
  obtain ⟨text, htext, rfl⟩ := List.mem_map.1 hp
  refine escaped_iff.2 fun w hw => escaped_iff.1 (escaped_escape s) w ?_
  rw [← words_splitParagraphs]
  exact List.mem_flatMap.2 ⟨text, List.mem_of_mem_filter htext, hw⟩

theorem escaped_entry {head : Text} (hhead : Escaped head) (description : Option Text) :
    Escaped (Passage.entry head description).text := by
  cases description with
  | none => exact hhead
  | some d => exact (escaped_append_cons rfl).2 ⟨hhead, escaped_escape d⟩

theorem escaped_member (name : Member → Text) (m : Member) :
    Escaped (Passage.member name m).text :=
  escaped_entry ((escaped_append_cons rfl).2 ⟨escaped_argument _, escaped_code _⟩) m.description

theorem escaped_of_mem_deprecation {reason : Option Text} (hp : p ∈ Passage.deprecation reason) :
    Escaped p.text := by
  match reason with
  | some [] =>
    obtain rfl := List.mem_singleton.1 hp
    exact escaped_escape _
  | some (_ :: _) =>
    obtain rfl := List.mem_singleton.1 hp
    exact escaped_escape _

theorem escaped_of_mem_ofKind {kind : TypeKind} (hp : p ∈ Passage.ofKind kind) : Escaped p.text := by
  cases kind with
  | record parents fields =>
    rcases List.mem_append.1 hp with hp | hp
    · split at hp
      · exact absurd hp List.not_mem_nil
      · obtain rfl := List.mem_singleton.1 hp
        have hextends : Escaped "Extends: ".toList := escaped_of_test rfl
        have hcomma : Escaped ", ".toList := escaped_of_test rfl
        refine hextends.append (escaped_join hcomma ?_)
        exact List.forall_mem_map.2 fun parent _ => escaped_code parent.print
    · obtain ⟨m, -, rfl⟩ := List.mem_map.1 hp
      exact escaped_member Member.fieldName m
  | enumeration variants =>
    obtain ⟨v, -, rfl⟩ := List.mem_map.1 hp
    exact escaped_entry (escaped_code v.value) v.description
  | typeAlias type =>
    obtain rfl := List.mem_singleton.1 hp
    have htype : Escaped "Type: ".toList := escaped_of_test rfl
    exact htype.append (escaped_code type.print)

/-! ### Blocks -/

structure Block.Clean (b : Block) : Prop where
  left : Escaped b.left
  passages : ∀ p ∈ b.passages, Escaped p.text

theorem clean_ofFunction (moduleName : Text) (f : FunctionDoc) :
    (Block.ofFunction moduleName f).Clean := by
  refine ⟨escaped_escape _, fun p hp => ?_⟩
  simp only [Block.ofFunction, List.mem_append] at hp
  rcases hp with ((hp | hp) | hp) | hp
  · exact escaped_of_mem_deprecation hp
  · exact escaped_of_mem_paragraphs hp
  · obtain ⟨m, -, rfl⟩ := List.mem_map.1 hp
    exact escaped_member _ m
  · obtain ⟨r, -, rfl⟩ := List.mem_map.1 hp
    exact escaped_entry (escaped_code r.type.print) r.description

theorem clean_ofType (t : TypeDoc) : (Block.ofType t).Clean := by
  refine ⟨escaped_escape _, fun p hp => ?_⟩
  rw [Block.ofType, List.cons_append, List.mem_cons, List.mem_append] at hp
  rcases hp with rfl | hp | hp
  · cases t.kind with
    | record => exact escaped_of_test (s := "(class)".toList) rfl
    | enumeration => exact escaped_of_test (s := "(enum)".toList) rfl
    | typeAlias => exact escaped_of_test (s := "(alias)".toList) rfl
  · exact escaped_of_mem_paragraphs hp
  · exact escaped_of_mem_ofKind hp

theorem clean_of_mem_blocks (hb : b ∈ blocks moduleName functions registry) : b.Clean := by
  rcases List.mem_append.1 hb with hb | hb
  · obtain ⟨f, -, rfl⟩ := List.mem_map.1 hb
    exact clean_ofFunction moduleName f
  · obtain ⟨t, -, rfl⟩ := List.mem_map.1 hb
    exact clean_ofType t

theorem escaped_of_mem_titles_frames : ∀ s ∈ titles ++ frames, Escaped s := by
  have hall : (titles ++ frames).all (fun s => !(s.any isMark || hasOpener true s)) = true := rfl
  exact fun s hs => escaped_of_test (by simpa using List.all_eq_true.1 hall s hs)

/-- Every line of help text is sound, unless it holds a piece of a word longer than a line that is not
neutral by itself. -/
theorem sound_of_mem_render (h : line ∈ render layout moduleName functions registry) :
    Sound layout (blocks moduleName functions registry) line ∨
      ∃ b ∈ blocks moduleName functions registry, ∃ p ∈ b.passages, line ∈ p.lines layout ∧
        ∃ piece ∈ p.cuts layout, piece ∈ words line ∧ ¬ Neutral piece := by
  rcases line_of_mem_render h with rfl | rfl | ⟨b, hb, hline⟩
  · exact .inl (escaped_nil.neutral.sound _ _)
  · have htypes : Escaped "Types:".toList := escaped_of_test rfl
    exact .inl (htypes.neutral.sound _ _)
  · have hclean := clean_of_mem_blocks hb
    cases hline with
    | blank => exact .inl (escaped_nil.neutral.sound _ _)
    | heading h => exact .inl (sound_of_mem_leftRight hb hclean.left h)
    | @filled p _ hp hfilled =>
      by_cases hcuts : ∀ piece ∈ p.cuts layout, piece ∈ words line → Neutral piece
      · exact .inl ((neutral_of_mem_lines (hclean.passages _ hp) hfilled hcuts).sound _ _)
      · push Not at hcuts
        exact .inr ⟨b, hb, _, hp, hfilled, hcuts⟩
    | title hs =>
      have htitle := escaped_of_mem_titles_frames _ (List.mem_append_left _ hs)
      exact .inl (((escaped_spaces _).append htitle).neutral.sound _ _)
    | frame hs =>
      have hframe := escaped_of_mem_titles_frames _ (List.mem_append_right _ hs)
      exact .inl (((escaped_spaces _).append hframe).neutral.sound _ _)
    | noted hnote hs =>
      refine .inl (Escaped.neutral (escaped_iff.2 ?_) |>.sound _ _)
      rw [words_trimEnd]
      exact escaped_iff.1 ((escaped_spaces _).append (escaped_escape _))

/-- Two words of eight and eleven characters on lines of seven, both cut in front of their last part. -/
theorem render_narrow :
    let registry := Registry.ofSources
      [("a.lua".toList, "---aaaaaa*b aaaaaaa>lua\nfunction f() end\n".toList)]
    render ⟨7, 0⟩ "m".toList (registry.exposedFunctions "a.lua".toList) registry =
      ["f()".toList, "  *m.f*".toList, "aaaaaa\\".toList, "*b".toList, "aaaaaaa".toList,
        ">lua".toList] := by
  let f : FunctionDoc :=
    { name := "f".toList, declaredName := "f".toList, params := [], returns := []
      description := "aaaaaa*b aaaaaaa>lua".toList, note := none, deprecated := none, generics := []
      visibility := .exposed, location := ⟨"a.lua".toList, 2⟩ }
  have hregistry : Registry.ofSources
      [("a.lua".toList, "---aaaaaa*b aaaaaaa>lua\nfunction f() end\n".toList)] =
        ⟨[("a.lua".toList, ⟨[f], []⟩)], [], []⟩ := by
    rw [Registry.ofSources_singleton]
    rfl
  have hfunctions : Registry.exposedFunctions ⟨[("a.lua".toList, ⟨[f], []⟩)], [], []⟩
      "a.lua".toList = [f] := rfl
  have htypes : ∀ registry : Registry, registry.referencedTypes [f] = [] := by
    intro registry
    change registry.follow [] [] = []
    rw [Registry.follow]
  have hblock : functionBlock ⟨7, 0⟩ "m".toList f =
      ["f()".toList, "  *m.f*".toList, "aaaaaa\\".toList, "*b".toList, "aaaaaaa".toList,
        ">lua".toList] := by
    cbv
  dsimp only
  rw [hregistry, hfunctions, render, htypes, List.flatMap_singleton, hblock]
  rfl

/-- The star of a tag that nobody wrote: its backslash is on the line before. -/
theorem sound_of_mem_render_narrow :
    let registry := Registry.ofSources
      [("a.lua".toList, "---aaaaaa*b aaaaaaa>lua\nfunction f() end\n".toList)]
    let functions := registry.exposedFunctions "a.lua".toList
    "*b".toList ∈ render ⟨7, 0⟩ "m".toList functions registry ∧
      (Sound ⟨7, 0⟩ (blocks "m".toList functions registry) "*b".toList ∨
        ∃ b ∈ blocks "m".toList functions registry, ∃ p ∈ b.passages,
          "*b".toList ∈ p.lines ⟨7, 0⟩ ∧
            ∃ piece ∈ p.cuts ⟨7, 0⟩, piece ∈ words "*b".toList ∧ ¬ Neutral piece) := by
  intro registry functions
  have hmem : "*b".toList ∈ render ⟨7, 0⟩ "m".toList functions registry := by
    rw [render_narrow]
    decide
  exact ⟨hmem, sound_of_mem_render hmem⟩

/-- A star without its backslash, and a line that ends in the start of an example. -/
theorem not_sound_narrow :
    let registry := Registry.ofSources
      [("a.lua".toList, "---aaaaaa*b aaaaaaa>lua\nfunction f() end\n".toList)]
    let functions := registry.exposedFunctions "a.lua".toList
    let lines := render ⟨7, 0⟩ "m".toList functions registry
    ("*b".toList ∈ lines ∧ ¬ Sound ⟨7, 0⟩ (blocks "m".toList functions registry) "*b".toList) ∧
      ">lua".toList ∈ lines ∧
        ¬ Sound ⟨7, 0⟩ (blocks "m".toList functions registry) ">lua".toList := by
  intro registry functions lines
  have hlines : lines = ["f()".toList, "  *m.f*".toList, "aaaaaa\\".toList, "*b".toList,
      "aaaaaaa".toList, ">lua".toList] := render_narrow
  rw [hlines]
  refine ⟨⟨by decide, fun hsound => ?_⟩, by decide, fun hsound => ?_⟩
  · rcases hsound.marks with hguarded | ⟨b, -, left, heq, -⟩
    · cases hguarded [] '*' ['b'] rfl rfl
    · have hlast := congrArg List.getLast? heq
      rw [getLast?_append_tag] at hlast
      cases hlast
  · exact hsound.ending ⟨[], ">lua".toList, rfl, rfl, nofun⟩

end LuaDocs.Help
