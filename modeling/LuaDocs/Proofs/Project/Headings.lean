import LuaDocs.Proofs.Declaration.Naming
import LuaDocs.Proofs.Project.Repeating
import LuaDocs.Proofs.Render.Fences
import LuaDocs.Proofs.Render.Framing

/-!
# Functions in the table of contents

The table of contents is read off the generated lines, and a heading counts unless a block of code is open
in front of it. The example in the block of a function opens and closes one. What somebody wrote in a
description or a note can open another, which stays open in the blocks after it until another such line
closes it; the functions in between are missing from the table.
-/

namespace LuaDocs

open Text

/-! ### Blocks of functions -/

namespace Markdown

open Contents

variable {f : FunctionDoc} {fs : List FunctionDoc} {ls : List Text} {c : Char}

theorem quiet_of_opened (h : Opened c ls) (hc : isPlain c = true) : Quiet ls := by
  intro l hl
  obtain rfl | ⟨s, rfl⟩ := h l hl
  · exact ⟨rfl, rfl⟩
  · exact quiet_cons hc s

theorem isPlain_of_isNameChar (h : isNameChar c = true) : isPlain c = true := by
  rw [isPlain, isBlank]
  simp only [Bool.not_eq_true', Bool.or_eq_false_iff, beq_eq_false_iff_ne]
  refine ⟨⟨⟨⟨?_, ?_⟩, ?_⟩, ?_⟩, ?_⟩ <;> rintro rfl <;> cases h

/-- A call opens with a character of a name or with its parenthesis. -/
theorem exists_cons_call (h : f.Named) (mark : Member → Text) :
    ∃ c s, f.call mark = c :: s ∧ isPlain c = true := by
  cases hname : f.name with
  | nil => exact ⟨'(', _, by rw [FunctionDoc.call, hname]; rfl, rfl⟩
  | cons c s =>
    have hc : isNameChar c = true := h.name c (hname ▸ List.mem_cons_self)
    exact ⟨c, _, by rw [FunctionDoc.call, hname]; rfl, isPlain_of_isNameChar hc⟩

theorem quiet_usage (h : f.Named) : isFence (usage f) = false ∧ heading? (usage f) = none := by
  obtain ⟨c, s, hcall, hc⟩ := exists_cons_call h Member.markedName
  rw [usage, hcall, List.cons_append]
  exact quiet_cons hc _

theorem not_feed_call (h : f.Named) : '\n' ∉ f.call (·.name) := by
  have hname : '\n' ∉ f.name := fun hmem => absurd (h.name _ hmem) (by decide)
  have hparams : '\n' ∉ join ", ".toList (f.params.map (·.name)) := by
    intro hmem
    rcases mem_of_mem_join hmem with hmem | ⟨n, hn, hmem⟩
    · exact absurd hmem (by decide)
    · obtain ⟨m, hm, rfl⟩ := List.mem_map.1 hn
      exact h.params m hm hmem
  rw [FunctionDoc.call, List.mem_append, List.mem_append, List.mem_cons, List.mem_singleton]
  rintro ((hmem | hmem | hmem) | hmem)
  · exact hname hmem
  · cases hmem
  · exact hparams hmem
  · cases hmem

/-- The heading of a function is read back as its call. -/
theorem heading?_call (h : f.Named) :
    heading? ("### ".toList ++ f.call (·.name)) = some (3, f.call (·.name)) := by
  obtain ⟨c, s, hcall, hc⟩ := exists_cons_call h (·.name)
  have hblank : isBlank c = false := by
    simp only [isPlain, Bool.not_eq_true', Bool.or_eq_false_iff] at hc
    exact hc.1.1.1
  have hline : "### ".toList ++ f.call (·.name) =
      List.replicate 3 '#' ++ ([' '] ++ (f.call (·.name) ++ [])) := by
    rw [List.append_nil]
    rfl
  have hlast : (f.call (·.name)).getLast? = some ')' := by
    rw [FunctionDoc.call, List.getLast?_concat]
  have hfeed : '\n' ∉ "### ".toList ++ f.call (·.name) := by
    simpa using not_feed_call h
  rw [heading?_eq_some_iff]
  refine ⟨by decide, by decide, ⟨[' '], [], hline, blanks_space, List.cons_ne_nil _ _,
    List.forall_mem_nil _⟩, ?_, ?_, ?_, hfeed⟩
  · rw [hcall]
    exact List.cons_ne_nil c s
  · rw [hcall]
    exact unblank_cons hblank
  · intro d hd
    rw [hlast] at hd
    cases hd
    rfl

/-- The lines of a block that are as somebody wrote them, and what frames a note. -/
def prose (f : FunctionDoc) : List Text :=
  paragraphs f.description ++ noteLines f.note

/-- What the prose of a function leaves to the blocks after it: a block of code is open behind it if and
only if none was in front of it. -/
def leavesFence (f : FunctionDoc) : Bool :=
  togglesFence (prose f)

/-- Only prose carries a fence from one block to the next. -/
theorem togglesFence_functionBlock (h : f.Named) : togglesFence (functionBlock f) = leavesFence f := by
  have hframe : togglesFence ["### ".toList ++ f.call (·.name), [], "\x60\x60\x60lua".toList, usage f,
      "\x60\x60\x60".toList, []] = false := by
    have hheading : isFence ("### ".toList ++ f.call (·.name)) = false := rfl
    simp only [togglesFence_cons, hheading, (quiet_usage h).1]
    rfl
  have hdeprecation := togglesFence_of_quiet (quiet_of_opened (opened_deprecation f.deprecated) rfl)
  have hparams := togglesFence_of_quiet (quiet_of_opened (opened_paramTable f.params) rfl)
  have hreturns := togglesFence_of_quiet (quiet_of_opened (opened_returnTable f.returns) rfl)
  rw [leavesFence, prose, functionBlock]
  simp only [togglesFence_append, hframe, hdeprecation, hparams, hreturns, Bool.false_xor,
    Bool.xor_false]

theorem headingsFrom_functionBlock (h : f.Named) (fenced : Bool) :
    ∃ others, headingsFrom fenced (functionBlock f) =
        (if fenced then [] else [(3, f.call (·.name))]) ++ others ∧
      ((∀ l ∈ prose f, heading? l = none) → others = []) := by
  obtain ⟨rest, hblock, hrest⟩ : ∃ rest, functionBlock f = ("### ".toList ++ f.call (·.name)) :: rest ∧
      ((∀ l ∈ prose f, heading? l = none) → ∀ l ∈ rest, heading? l = none) := by
    refine ⟨_, rfl, fun hprose => ?_⟩
    have hdeprecation := quiet_of_opened (opened_deprecation f.deprecated) rfl
    have hparams := quiet_of_opened (opened_paramTable f.params) rfl
    have hreturns := quiet_of_opened (opened_returnTable f.returns) rfl
    obtain ⟨hparagraphs, hnote⟩ := List.forall_mem_append.1 hprose
    simp only [List.append_eq, List.forall_mem_append, List.forall_mem_cons]
    exact ⟨⟨⟨⟨⟨⟨rfl, rfl, (quiet_usage h).2, rfl, rfl, List.forall_mem_nil _⟩,
      fun l hl => (hdeprecation l hl).2⟩, hparagraphs⟩, fun l hl => (hparams l hl).2⟩,
      fun l hl => (hreturns l hl).2⟩, hnote⟩
  have hfence : isFence ("### ".toList ++ f.call (·.name)) = false := rfl
  refine ⟨headingsFrom fenced rest, ?_, fun hprose => headingsFrom_eq_nil _ (hrest hprose)⟩
  rw [hblock, headingsFrom, hfence, heading?_call h, Bool.false_or, Bool.xor_false]
  rfl

/-- The functions in front of whose blocks no block of code is open; `fenced` says whether one is open in
front of the first. -/
def announcedFrom (fenced : Bool) : List FunctionDoc → List FunctionDoc
  | [] => []
  | f :: fs => (if fenced then [] else [f]) ++ announcedFrom (fenced ^^ leavesFence f) fs

def headingsOf (fs : List FunctionDoc) : List (Nat × Text) :=
  fs.map fun f => (3, f.call (·.name))

theorem headingsFrom_functionBlocks (hfs : ∀ f ∈ fs, f.Named) (fenced : Bool) :
    (headingsOf (announcedFrom fenced fs)).Sublist (headingsFrom fenced (fs.flatMap functionBlock)) ∧
      ((∀ f ∈ fs, ∀ l ∈ prose f, heading? l = none) →
        headingsFrom fenced (fs.flatMap functionBlock) = headingsOf (announcedFrom fenced fs)) := by
  -- Each block hands the state of the fence on to the next, as `announcedFrom` does.
  induction fs generalizing fenced with
  | nil => exact ⟨List.nil_sublist _, fun _ => rfl⟩
  | cons f fs ih =>
    obtain ⟨hf, hfs⟩ := List.forall_mem_cons.1 hfs
    obtain ⟨others, hblock, hothers⟩ := headingsFrom_functionBlock hf fenced
    obtain ⟨hsub, heq⟩ := ih hfs (fenced ^^ leavesFence f)
    have hown : headingsOf (if fenced then [] else [f]) =
        if fenced then [] else [(3, f.call (·.name))] := by
      cases fenced <;> rfl
    have hsplit : headingsOf (announcedFrom fenced (f :: fs)) =
        (if fenced then [] else [(3, f.call (·.name))]) ++
          headingsOf (announcedFrom (fenced ^^ leavesFence f) fs) := by
      rw [announcedFrom, headingsOf, List.map_append, ← headingsOf, ← headingsOf, hown]
    rw [hsplit, List.flatMap_cons, headingsFrom_append, togglesFence_functionBlock hf, hblock]
    constructor
    · exact (List.sublist_append_left _ others).append hsub
    · intro hprose
      obtain ⟨hproseOwn, hproseRest⟩ := List.forall_mem_cons.1 hprose
      rw [hothers hproseOwn, List.append_nil, heq hproseRest]

theorem headingsFrom_typeTable (fenced : Bool) (types : List TypeDoc) :
    ∀ heading ∈ headingsFrom fenced (typeTable types), heading = (3, "Types".toList) := by
  intro heading hmem
  obtain hnone | ⟨rows, htable, hrows⟩ := typeTable_eq types
  · rw [hnone] at hmem
    exact absurd hmem List.not_mem_nil
  · have hquiet := quiet_of_opened hrows rfl
    rw [htable, headingsFrom, headingsFrom_eq_nil _ fun l hl => (hquiet l hl).2, List.append_nil] at hmem
    cases fenced with
    | true => exact absurd hmem List.not_mem_nil
    | false => exact List.mem_singleton.1 hmem

/-- Where no function but the last leaves a block of code open, all of them are announced. -/
theorem announcedFrom_eq_self (h : ∀ f ∈ fs.dropLast, leavesFence f = false) :
    announcedFrom false fs = fs := by
  induction fs with
  | nil => rfl
  | cons f fs ih =>
    cases fs with
    | nil => rfl
    | cons g gs =>
      rw [List.dropLast_cons_cons, List.forall_mem_cons] at h
      rw [announcedFrom, h.1, Bool.xor_false, ih h.2]
      rfl

end Markdown

/-! ### Entries -/

namespace Project

open Contents Markdown

def Lists (title line : Text) : Prop :=
  ∃ anchor, line = "  - [".toList ++ title ++ "](#".toList ++ anchor ++ [')']

/-- The line is the entry of a function in a table of contents. -/
def Announces (f : FunctionDoc) (line : Text) : Prop :=
  Lists (f.call (·.name)) line

theorem lists_line {title : Text} {e : Contents.Entry} (h : e.heading = (3, title)) :
    Lists title e.line := by
  obtain ⟨level, title', anchor⟩ := e
  cases h
  exact ⟨anchor, rfl⟩

theorem forall₂_announces {fs : List FunctionDoc} {es : List Contents.Entry}
    (h : es.map Contents.Entry.heading = headingsOf fs) :
    List.Forall₂ Announces fs (es.map Contents.Entry.line) := by
  have hheadings : List.Forall₂ (· = ·) (es.map Contents.Entry.heading) (headingsOf fs) := by
    rw [List.forall₂_eq_eq_eq]
    exact h
  rw [headingsOf, List.forall₂_map_left_iff, List.forall₂_map_right_iff] at hheadings
  exact List.forall₂_map_right_iff.2 (hheadings.flip.imp fun _ _ => lists_line)

theorem headings_readmeApi (p : Project) (registry : Registry) :
    ∃ types, (entries (p.readmeApi registry)).map Contents.Entry.heading =
        headingsFrom false ((p.apiFunctions registry).flatMap functionBlock) ++ types ∧
      ∀ heading ∈ types, heading = (3, "Types".toList) := by
  have hblank : headingsFrom false ([] :: Markdown.render (p.apiFunctions registry) registry) =
      headingsFrom false (Markdown.render (p.apiFunctions registry) registry) := rfl
  have hend (fenced : Bool) : headingsFrom fenced [[]] = [] :=
    headingsFrom_eq_nil fenced (List.forall_mem_singleton.2 rfl)
  rw [entries, heading_entriesFrom, readmeApi, framed, headingsFrom_append, hblank, hend,
    List.append_nil, Markdown.render, headingsFrom_dropTrailingEmpty, headingsFrom_append]
  exact ⟨_, rfl, headingsFrom_typeTable _ _⟩

/-- The table of contents of the generated section has an entry for every function that is announced, in
their order. These are all functions unless one before the last leaves a block of code open; and if there
are no headings in prose, all other entries lead to the table of types. -/
theorem announced_readmeApi (p : Project) (sources : List (Text × Text)) :
    let registry := Registry.ofSources sources
    let functions := p.apiFunctions registry
    let contents := Contents.generate (p.readmeApi registry)
    List.SublistForall₂ Announces (announcedFrom false functions) contents ∧
      ((∀ f ∈ functions.dropLast, leavesFence f = false) →
        List.SublistForall₂ Announces functions contents) ∧
      ((∀ f ∈ functions, ∀ l ∈ prose f, heading? l = none) →
        ∃ own types, contents = own ++ types ∧
          List.Forall₂ Announces (announcedFrom false functions) own ∧
          ∀ line ∈ types, Lists "Types".toList line) := by
  intro registry functions contents
  have hnamed : ∀ f ∈ functions, f.Named := fun f hf =>
    Registry.named_of_mem_functions (Registry.mem_functions_of_mem_exposedFunctions hf)
  obtain ⟨hsub, hexact⟩ := headingsFrom_functionBlocks hnamed false
  obtain ⟨types, hentries, htypes⟩ := headings_readmeApi p registry
  have hannounced : List.SublistForall₂ Announces (announcedFrom false functions) contents := by
    have hall := hsub.trans (List.sublist_append_left _ types)
    rw [← hentries] at hall
    obtain ⟨es, hes, heq⟩ := List.sublist_map_iff.1 hall
    exact List.sublistForall₂_iff.2
      ⟨es.map Contents.Entry.line, forall₂_announces heq.symm, hes.map Contents.Entry.line⟩
  refine ⟨hannounced, fun hclosed => ?_, fun hprose => ?_⟩
  · rwa [announcedFrom_eq_self hclosed] at hannounced
  · rw [hexact hprose] at hentries
    obtain ⟨own, rest, hsplit, hown, hrest⟩ := List.map_eq_append_iff.1 hentries
    refine ⟨own.map Contents.Entry.line, rest.map Contents.Entry.line, ?_, forall₂_announces hown, ?_⟩
    · rw [← List.map_append, ← hsplit]
      rfl
    · intro line hline
      obtain ⟨e, he, rfl⟩ := List.mem_map.1 hline
      exact lists_line (htypes _ (hrest ▸ List.mem_map_of_mem he))

/-- Two functions, the first of them with an example in its description, which becomes one line. -/
def exampleText : Text :=
  "---An example:\n---\n---\x60\x60\x60lua\n---f()\n---\x60\x60\x60\nfunction f() end\n\n".toList ++
    "function g() end\n".toList

/-- The second function is missing from the table of contents. -/
theorem not_announced_example :
    let registry := Registry.ofSources [(sample.apiFile, exampleText)]
    let functions := sample.apiFunctions registry
    let contents := Contents.generate (sample.readmeApi registry)
    contents = ["  - [f()](#f)".toList] ∧ ¬List.SublistForall₂ Announces functions contents := by
  let fs := [plainFunction "f".toList "An example:\n\n\x60\x60\x60lua f() \x60\x60\x60".toList 6,
    plainFunction "g".toList [] 8]
  have hregistry : Registry.ofSources [(sample.apiFile, exampleText)] = sampleRegistry fs := by
    rw [Registry.ofSources_singleton]
    rfl
  have hfunctions : sample.apiFunctions (sampleRegistry fs) = fs := rfl
  have hcontents : Contents.generate (framed (dropTrailingEmpty (fs.flatMap functionBlock))) =
      ["  - [f()](#f)".toList] := by
    decide +kernel
  dsimp only
  rw [hregistry, readmeApi_sampleRegistry hfunctions rfl, hcontents, hfunctions]
  refine ⟨rfl, fun h => ?_⟩
  -- One entry is too few for two functions.
  obtain ⟨ls, hls, hsub⟩ := List.sublistForall₂_iff.1 h
  have hlength := hsub.length_le
  rw [← hls.length_eq] at hlength
  exact absurd hlength (by decide)

end Project

end LuaDocs
