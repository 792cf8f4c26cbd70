import LuaDocs.Proofs.Declaration.Layout
import LuaDocs.Source.File

/-!
# Documented parameters

A function whose parameters are documented one tag a line, in the order of its declaration, is read back
as it was written. Each stage of reading a file is taken by itself: the lines of the text, the one place
where a declaration is looked for, the block above it, its tags one after the other, and the names in the
declaration, which agree with those in the tags.
-/

namespace LuaDocs.Source

open Text Tag TypeExpr

variable {e : ParamEntry} {es : List ParamEntry} {n : Text} {ns : List Text}

/-! ### The lines -/

def tagLine (e : ParamEntry) : Text :=
  "---@param ".toList ++ e.body

def paramList (ns : List Text) : Text :=
  join ", ".toList ns ++ [')']

def headLine (ns : List Text) : Text :=
  "function M.f(".toList ++ paramList ns

/-- A file with one function whose parameters are documented by some entries. -/
def documentedLines (es : List ParamEntry) : List Text :=
  es.map tagLine ++ [headLine (es.map ParamEntry.name)]

theorem docText?_tagLine (h : '\n' ∉ e.body) :
    Comment.docText? (tagLine e) = some ("@param ".toList ++ e.body) :=
  Directive.docText?_tagLine .param rfl h

theorem isDoc_tagLine (h : '\n' ∉ e.body) : Comment.isDoc (tagLine e) = true := by
  rw [Comment.isDoc, docText?_tagLine h, Option.isSome_some]

theorem isDoc_headLine : Comment.isDoc (headLine ns) = false :=
  rfl

theorem classify_tagLine (h : e.Readable) (hfeed : '\n' ∉ e.body) :
    LineContent.classify ("@param ".toList ++ e.body) = .tag .param e.body :=
  Directive.classify_tagText .param rfl h.solid_body hfeed

/-! ### The declaration -/

theorem not_mem_paramList {c : Char} (hns : ∀ n ∈ ns, EntryName n) (hc : isDottedChar c = false)
    (hcomma : c ∉ ", ".toList) : c ∉ join ", ".toList ns := by
  intro h
  rcases mem_of_mem_join h with h | ⟨n, hn, h⟩
  · exact hcomma h
  · rw [(hns n hn).isDottedChar_of_mem h] at hc
    cases hc

theorem opening_headLine : Signature.Opening "function M.f(".toList ⟨"M.f".toList, false, false⟩ := by
  have hname : Signature.IsName Signature.isMethodChar "M.f".toList := .mk rfl (List.all_eq_true.1 rfl)
  exact .outer blanks_nil (.statement blanks_space (List.cons_ne_nil _ _) hname blanks_nil)

theorem source_headLine (hns : ∀ n ∈ ns, EntryName n) (following : List Text) :
    Signature.source (headLine ns) following = headLine ns :=
  opening_headLine.source_closed (Signature.wording_join hns) [] following

def signatureOf (ns : List Text) : Signature :=
  ⟨"M.f".toList, false, false, ns⟩

theorem parse?_headLine (hns : ∀ n ∈ ns, EntryName n) :
    Signature.parse? (headLine ns) = some (signatureOf ns) :=
  opening_headLine.parse?_append hns (Signature.wording_join hns) []

theorem mismatches_self (ns : List Text) : Signature.mismatches ns ns = [] := by
  simp [Signature.mismatches]

/-! ### The block -/

/-- The entry with a place in the file, as the block has it. -/
def docLine (p : ParamEntry × Nat) : DocLine :=
  ⟨.tag .param p.1.body, p.2⟩

theorem ofRun_tagLines (hes : ∀ e ∈ es, e.Readable) (hfeed : ∀ e ∈ es, '\n' ∉ e.body) (first : Nat) :
    Block.ofRun (es.map tagLine) first = (es.zipIdx first).map docLine := by
  induction es generalizing first with
  | nil => rfl
  | cons e es ih =>
    obtain ⟨he, hes⟩ := List.forall_mem_cons.1 hes
    obtain ⟨hline, hfeed⟩ := List.forall_mem_cons.1 hfeed
    have htail := ih hes hfeed (first + 1)
    rw [Block.ofRun] at htail ⊢
    simp only [List.map_cons, List.zipIdx_cons, List.filterMap_cons, docText?_tagLine hline,
      Option.map_some, classify_tagLine he hline, htail, docLine]

/-- Each tag adds its parameter behind those before it, and nothing else of the draft changes. -/
theorem read_docLines (file : Text) (d : FunctionDraft) (hes : ∀ e ∈ es, e.Readable) (first : Nat) :
    ∃ target, d.read file ((es.zipIdx first).map docLine) =
      { d with params := d.params ++ es.map ParamEntry.member, target } := by
  induction es generalizing d first with
  | nil => exact ⟨d.target, by rw [List.map_nil, List.append_nil]; rfl⟩
  | cons e es ih =>
    obtain ⟨he, hes⟩ := List.forall_mem_cons.1 hes
    have hstep : ∀ variants, d.addTag ⟨file, first⟩ .param e.body variants =
        { d with params := d.params ++ [e.member], target := .member d.params.length } := by
      intro variants
      rw [FunctionDraft.addTag, ParamEntry.member_body he]
    obtain ⟨target, hread⟩ :=
      ih { d with params := d.params ++ [e.member], target := .member d.params.length } hes (first + 1)
    refine ⟨target, ?_⟩
    rw [List.zipIdx_cons, List.map_cons, FunctionDraft.read]
    dsimp only [docLine]
    rw [hstep, hread, List.map_cons, List.append_assoc, List.singleton_append]

theorem docRun_tagLines (hfeed : ∀ e ∈ es, '\n' ∉ e.body) :
    Block.docRun (es.map tagLine) = es.map tagLine := by
  have hdoc : ∀ l ∈ (es.map tagLine).reverse, Comment.isDoc l = true := by
    intro l hl
    obtain ⟨e, he, rfl⟩ := List.mem_map.1 (List.mem_reverse.1 hl)
    exact isDoc_tagLine (hfeed e he)
  rw [Block.docRun, List.takeWhile_eq_self_iff.2 hdoc, List.reverse_reverse]

/-! ### The file -/

theorem above_documentedLines (hes : ∀ e ∈ es, e.Readable) (hfeed : ∀ e ∈ es, '\n' ∉ e.body) :
    Block.above (documentedLines es) es.length = (es.zipIdx 1).map docLine := by
  have hbefore : (documentedLines es).take es.length = es.map tagLine := by
    rw [documentedLines, List.take_left' (List.length_map tagLine)]
  rw [Block.above, hbefore, docRun_tagLines hfeed, Nat.sub_self, Nat.zero_add,
    ofRun_tagLines hes hfeed]

theorem getElem?_documentedLines (es : List ParamEntry) :
    (documentedLines es)[es.length]? = some (headLine (es.map ParamEntry.name)) := by
  rw [documentedLines, List.getElem?_append_right (by simp)]
  simp

theorem codeAt?_documentedLines (hes : ∀ e ∈ es, e.Readable) :
    codeAt? (documentedLines es) es.length = some (headLine (es.map ParamEntry.name)) := by
  have hnames : ∀ n ∈ es.map ParamEntry.name, EntryName n :=
    List.forall_mem_map.2 fun e he => (hes e he).name
  rw [codeAt?, getElem?_documentedLines, Option.map_some, source_headLine hnames]

/-- A declaration is looked for at the one line that is no doc comment. -/
theorem declarationPoints_documentedLines (hes : ∀ e ∈ es, e.Readable)
    (hfeed : ∀ e ∈ es, '\n' ∉ e.body) : declarationPoints (documentedLines es) = [es.length] := by
  have hlength : (documentedLines es).length = es.length + 1 := by
    simp [documentedLines]
  have htag : ∀ keys, ∀ i < es.length, isDeclarationPoint (documentedLines es) keys i = false := by
    intro keys i hi
    have hline : (documentedLines es)[i]? = some (tagLine es[i]) := by
      rw [documentedLines, List.getElem?_append_left (by simpa using hi)]
      simp [hi]
    have hdoc : Comment.isDoc (tagLine es[i]) = true := isDoc_tagLine (hfeed _ (List.getElem_mem hi))
    simp [isDeclarationPoint, hline, hdoc]
  have hhead : ∀ keys, isDeclarationPoint (documentedLines es) keys es.length = true := by
    intro keys
    have hnames : ∀ n ∈ es.map ParamEntry.name, EntryName n :=
      List.forall_mem_map.2 fun e he => (hes e he).name
    have hdeclares : declaresAt (documentedLines es) keys es.length = true := by
      rw [declaresAt, codeAt?_documentedLines hes, Option.bind_some, parse?_headLine hnames]
      rfl
    simp [isDeclarationPoint, getElem?_documentedLines, isDoc_headLine, hdeclares]
  have hend : ∀ keys, isDeclarationPoint (documentedLines es) keys (es.length + 1) = false := by
    intro keys
    have hnone : (documentedLines es)[es.length + 1]? = none :=
      List.getElem?_eq_none (by rw [hlength])
    simp [isDeclarationPoint, followsBlock, getElem?_documentedLines, isDoc_headLine, declaresAt,
      codeAt?, hnone]
  rw [declarationPoints, hlength, List.range_succ, List.range_succ]
  have hnil : ∀ keys, (List.range es.length).filter (isDeclarationPoint (documentedLines es) keys) = [] :=
    fun keys => List.filter_eq_nil_iff.2 fun i hi => by simp [htag keys i (List.mem_range.1 hi)]
  simp [hnil, hhead, hend]

def documentedFunction (file : Text) (es : List ParamEntry) : FunctionDoc where
  name := "f".toList
  declaredName := "M.f".toList
  params := es.map ParamEntry.member
  returns := []
  description := []
  note := none
  deprecated := none
  generics := []
  visibility := .exposed
  location := ⟨file, es.length + 1⟩

theorem ofBlock_docLines (file : Text) (hes : ∀ e ∈ es, e.Readable) :
    FunctionDoc.ofBlock ((es.zipIdx 1).map docLine) (signatureOf (es.map ParamEntry.name))
      ⟨file, es.length + 1⟩ = (documentedFunction file es, []) := by
  obtain ⟨target, hread⟩ := read_docLines file FunctionDraft.empty hes 1
  have hnames : (es.map ParamEntry.member).map (·.name) = es.map ParamEntry.name := by
    rw [List.map_map]
    rfl
  have hmismatches : (if ((es.zipIdx 1).map docLine).isEmpty then [] else
      Signature.mismatches ((es.map ParamEntry.member).map (·.name)) (es.map ParamEntry.name)) = [] := by
    rw [hnames, mismatches_self, ite_self]
  rw [FunctionDoc.ofBlock, hread]
  simp only [FunctionDraft.empty, List.nil_append, signatureOf, hmismatches]
  -- Without any tag the names of the declaration would be taken, but then there are none.
  cases es with
  | nil => rfl
  | cons e es => rfl

theorem ofBlock_documentedLines (file : Text) (hes : ∀ e ∈ es, e.Readable) :
    FileDocs.ofBlock ((es.zipIdx 1).map docLine) (some (headLine (es.map ParamEntry.name))) file
      es.length = (⟨[documentedFunction file es], []⟩, []) := by
  have hnames : ∀ n ∈ es.map ParamEntry.name, EntryName n :=
    List.forall_mem_map.2 fun e he => (hes e he).name
  have htag : ∀ directive, directive ≠ .param →
      Block.hasTag ((es.zipIdx 1).map docLine) directive = false := by
    intro directive hne
    rw [Block.hasTag, List.any_eq_false]
    intro l hl
    obtain ⟨p, -, rfl⟩ := List.mem_map.1 hl
    simpa [docLine] using hne.symm
  rw [FileDocs.ofBlock, htag .record (by decide), htag .typeAlias (by decide), Option.bind_some,
    parse?_headLine hnames]
  simp only [ofBlock_docLines file hes, Bool.or_self, Bool.false_eq_true, if_false]

theorem lined_documentedLines (hes : ∀ e ∈ es, e.Readable) (hlines : ∀ e ∈ es, IsLine e.body)
    (closed : Bool) : Lined (documentedLines es) closed := by
  have htag : ∀ l ∈ es.map tagLine, IsLine l := by
    refine List.forall_mem_map.2 fun e he => ?_
    have hopening : IsLine "---@param ".toList := by
      rw [IsLine]
      decide
    refine ⟨fun h => ?_, fun h => ?_⟩
    · exact (List.mem_append.1 h).elim hopening.1 (hlines e he).1
    · exact (List.mem_append.1 h).elim hopening.2 (hlines e he).2
  have hhead : IsLine (headLine (es.map ParamEntry.name)) := by
    have hnames : ∀ n ∈ es.map ParamEntry.name, EntryName n :=
      List.forall_mem_map.2 fun e he => (hes e he).name
    have hnone : ∀ c, c ∉ "function M.f(".toList → isDottedChar c = false → c ∉ ", ".toList →
        c ≠ ')' → c ∉ headLine (es.map ParamEntry.name) := by
      intro c hopening hdotted hcomma hclose h
      rcases List.mem_append.1 h with h | h
      · exact hopening h
      · rcases List.mem_append.1 h with h | h
        · exact not_mem_paramList hnames hdotted hcomma h
        · exact hclose (List.mem_singleton.1 h)
    exact ⟨hnone _ (by decide) (by decide) (by decide) (by decide),
      hnone _ (by decide) (by decide) (by decide) (by decide)⟩
  refine ⟨List.forall_mem_append.2 ⟨htag, List.forall_mem_singleton.2 hhead⟩, ?_⟩
  cases closed with
  | true => simp [documentedLines]
  | false =>
    rw [documentedLines, List.getLast?_concat]
    exact nofun

/-- A function with one tag for each parameter, in the order of the declaration, has exactly the
documented parameters, whether or not the file ends in a line feed. -/
theorem ofContent_documentedLines (file : Text) (closed : Bool) (hes : ∀ e ∈ es, e.Readable)
    (hlines : ∀ e ∈ es, IsLine e.body) :
    ParsedFile.ofContent file (written (documentedLines es) closed) =
      ⟨⟨[documentedFunction file es], []⟩, []⟩ := by
  have hfeed : ∀ e ∈ es, '\n' ∉ e.body := fun e he => (hlines e he).1
  have hfound : declarationAt file (documentedLines es) es.length =
      (⟨[documentedFunction file es], []⟩, []) := by
    rw [declarationAt, above_documentedLines hes hfeed, codeAt?_documentedLines hes,
      ofBlock_documentedLines file hes]
  rw [ParsedFile.ofContent, lines_written (lined_documentedLines hes hlines closed),
    ParsedFile.ofLines, declarationPoints_documentedLines hes hfeed, List.map_singleton, hfound]
  rfl

/-- Two parameters, `opts?` of the type `fun(cb?: any): "on"|nil` with a description that goes on like a
type, and `...` of the type `string?` without one. -/
theorem ofContent_listener :
    ParsedFile.ofContent "demo.lua".toList (written (documentedLines
      [⟨"opts".toList, true, .function [("cb?".toList, .builtin .any)]
          [.union [.literal "\"on\"".toList, .builtin .nil]], some "[] of # options".toList⟩,
        ⟨"...".toList, false, .optional (.builtin .string), none⟩]) true) =
      ⟨⟨[documentedFunction "demo.lua".toList
        [⟨"opts".toList, true, .function [("cb?".toList, .builtin .any)]
            [.union [.literal "\"on\"".toList, .builtin .nil]], some "[] of # options".toList⟩,
          ⟨"...".toList, false, .optional (.builtin .string), none⟩]], []⟩, []⟩ := by
  have hparam : ParamName "cb?".toList :=
    .optional (n := "cb".toList) (ident_of_all rfl rfl (by decide))
  have hliteral : Canonical (.literal "\"on\"".toList) :=
    .quoted (.mk (q := '"') (v := "on".toList) (by decide) (by decide))
  have hfunction : Canonical (.function [("cb?".toList, .builtin .any)]
      [.union [.literal "\"on\"".toList, .builtin .nil]]) :=
    .function (List.forall_mem_singleton.2 hparam) (List.forall_mem_singleton.2 (.builtin .any))
      (Nat.le_refl 1) (List.forall_mem_singleton.2
        (canonical_union_pair hliteral (.builtin .nil) rfl rfl rfl))
  have hdescription : IsDescription "[] of # options".toList := by
    refine ⟨⟨⟨'[', rfl, rfl⟩, 's', rfl, rfl⟩, fun c hc => ?_⟩
    obtain rfl : '[' = c := Option.some.inj hc
    decide
  refine ofContent_documentedLines "demo.lua".toList true (List.forall_mem_cons.2 ⟨⟨?_, hfunction, ?_⟩,
    List.forall_mem_singleton.2 ⟨.rest, .optional (.builtin .string), nofun⟩⟩) ?_
  · exact .simple rfl (List.all_eq_true.1 rfl)
  · intro d hd
    obtain rfl := Option.some.inj hd
    exact hdescription
  · simp only [IsLine]
    decide

end LuaDocs.Source
