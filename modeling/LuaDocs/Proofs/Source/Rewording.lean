import LuaDocs.Proofs.Declaration.Naming
import LuaDocs.Proofs.Source.Scanning
import LuaDocs.Proofs.Text.Reading
import Mathlib.Data.List.Forall2

/-!
# Files whose doc comments differ

Two files that differ in doc comments only have the same code: no doc comment takes part in a parameter
list, is a key of the returned table or opens it, so declarations are looked for at the same lines and read
from the same code. What is found at such a line differs only if the run of doc comments above it does. If
every such run documents a function that is not for users, the files declare the same types and the same
functions for users.
-/

namespace LuaDocs.Source

open Text

variable {file : Text} {lines lines' rest : List Text} {line line' : Text} {i j first stop : ℕ}

/-! ### Edits -/

/-- A line is as it was, or it is a doc comment in the place of another one. -/
def Reworded (line line' : Text) : Prop :=
  line = line' ∨ Comment.isDoc line = true ∧ Comment.isDoc line' = true

/-- The run of doc comments above a line has no tag of a type, and the line declares a function that is not
for users. -/
structure Concealed (file : Text) (lines : List Text) (stop : ℕ) : Prop where
  record : (Block.above lines stop).hasTag .record = false
  typeAlias : (Block.above lines stop).hasTag .typeAlias = false
  function : ∃ signature, (codeAt? lines stop).bind Signature.parse? = some signature ∧
    (FunctionDoc.ofBlock (Block.above lines stop) signature ⟨file, stop + 1⟩).1.visibility ≠ .exposed

/-- Some doc comments of a file are replaced line by line, and every run of doc comments with a change in
it documents a function that is not for users, before and after. -/
structure Rewording (file : Text) (lines lines' : List Text) : Prop where
  linewise : List.Forall₂ Reworded lines lines'
  concealed : ∀ first stop, WholeRun lines first stop →
    (∃ i, first ≤ i ∧ i < stop ∧ lines[i]? ≠ lines'[i]?) →
      Concealed file lines stop ∧ Concealed file lines' stop

/-! ### Doc comments are no code -/

theorem Reworded.isDoc (h : Reworded line line') : Comment.isDoc line = Comment.isDoc line' := by
  rcases h with rfl | ⟨hline, hline'⟩
  · rfl
  · rw [hline, hline']

theorem Reworded.eq_of_not_isDoc (h : Reworded line line') (hline : Comment.isDoc line = false) :
    line = line' := by
  rcases h with heq | ⟨hdoc, -⟩
  · exact heq
  · rw [hdoc] at hline
    cases hline

/-- A doc comment is some blanks and three dashes to begin with. -/
theorem exists_of_isDoc (h : Comment.isDoc line = true) :
    ∃ blanks text, line = blanks ++ ("---".toList ++ text) ∧ Blanks blanks := by
  refine ⟨line.takeWhile isBlank, ?_⟩
  obtain ⟨text, htext⟩ := Option.isSome_iff_exists.1 h
  rw [Comment.docText?] at htext
  split at htext
  · cases htext
  · next s hs =>
    rw [after?, List.isPrefixOf?_eq_some_iff_append_eq] at hs
    refine ⟨s, ?_, fun c hc => List.mem_takeWhile_imp hc⟩
    rw [hs, skipBlanks, List.takeWhile_append_dropWhile]

theorem trimStart_of_isDoc (h : Comment.isDoc line = true) :
    ∃ text, trimStart line = "---".toList ++ text := by
  obtain ⟨blanks, text, rfl, hblanks⟩ := exists_of_isDoc h
  refine ⟨text, ?_⟩
  rw [trimStart_append_of_blank hblanks.blank]
  exact trimStart_cons_of_not_isSpace (by decide)

theorem isIdle_of_isDoc (h : Comment.isDoc line = true) : isIdle line = true := by
  obtain ⟨text, htrim⟩ := trimStart_of_isDoc h
  rw [isIdle, htrim]
  rfl

theorem trim_stripComment_of_isDoc (h : Comment.isDoc line = true) :
    trim (Signature.stripComment line) = [] := by
  obtain ⟨blanks, text, rfl, hblanks⟩ := exists_of_isDoc h
  have hcode : Signature.stripComment (blanks ++ ("---".toList ++ text)) = blanks ++ [] :=
    Signature.stripComment_append hblanks.not_dash _
  rw [hcode, List.append_nil, trim_of_blank hblanks.blank]

theorem not_opensReturnedTable_of_isDoc (h : Comment.isDoc line = true) :
    opensReturnedTable line = false := by
  obtain ⟨blanks, text, rfl, hblanks⟩ := exists_of_isDoc h
  have hreturn : after? "return".toList (blanks ++ ("---".toList ++ text)) = none := by
    cases blanks with
    | nil => rfl
    | cons c blanks =>
      refine after?_cons_of_ne ?_
      rintro rfl
      cases hblanks _ List.mem_cons_self
  rw [opensReturnedTable, hreturn]

theorem not_closes_of_isDoc (h : Comment.isDoc line = true) : ['}'].isPrefixOf line = false := by
  obtain ⟨blanks, text, rfl, hblanks⟩ := exists_of_isDoc h
  cases blanks with
  | nil => rfl
  | cons c blanks =>
    have hc : '}' ≠ c := by
      rintro rfl
      cases hblanks _ List.mem_cons_self
    simp [List.isPrefixOf, hc]

/-! ### The same code -/

/-- Doc comments close no parameter list and add nothing to it. -/
theorem closeParams_eq (h : List.Forall₂ Reworded lines lines') :
    Signature.closeParams lines = Signature.closeParams lines' := by
  induction h with
  | nil => rfl
  | cons hline _ ih =>
    have hpart := hline.elim (congrArg fun line => trim (Signature.stripComment line)) fun hdoc =>
      (trim_stripComment_of_isDoc hdoc.1).trans (trim_stripComment_of_isDoc hdoc.2).symm
    rw [Signature.closeParams, Signature.closeParams, ih, hpart]

theorem isDoc_getElem? (h : List.Forall₂ Reworded lines lines') (i : ℕ) :
    lines[i]?.map Comment.isDoc = lines'[i]?.map Comment.isDoc := by
  induction h generalizing i with
  | nil => rfl
  | cons hline _ ih =>
    cases i with
    | zero => exact congrArg some hline.isDoc
    | succ i => exact ih i

theorem isDocAt_iff_of_reworded (h : List.Forall₂ Reworded lines lines') :
    IsDocAt lines i ↔ IsDocAt lines' i := by
  rw [← not_iff_not, not_isDocAt_iff, not_isDocAt_iff, isDoc_getElem? h]

theorem getElem?_eq_of_not_isDocAt (h : List.Forall₂ Reworded lines lines') (hi : ¬IsDocAt lines i) :
    lines[i]? = lines'[i]? := by
  induction h generalizing i with
  | nil => rfl
  | @cons line line' lines lines' hline _ ih =>
    cases i with
    | zero =>
      have hcode : Comment.isDoc line = false := by simpa [IsDocAt] using hi
      exact congrArg some (hline.eq_of_not_isDoc hcode)
    | succ i => exact ih hi

theorem codeAt?_eq (h : List.Forall₂ Reworded lines lines') (hi : ¬IsDocAt lines i) :
    codeAt? lines i = codeAt? lines' i := by
  rw [codeAt?, codeAt?, getElem?_eq_of_not_isDocAt h hi]
  refine Option.map_congr fun line _ => ?_
  have hfollowing := closeParams_eq (List.forall₂_drop (i + 1) h)
  rw [Signature.source, Signature.source, hfollowing]

/-! ### The same keys -/

theorem tableKeys_eq (h : List.Forall₂ Reworded lines lines') (indent : Option ℕ) (start : ℕ) :
    tableKeys indent start lines = tableKeys indent start lines' := by
  induction h generalizing indent start with
  | nil => rfl
  | cons hline _ ih =>
    rw [tableKeys, tableKeys]
    rcases hline with rfl | ⟨hdoc, hdoc'⟩
    · simp only [ih]
    · simp only [isIdle_of_isDoc hdoc, isIdle_of_isDoc hdoc', not_closes_of_isDoc hdoc,
        not_closes_of_isDoc hdoc', if_true, ih]

/-- The returned table opens at the same line, if there is one. -/
theorem returnedTable?_eq (h : List.Forall₂ Reworded lines lines') (start : ℕ) :
    (returnedTable? start lines = none ∧ returnedTable? start lines' = none) ∨
      ∃ n rest rest', returnedTable? start lines = some (n, rest) ∧
        returnedTable? start lines' = some (n, rest') ∧ List.Forall₂ Reworded rest rest' := by
  induction h generalizing start with
  | nil => exact .inl ⟨rfl, rfl⟩
  | @cons line line' lines lines' hline htail ih =>
    have hopens : opensReturnedTable line = opensReturnedTable line' :=
      hline.elim (congrArg opensReturnedTable) fun hdoc =>
        (not_opensReturnedTable_of_isDoc hdoc.1).trans (not_opensReturnedTable_of_isDoc hdoc.2).symm
    rw [returnedTable?, returnedTable?, hopens]
    -- A table that opens further down counts before the one that opens here.
    obtain ⟨hnone, hnone'⟩ | ⟨n, rest, rest', hsome, hsome', hrest⟩ := ih (start + 1)
    · rw [hnone, hnone', Option.none_or, Option.none_or]
      cases opensReturnedTable line' with
      | true => exact .inr ⟨_, _, _, rfl, rfl, htail⟩
      | false => exact .inl ⟨rfl, rfl⟩
    · rw [hsome, hsome', Option.some_or, Option.some_or]
      exact .inr ⟨n, rest, rest', rfl, rfl, hrest⟩

theorem returnedKeys_eq (h : List.Forall₂ Reworded lines lines') :
    returnedKeys lines = returnedKeys lines' := by
  rw [returnedKeys, returnedKeys]
  obtain ⟨hnone, hnone'⟩ | ⟨n, rest, rest', hsome, hsome', hrest⟩ := returnedTable?_eq h 0
  · rw [hnone, hnone']
  · rw [hsome, hsome']
    exact tableKeys_eq hrest none n

theorem declarationPoints_eq (h : List.Forall₂ Reworded lines lines') :
    declarationPoints lines = declarationPoints lines' := by
  rw [declarationPoints, declarationPoints, h.length_eq, returnedKeys_eq h]
  refine List.filter_congr fun i _ => ?_
  rw [isDeclarationPoint, isDeclarationPoint, isDoc_getElem? h]
  by_cases hi : IsDocAt lines i
  -- A doc comment is no such line in either file; any other line holds the same code.
  · obtain ⟨line, hline, hdoc⟩ := (isDocAt_iff_of_reworded h).1 hi
    rw [hline, Option.map_some, Option.getD_some, hdoc]
    rfl
  · have hfollows : followsBlock lines i = followsBlock lines' i := by
      cases i with
      | zero => rfl
      | succ i => rw [followsBlock, followsBlock, isDoc_getElem? h]
    rw [hfollows, declaresAt, declaresAt, codeAt?_eq h hi]

/-! ### What is found at a line -/

theorem WholeRun.first_unique {first' : ℕ} (h : WholeRun lines first stop)
    (h' : WholeRun lines first' stop) : first = first' := by
  have hle := h.le
  have hle' := h'.le
  rcases lt_trichotomy first first' with hlt | heq | hlt
  · exact absurd (h.isDoc (first' - 1) (by omega) (by omega)) (h'.before _ (by omega))
  · exact heq
  · exact absurd (h'.isDoc (first - 1) (by omega) (by omega)) (h.before _ (by omega))

theorem wholeRun_iff_of_reworded (h : List.Forall₂ Reworded lines lines') :
    WholeRun lines first stop ↔ WholeRun lines' first stop := by
  have hdoc (i : ℕ) : IsDocAt lines i ↔ IsDocAt lines' i := isDocAt_iff_of_reworded h
  constructor
  · rintro ⟨hle, hrun, hbefore, hafter⟩
    simp only [hdoc] at hrun hbefore hafter
    exact ⟨hle, hrun, hbefore, hafter⟩
  · rintro ⟨hle, hrun, hbefore, hafter⟩
    simp only [← hdoc] at hrun hbefore hafter
    exact ⟨hle, hrun, hbefore, hafter⟩

theorem above_eq (h : List.Forall₂ Reworded lines lines') (hstop : stop ≤ lines.length)
    (hrun : WholeRun lines first stop) (hsame : ∀ i, first ≤ i → i < stop → lines[i]? = lines'[i]?) :
    Block.above lines stop = Block.above lines' stop := by
  obtain ⟨first₁, hrun₁, habove⟩ := wholeRun_above hstop hrun.after
  obtain ⟨first₂, hrun₂, habove'⟩ := wholeRun_above (h.length_eq ▸ hstop)
    ((wholeRun_iff_of_reworded h).1 hrun).after
  obtain rfl := hrun.first_unique hrun₁
  obtain rfl := hrun.first_unique ((wholeRun_iff_of_reworded h).2 hrun₂)
  have hlines : (List.range' first (stop - first)).map (docLine? lines) =
      (List.range' first (stop - first)).map (docLine? lines') := by
    refine List.map_congr_left fun i hi => ?_
    rw [List.mem_range'_1] at hi
    rw [docLine?, docLine?, hsame i (by omega) (by omega)]
  rw [hlines, ← habove'] at habove
  exact List.map_injective_iff.2 (fun _ _ => Option.some.inj) habove

/-! ### What is for users -/

def exposed (docs : FileDocs) : List FunctionDoc :=
  docs.functions.filter (·.visibility == .exposed)

/-- The same types and, for users, the same functions. -/
structure Agrees (docs docs' : FileDocs) : Prop where
  types : docs.types = docs'.types
  exposed : exposed docs = exposed docs'

theorem Concealed.agrees_empty (h : Concealed file lines stop) :
    Agrees (declarationAt file lines stop).1 .empty := by
  obtain ⟨signature, hsignature, hvisibility⟩ := h.function
  have hdocs : (declarationAt file lines stop).1 =
      ⟨[(FunctionDoc.ofBlock (Block.above lines stop) signature ⟨file, stop + 1⟩).1], []⟩ := by
    rw [declarationAt, FileDocs.ofBlock, h.record, h.typeAlias, hsignature]
    rfl
  rw [hdocs]
  exact ⟨rfl, List.filter_cons_of_neg (by simpa using hvisibility)⟩

theorem Rewording.agrees_at (h : Rewording file lines lines') (hstop : stop ∈ declarationPoints lines) :
    Agrees (declarationAt file lines stop).1 (declarationAt file lines' stop).1 := by
  obtain ⟨hle, hafter⟩ := of_mem_declarationPoints hstop
  obtain ⟨first, hrun, -⟩ := wholeRun_above hle hafter
  -- With a change in the run above it the line shows nothing to users, before and after.
  by_cases hchange : ∃ i, first ≤ i ∧ i < stop ∧ lines[i]? ≠ lines'[i]?
  · obtain ⟨hbefore, hafterwards⟩ := h.concealed first stop hrun hchange
    have hempty := hbefore.agrees_empty
    have hempty' := hafterwards.agrees_empty
    exact ⟨hempty.types.trans hempty'.types.symm, hempty.exposed.trans hempty'.exposed.symm⟩
  · push Not at hchange
    rw [declarationAt, declarationAt, above_eq h.linewise hle hrun hchange, codeAt?_eq h.linewise hafter]
    exact ⟨rfl, rfl⟩

/-- Rewording the documentation of functions that are not for users changes nothing for users. -/
theorem Rewording.agrees (h : Rewording file lines lines') :
    Agrees (ParsedFile.ofLines file lines).docs (ParsedFile.ofLines file lines').docs := by
  have hagrees : ∀ stop ∈ declarationPoints lines,
      Agrees (declarationAt file lines stop).1 (declarationAt file lines' stop).1 :=
    fun _ hstop => h.agrees_at hstop
  rw [ParsedFile.ofLines, ParsedFile.ofLines, ← declarationPoints_eq h.linewise]
  constructor
  · simp only [List.flatMap_map]
    exact List.flatMap_congr fun stop hstop => (hagrees stop hstop).types
  · simp only [exposed, List.flatMap_map, List.filter_flatMap]
    exact List.flatMap_congr fun stop hstop => (hagrees stop hstop).exposed

end LuaDocs.Source
