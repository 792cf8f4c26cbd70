import LuaDocs.Proofs.Declaration.Heads
import LuaDocs.Source.File

/-!
# Layouts of parameter lists

The names of the parameters and the commas between them are words, which may stand on several lines with
white space around them and a comment behind the last word of a line; after the line that closes the list
nothing is read. Joining the lines keeps the words in their order, and what a text with these words declares
does not depend on the white space, so every layout of a list declares what the list on one line does.
-/

namespace LuaDocs

/-! ### Trimming -/

namespace Text

variable {b w : Text} {c : Char}

theorem Solid.trim_blanks (hw : Solid w) {v : Text} (hb : Blank b) (hv : Blank v) :
    trim (b ++ (w ++ v)) = w := by
  have hend : trimEnd (w ++ v) = w := by
    have hlast := hw.trimEnd_append [] v
    rwa [trimEnd_of_blank hv, List.append_nil] at hlast
  rw [trim, trimStart_append_of_blank hb, hw.trimStart_append, hend]

end Text

namespace Signature

open Text Tag TypeExpr

variable {b code comment first inside line n s t v w : Text} {ws vs ns following lines : List Text} {c : Char}
  {head : Head}

/-! ### Words with white space around them -/

/-- A name of a parameter or a comma. -/
inductive Word : Text → Prop
  | comma : Word [',']
  | name {n : Text} (h : EntryName n) : Word n

theorem Word.not_mem (h : Word w) (hc : isDottedChar c = false) (hcomma : c ≠ ',') : c ∉ w := by
  intro hmem
  cases h with
  | comma => exact hcomma (List.mem_singleton.1 hmem)
  | name h =>
    rw [h.isDottedChar_of_mem hmem] at hc
    cases hc

theorem Word.solid (h : Word w) : Solid w := by
  cases h with
  | comma => exact solid_singleton (by decide)
  | name h => exact h.solid

/-- A text has some words in their order, with any white space around each of them. -/
inductive Wording : List Text → Text → Prop
  | nil {b : Text} (hb : Blank b) : Wording [] b
  | cons {b w s : Text} {ws : List Text} (hb : Blank b) (hw : Word w) (h : Wording ws s) :
      Wording (w :: ws) (b ++ (w ++ s))

theorem Wording.blank_append (hb : Blank b) (h : Wording ws s) : Wording ws (b ++ s) := by
  cases h with
  | nil hv => exact .nil (hb.append hv)
  | cons hv hw h =>
    rw [← List.append_assoc]
    exact .cons (hb.append hv) hw h

theorem Wording.append (h : Wording ws s) (ht : Wording vs t) : Wording (ws ++ vs) (s ++ t) := by
  induction h with
  | nil hb => exact ht.blank_append hb
  | cons hb hw _ ih =>
    rw [List.cons_append, List.append_assoc, List.append_assoc]
    exact .cons hb hw ih

theorem Wording.not_mem (h : Wording ws s) (hspace : isSpace c = false) (hc : isDottedChar c = false)
    (hcomma : c ≠ ',') : c ∉ s := by
  have hblank {b : Text} (hb : Blank b) : c ∉ b := by
    intro hmem
    rw [hb c hmem] at hspace
    cases hspace
  induction h with
  | nil hb => exact hblank hb
  | cons hb hw _ ih =>
    rw [List.mem_append, List.mem_append]
    rintro (h | h | h)
    · exact hblank hb h
    · exact hw.not_mem hc hcomma h
    · exact ih h

/-- Words stay when the white space at the ends of their text goes. -/
theorem Wording.trimStart (h : Wording ws s) : Wording ws (trimStart s) := by
  cases h with
  | nil hb => exact .nil fun c hc => hb c ((List.dropWhile_sublist _).mem hc)
  | cons hb hw h =>
    rw [trimStart_append_of_blank hb, hw.solid.trimStart_append]
    exact .cons blank_nil hw h

theorem Wording.trimEnd (h : Wording ws s) : Wording ws (trimEnd s) := by
  induction h with
  | nil hb =>
    rw [trimEnd_of_blank hb]
    exact .nil blank_nil
  | cons hb hw _ ih =>
    rw [hw.solid.trimEnd_append]
    exact .cons hb hw ih

/-! ### Names between commas -/

theorem paramNames_append_comma (s t : Text) : paramNames (s ++ ',' :: t) = paramNames s ++ paramNames t := by
  rw [paramNames, splitOn_append_cons, List.map_append, List.filter_append]
  rfl

theorem paramNames_of_not_mem (h : ',' ∉ s) : paramNames s = [trim s].filter (!·.isEmpty) := by
  rw [paramNames, splitOn_of_not_mem h]
  rfl

theorem paramNames_of_blank (hb : Blank b) : paramNames b = [] := by
  rw [paramNames_of_not_mem fun h => absurd (hb _ h) (by decide), trim_of_blank hb]
  rfl

theorem paramNames_of_name (hn : EntryName n) (hb : Blank b) (hv : Blank v) :
    paramNames (b ++ (n ++ v)) = [n] := by
  have hcomma : ',' ∉ b ++ (n ++ v) := by
    rw [List.mem_append, List.mem_append]
    rintro (h | h | h)
    · exact absurd (hb _ h) (by decide)
    · exact absurd (hn.isDottedChar_of_mem h) (by decide)
    · exact absurd (hv _ h) (by decide)
  rw [paramNames_of_not_mem hcomma, hn.solid.trim_blanks hb hv]
  exact List.filter_eq_self.2 (by simpa using hn.ne_nil)

/-- The white space in a list of names does not count. -/
theorem paramNames_of_wording (hns : ∀ n ∈ ns, EntryName n) (h : Wording (ns.intersperse [',']) s) :
    paramNames s = ns := by
  induction ns generalizing s with
  | nil =>
    cases h with
    | nil hb => exact paramNames_of_blank hb
  | cons n ns ih =>
    obtain ⟨hn, hns⟩ := List.forall_mem_cons.1 hns
    cases ns with
    | nil =>
      cases h with
      | cons hb _ h =>
        cases h with
        | nil hv => exact paramNames_of_name hn hb hv
    | cons m ms =>
      rw [List.intersperse_cons_cons] at h
      cases h with
      | @cons b _ _ _ hb _ h =>
        cases h with
        | @cons v _ t _ hv _ h =>
          have hsplit : b ++ (n ++ (v ++ ([','] ++ t))) = b ++ (n ++ v) ++ ',' :: t := by simp
          rw [hsplit, paramNames_append_comma, paramNames_of_name hn hb hv, ih hns h]
          rfl

/-- The names as they stand on one line. -/
theorem wording_join (hns : ∀ n ∈ ns, EntryName n) : Wording (ns.intersperse [',']) (join ", ".toList ns) := by
  induction ns with
  | nil => exact .nil blank_nil
  | cons n ns ih =>
    obtain ⟨hn, hns⟩ := List.forall_mem_cons.1 hns
    cases ns with
    | nil =>
      have hone : Wording [n] (n ++ []) := .cons blank_nil (.name hn) (.nil blank_nil)
      rw [List.append_nil] at hone
      rw [join_singleton]
      exact hone
    | cons m ms =>
      rw [List.intersperse_cons_cons, join_cons_cons]
      exact .cons blank_nil (.name hn) (.cons blank_nil .comma ((ih hns).blank_append blank_space))

/-! ### Lines -/

/-- Words and the parenthesis behind them stand on some lines: a line that does not close the list may end with
a comment, and on the line that does, anything may follow. -/
inductive Layout : List Text → List Text → Prop
  | closed {ws : List Text} {code rest : Text} {after : List Text} (h : Wording ws code) :
      Layout ws ((code ++ ')' :: rest) :: after)
  | opened {ws vs : List Text} {code comment : Text} {lines : List Text} (h : Wording ws code)
      (hcomment : comment = [] ∨ "--".toList <+: comment) (hlines : Layout vs lines) :
      Layout (ws ++ vs) ((code ++ comment) :: lines)

theorem Wording.stripComment_append (h : Wording ws code) (t : Text) :
    stripComment (code ++ t) = code ++ stripComment t :=
  Signature.stripComment_append (h.not_mem (by decide) (by decide) (by decide)) t

theorem Wording.stripComment_closed (h : Wording ws code) (rest : Text) :
    stripComment (code ++ ')' :: rest) = code ++ ')' :: stripComment rest := by
  rw [h.stripComment_append]
  rfl

theorem Wording.stripComment_comment (h : Wording ws code) (hcomment : comment = [] ∨ "--".toList <+: comment) :
    stripComment (code ++ comment) = code := by
  have hnone : stripComment comment = [] := by
    rcases hcomment with rfl | ⟨t, rfl⟩
    · rfl
    · rfl
  rw [h.stripComment_append, hnone, List.append_nil]

theorem Wording.not_paren (h : Wording ws s) : ')' ∉ s :=
  h.not_mem (by decide) (by decide) (by decide)

/-- The lines are joined up to the parenthesis, without their comments. -/
theorem Layout.closeParams (h : Layout ws lines) :
    ∃ inside rest, closeParams lines = some (inside ++ ')' :: rest) ∧ Wording ws inside := by
  induction h with
  | @closed ws code rest after h =>
    have hwording : Wording ws (' ' :: Text.trimStart code) := h.trimStart.blank_append blank_space
    have hpart : ' ' :: trim (stripComment (code ++ ')' :: rest)) =
        ' ' :: Text.trimStart code ++ ')' :: Text.trimEnd (stripComment rest) := by
      rw [h.stripComment_closed, trim, trimStart_append_cons (by decide), trimEnd_append_cons (by decide)]
      rfl
    refine ⟨' ' :: Text.trimStart code, Text.trimEnd (stripComment rest), ?_, hwording⟩
    rw [Signature.closeParams, hpart, if_pos (by simp)]
  | @opened ws vs code comment lines h hcomment _ ih =>
    obtain ⟨inside, rest, hclose, hinside⟩ := ih
    have hwording : Wording ws (' ' :: trim code) := h.trimStart.trimEnd.blank_append blank_space
    refine ⟨' ' :: trim code ++ inside, rest, ?_, hwording.append hinside⟩
    have hopen : ¬ (' ' :: trim code).contains ')' := by
      rw [List.contains_iff_mem]
      exact hwording.not_paren
    rw [Signature.closeParams, h.stripComment_comment hcomment, if_neg hopen, hclose, Option.map_some,
      List.append_assoc]

/-- A line that closes its list is read as it stands. -/
theorem Opening.source_closed (hs : Opening s head) (h : Wording ws code) (rest : Text) (following : List Text) :
    source (s ++ (code ++ ')' :: rest)) following = s ++ (code ++ ')' :: rest) := by
  have hclosed : (stripComment (code ++ ')' :: rest)).contains ')' = true := by
    rw [h.stripComment_closed]
    simp
  rw [source, stripComment_append hs.written.2, hs.head?_append]
  dsimp only
  rw [if_pos hclosed]

/-- A head with a list laid out behind it is read as one line, with the same words. -/
theorem Opening.source_of_layout (hs : Opening s head) (h : Layout ws (first :: following)) :
    ∃ inside rest, source (s ++ first) following = s ++ (inside ++ ')' :: rest) ∧ Wording ws inside := by
  cases h with
  | @closed _ code rest _ h => exact ⟨code, rest, hs.source_closed h rest following, h⟩
  | @opened ws vs code comment _ h hcomment hlines =>
    obtain ⟨⟨v, hv⟩, hdash⟩ := hs.written
    obtain ⟨inside, rest, hclose, hinside⟩ := hlines.closeParams
    refine ⟨Text.trimEnd code ++ inside, rest, ?_, h.trimEnd.append hinside⟩
    have hcode : Text.trimEnd (s ++ code) = s ++ Text.trimEnd code := by
      have hlast := trimEnd_append_cons (c := '(') (by decide) v code
      simpa [hv] using hlast
    rw [source, stripComment_append hdash, h.stripComment_comment hcomment, hs.head?_append]
    dsimp only
    rw [if_neg (by simpa using h.not_paren), hclose, Option.map_some, Option.getD_some, hcode]
    simp

/-! ### Declarations -/

/-- What a head and some names declare; an indented assignment to a plain name is a key of a table. -/
def Head.signature (head : Head) (indented : Bool) (ns : List Text) : Signature where
  declaredName := head.name
  isLocal := head.isLocal
  tableKey := head.assigned && !head.isLocal && !head.name.contains '.' && indented
  params := ns

/-- Only the words between the parentheses are read. -/
theorem Opening.parse?_append (hs : Opening s head) (hns : ∀ n ∈ ns, EntryName n)
    (h : Wording (ns.intersperse [',']) inside) (rest : Text) :
    parse? (s ++ (inside ++ ')' :: rest)) = some (head.signature (s.head?.any isBlank) ns) := by
  have hparams : (inside ++ ')' :: rest).takeWhile (· != ')') = inside := by
    refine takeWhile_append_of_head? (fun c hc => ?_) (by simp)
    rw [bne_iff_ne]
    rintro rfl
    exact h.not_paren hc
  have hindent : ((s ++ (inside ++ ')' :: rest)).head?.map isBlank).getD false = s.head?.any isBlank := by
    obtain ⟨⟨v, rfl⟩, -⟩ := hs.written
    cases v <;> rfl
  rw [parse?, hs.head?_append]
  dsimp only
  rw [if_pos (by simp), hparams, paramNames_of_wording hns h, hindent]
  rfl

/-- However the names of the parameters are laid out behind a head, on one line or over several, with comments
and white space around them, the declaration is the one with the list on the line of the head. -/
theorem Opening.signature_of_layout (hs : Opening s head) (hns : ∀ n ∈ ns, EntryName n)
    (h : Layout (ns.intersperse [',']) (first :: following)) (before : List Text) :
    (Source.codeAt? (before ++ (s ++ first) :: following) before.length).bind parse? =
        some (head.signature (s.head?.any isBlank) ns) ∧
      parse? (s ++ (join ", ".toList ns ++ [')'])) = some (head.signature (s.head?.any isBlank) ns) := by
  constructor
  · obtain ⟨inside, rest, hsource, hinside⟩ := hs.source_of_layout h
    have hline : (before ++ (s ++ first) :: following)[before.length]? = some (s ++ first) := by
      rw [List.getElem?_append_right le_rfl, Nat.sub_self, List.getElem?_cons_zero]
    have hafter : (before ++ (s ++ first) :: following).drop (before.length + 1) = following := by
      rw [List.drop_length_add_append]
      rfl
    rw [Source.codeAt?, hline, hafter, Option.map_some, Option.bind_some, hsource]
    exact hs.parse?_append hns hinside rest
  · exact hs.parse?_append hns (wording_join hns) []

theorem signature_of_layout_comments :
    let signature : Signature := ⟨"M.each".toList, false, false, ["seen".toList, "visit".toList, "...".toList]⟩
    (Source.codeAt? ["local M = {}".toList, "M.each = function(seen, -- (all), by key".toList, [],
        "  visit, ... -- and the rest)".toList, ") return seen end".toList] 1).bind parse? = some signature ∧
      parse? "M.each = function(seen, visit, ...)".toList = some signature := by
  have hs : Opening "M.each = function(".toList ⟨"M.each".toList, false, true⟩ := by
    have hname : IsName isDottedChar "M.each".toList := .mk rfl (List.all_eq_true.1 rfl)
    exact .outer blanks_nil (.assignment hname blanks_space blanks_space blanks_nil)
  have hseen : EntryName "seen".toList := .simple (by decide) (List.all_eq_true.1 rfl)
  have hvisit : EntryName "visit".toList := .simple (by decide) (List.all_eq_true.1 rfl)
  have hns : ∀ n ∈ ["seen".toList, "visit".toList, "...".toList], EntryName n :=
    List.forall_mem_cons.2 ⟨hseen, List.forall_mem_cons.2 ⟨hvisit, List.forall_mem_singleton.2 .rest⟩⟩
  -- The words of each line; the line that closes the list has none of them.
  have hfirst : Wording ["seen".toList, [',']] "seen, ".toList :=
    .cons blank_nil (.name hseen) (.cons blank_nil .comma (.nil blank_space))
  have hthird : Wording ["visit".toList, [','], "...".toList] "  visit, ... ".toList :=
    .cons (blank_space.append blank_space) (.name hvisit)
      (.cons blank_nil .comma (.cons blank_space (.name .rest) (.nil blank_space)))
  have hlayout : Layout (["seen".toList, "visit".toList, "...".toList].intersperse [','])
      ["seen, -- (all), by key".toList, [], "  visit, ... -- and the rest)".toList,
        ") return seen end".toList] :=
    .opened hfirst (.inr ⟨" (all), by key".toList, rfl⟩) <|
      .opened (.nil blank_nil) (.inl rfl) <|
        .opened hthird (.inr ⟨" and the rest)".toList, rfl⟩) (.closed (.nil blank_nil))
  exact Opening.signature_of_layout hs hns hlayout ["local M = {}".toList]

end Signature

end LuaDocs
