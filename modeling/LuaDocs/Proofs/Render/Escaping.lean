import LuaDocs.Proofs.Text.Words
import LuaDocs.Proofs.TypeExpr.Words
import LuaDocs.Render.Help
import Mathlib.Data.Nat.Digits.Defs

/-!
# Escaped text

In a help file a star delimits a tag, a bar delimits a link, and a line whose last word is `>` and the
name of a language opens an example. A text is escaped if each of its marks has a backslash in front of
it and none of its words opens an example. Both survive putting texts one after the other, so everything
that is put together from escaped parts is escaped; and a text is escaped exactly if its words are, so a
line is escaped if it holds whole words of escaped texts.
-/

namespace LuaDocs.Help

open Text

variable {s t w line : Text} {c : Char} {atWord : Bool}

/-! ### Lines of a help file -/

def isMark (c : Char) : Bool :=
  c == '*' || c == '|'

/-- Every mark of the text has a backslash right in front of it. -/
def Guarded (s : Text) : Prop :=
  ∀ before c after, s = before ++ c :: after → isMark c = true → before.getLast? = some '\\'

def inLanguage (c : Char) : Bool :=
  ('a' ≤ c && c ≤ 'z') || isDigit c

def isOpener : Text → Bool
  | [] => false
  | c :: s => c == '>' && s.all inLanguage

/-- The line ends in a word that opens an example. A word starts with the line or after white space. -/
def EndsInOpener (line : Text) : Prop :=
  ∃ before w, line = before ++ w ∧ isOpener w = true ∧ ∀ c ∈ before.getLast?, isSpace c = true

/-- A line without marks of its own that opens no example. -/
structure Neutral (line : Text) : Prop where
  guarded : Guarded line
  ending : ¬ EndsInOpener line

/-! ### Marks -/

theorem not_isMark_of_isSpace (hc : isSpace c = true) : isMark c = false := by
  by_contra hmark
  rw [Bool.not_eq_false, isMark, Bool.or_eq_true, beq_iff_eq, beq_iff_eq] at hmark
  rcases hmark with rfl | rfl <;> cases hc

theorem guarded_of_forall (h : ∀ c ∈ s, isMark c = false) : Guarded s := by
  rintro before c after rfl hc
  rw [h c (List.mem_append_right before List.mem_cons_self)] at hc
  cases hc

theorem guarded_pair (c : Char) : Guarded ['\\', c] := by
  intro before d after heq hd
  cases before with
  | nil =>
    obtain ⟨rfl, -⟩ := List.cons.inj heq
    cases hd
  | cons b before =>
    obtain ⟨rfl, hrest⟩ := List.cons.inj heq
    obtain rfl : before = [] := by
      have hlength := congrArg List.length hrest
      rw [List.append_eq, List.length_append, List.length_cons, List.length_cons,
        List.length_nil] at hlength
      exact List.eq_nil_of_length_eq_zero (by omega)
    rfl

theorem Guarded.append (hs : Guarded s) (ht : Guarded t) : Guarded (s ++ t) := by
  intro before c after heq hc
  obtain ⟨u, rfl, hu⟩ | ⟨u, rfl, hu⟩ := List.append_eq_append_iff.1 heq
  · rw [List.getLast?_append, ht u c after hu hc]
    rfl
  · cases u with
    | nil => cases ht [] c after hu.symm hc
    | cons d u =>
      obtain ⟨rfl, -⟩ := List.cons.inj hu
      exact hs before c u rfl hc

/-- White space is no backslash, so it guards nothing. -/
theorem guarded_append_cons (hc : isSpace c = true) :
    Guarded (s ++ c :: t) ↔ Guarded s ∧ Guarded t := by
  constructor
  · refine fun h => ⟨fun before d after heq hd => ?_, fun before d after heq hd => ?_⟩
    · refine h before d (after ++ c :: t) ?_ hd
      rw [heq, List.append_assoc, List.cons_append]
    · have hlast := h (s ++ c :: before) d after (by simp [heq]) hd
      cases before with
      | nil =>
        rw [List.getLast?_append, List.getLast?_singleton] at hlast
        obtain rfl := Option.some.inj hlast
        cases hc
      | cons b before =>
        rw [List.getLast?_append, List.getLast?_cons_cons, List.getLast?_cons] at hlast
        rw [List.getLast?_cons]
        exact hlast
  · rintro ⟨hs, ht⟩
    exact hs.append ((guarded_of_forall (s := [c]) (by simp [not_isMark_of_isSpace hc])).append ht)

theorem guarded_escapeFrom (atWord : Bool) (s : Text) : Guarded (escapeFrom atWord s) := by
  induction s generalizing atWord with
  | nil => exact guarded_of_forall (List.forall_mem_nil _)
  | cons c s ih =>
    rw [escapeFrom]
    split
    · exact (guarded_pair c).append (ih _)
    · next hplain =>
      refine (guarded_of_forall (s := [c]) ?_).append (ih _)
      simp only [Bool.or_eq_true, not_or, Bool.not_eq_true] at hplain
      rw [List.forall_mem_singleton, isMark, hplain.1.1, hplain.1.2]
      rfl

/-! ### Openers of examples -/

theorem opensExample_cons (c : Char) (s : Text) :
    opensExample (c :: s) = (isSpace c || (inLanguage c && opensExample s)) := by
  rw [opensExample, List.takeWhile_cons]
  cases isSpace c <;> rfl

theorem opensExample_append (h : opensExample (s ++ t) = true) : opensExample s = true := by
  induction s with
  | nil => rfl
  | cons c s ih =>
    rw [List.cons_append, opensExample_cons, Bool.or_eq_true, Bool.and_eq_true] at h
    rw [opensExample_cons, Bool.or_eq_true, Bool.and_eq_true]
    exact h.imp_right fun h => ⟨h.1, ih h.2⟩

theorem opensExample_append_cons (hc : isSpace c = true) (s t : Text) :
    opensExample (s ++ c :: t) = opensExample s := by
  induction s with
  | nil => rw [List.nil_append, opensExample_cons, hc]; rfl
  | cons d s ih => rw [List.cons_append, opensExample_cons, opensExample_cons, ih]

theorem opensExample_of_unbroken (hw : Unbroken w) : opensExample w = w.all inLanguage := by
  induction w with
  | nil => rfl
  | cons c w ih =>
    rw [Unbroken, List.forall_mem_cons] at hw
    rw [opensExample_cons, hw.1, ih hw.2]
    rfl

/-- Escaping inside a word does not turn what follows `>` into the name of a language. -/
theorem opensExample_of_escapeFrom (h : opensExample (escapeFrom false s) = true) :
    opensExample s = true := by
  induction s with
  | nil => rfl
  | cons c s ih =>
    rw [escapeFrom] at h
    split at h
    · cases h
    · rw [opensExample_cons] at h ⊢
      cases hc : isSpace c with
      | true => rfl
      | false =>
        rw [hc, Bool.false_or, Bool.and_eq_true] at h
        rw [h.1, ih h.2]
        rfl

/-- Whether some word of the text opens an example; `atWord` says that a word starts here. -/
def hasOpener (atWord : Bool) : Text → Bool
  | [] => false
  | c :: s => (c == '>' && atWord && opensExample s) || hasOpener (isSpace c) s

theorem hasOpener_mono (h : hasOpener atWord s = true) : hasOpener true s = true := by
  cases s with
  | nil => exact h
  | cons c s =>
    rw [hasOpener, Bool.or_eq_true] at h ⊢
    refine h.imp_left fun h => ?_
    rw [Bool.and_eq_true, Bool.and_eq_true] at h ⊢
    exact ⟨⟨h.1.1, rfl⟩, h.2⟩

theorem hasOpener_append (h : hasOpener atWord (s ++ t) = true) :
    hasOpener atWord s = true ∨ hasOpener true t = true := by
  induction s generalizing atWord with
  | nil => exact .inr (hasOpener_mono h)
  | cons c s ih =>
    rw [List.cons_append, hasOpener, Bool.or_eq_true] at h
    rw [hasOpener, Bool.or_eq_true]
    rcases h with h | h
    · rw [Bool.and_eq_true] at h ⊢
      exact .inl (.inl ⟨h.1, opensExample_append h.2⟩)
    · exact (ih h).imp_left .inr

theorem hasOpener_append_cons (hc : isSpace c = true) (atWord : Bool) (s t : Text) :
    hasOpener atWord (s ++ c :: t) = (hasOpener atWord s || hasOpener true t) := by
  induction s generalizing atWord with
  | nil =>
    have hne : (c == '>') = false := by
      rw [beq_eq_false_iff_ne]
      rintro rfl
      cases hc
    rw [List.nil_append, hasOpener, hasOpener, hc, hne]
    rfl
  | cons d s ih =>
    rw [List.cons_append, hasOpener, hasOpener, opensExample_append_cons hc, ih, Bool.or_assoc]

theorem hasOpener_of_unbroken (hw : Unbroken w) : hasOpener true w = isOpener w := by
  have hinside : ∀ v : Text, Unbroken v → hasOpener false v = false := by
    intro v hv
    induction v with
    | nil => rfl
    | cons c v ih =>
      rw [Unbroken, List.forall_mem_cons] at hv
      rw [hasOpener, hv.1, ih hv.2, Bool.and_false]
      rfl
  cases w with
  | nil => rfl
  | cons c w =>
    rw [Unbroken, List.forall_mem_cons] at hw
    rw [hasOpener, hw.1, hinside w hw.2, opensExample_of_unbroken hw.2, Bool.or_false, Bool.and_true]
    rfl

theorem hasOpener_escapeFrom (atWord : Bool) (s : Text) :
    hasOpener atWord (escapeFrom atWord s) = false := by
  induction s generalizing atWord with
  | nil => rfl
  | cons c s ih =>
    rw [escapeFrom]
    split
    · -- The backslash takes the start of the word away from the character that it guards.
      have hslash : isSpace '\\' = false := rfl
      rw [hasOpener, hasOpener, hslash, ih, Bool.and_false]
      rfl
    · next hplain =>
      rw [hasOpener, ih, Bool.or_false]
      by_contra hopener
      rw [Bool.not_eq_false, Bool.and_eq_true, Bool.and_eq_true, beq_iff_eq] at hopener
      obtain ⟨⟨rfl, rfl⟩, hopens⟩ := hopener
      have horiginal : opensExample s = true := opensExample_of_escapeFrom hopens
      rw [horiginal] at hplain
      exact hplain rfl

/-- White space ends a word, so what follows it is escaped by itself. -/
theorem escapeFrom_append_cons (hc : isSpace c = true) (atWord : Bool) (s t : Text) :
    escapeFrom atWord (s ++ c :: t) = escapeFrom atWord s ++ c :: escapeFrom true t := by
  induction s generalizing atWord with
  | nil =>
    have hmark : (c == '*' || c == '|') = false := not_isMark_of_isSpace hc
    have hne : (c == '>') = false := by
      rw [beq_eq_false_iff_ne]
      rintro rfl
      cases hc
    have hnil : escapeFrom atWord [] = [] := rfl
    rw [List.nil_append, hnil, List.nil_append, escapeFrom, hmark, hne, hc]
    rfl
  | cons d s ih =>
    rw [List.cons_append, escapeFrom, escapeFrom, opensExample_append_cons hc, ih]
    split <;> rfl

theorem escape_join_paragraphs (ps : List Text) :
    escape (join "\n\n".toList ps) = join "\n\n".toList (ps.map escape) := by
  induction ps with
  | nil => rfl
  | cons p ps ih =>
    cases ps with
    | nil => rw [List.map_cons, List.map_nil, join_singleton, join_singleton]
    | cons q qs =>
      have hfirst := escapeFrom_append_cons (c := '\n') rfl true p
        ('\n' :: join "\n\n".toList (q :: qs))
      have hsecond := escapeFrom_append_cons (c := '\n') rfl true [] (join "\n\n".toList (q :: qs))
      rw [List.nil_append] at hsecond
      rw [hsecond] at hfirst
      rw [List.map_cons] at ih
      rw [join_cons_cons, List.map_cons, List.map_cons, join_cons_cons, ← ih]
      exact hfirst

theorem sublist_escapeFrom (atWord : Bool) (s : Text) : s.Sublist (escapeFrom atWord s) := by
  induction s generalizing atWord with
  | nil => exact List.nil_sublist _
  | cons c s ih =>
    rw [escapeFrom]
    split
    · exact ((ih _).cons_cons c).cons '\\'
    · exact (ih _).cons_cons c

theorem mem_escapeFrom (h : c ∈ escapeFrom atWord s) : c = '\\' ∨ c ∈ s := by
  induction s generalizing atWord with
  | nil => exact absurd h List.not_mem_nil
  | cons d s ih =>
    have htail : ∀ atWord, c ∈ d :: escapeFrom atWord s → c = '\\' ∨ c ∈ d :: s := by
      intro atWord h
      rcases List.mem_cons.1 h with rfl | h
      · exact .inr List.mem_cons_self
      · exact (ih h).imp_right (List.mem_cons_of_mem d)
    rw [escapeFrom] at h
    split at h
    · rcases List.mem_cons.1 h with rfl | h
      · exact .inl rfl
      · exact htail _ h
    · exact htail _ h

theorem not_isSpace_of_inLanguage (hc : inLanguage c = true) : isSpace c = false := by
  refine TypeExpr.not_isSpace_of_isDottedChar ?_
  rw [inLanguage, Bool.or_eq_true] at hc
  simp only [isDottedChar, isNameChar, isNameStart, isLatinLetter, Bool.or_eq_true]
  exact hc.elim (fun h => .inl (.inl (.inl (.inl h)))) fun h => .inl (.inr h)

theorem unbroken_of_isOpener (hw : isOpener w = true) : Unbroken w := by
  cases w with
  | nil => cases hw
  | cons c w =>
    rw [isOpener, Bool.and_eq_true, beq_iff_eq, List.all_eq_true] at hw
    obtain ⟨rfl, hw⟩ := hw
    exact List.forall_mem_cons.2 ⟨rfl, fun c hc => not_isSpace_of_inLanguage (hw c hc)⟩

theorem hasOpener_of_endsInOpener (h : EndsInOpener line) : hasOpener true line = true := by
  obtain ⟨before, w, rfl, hw, hlast⟩ := h
  have hopener : hasOpener true w = true := by
    rw [hasOpener_of_unbroken (unbroken_of_isOpener hw), hw]
  rcases List.eq_nil_or_concat before with rfl | ⟨before, c, rfl⟩
  · exact hopener
  · have hc : isSpace c = true := hlast c (by simp)
    rw [List.concat_eq_append, List.append_assoc, List.singleton_append, hasOpener_append_cons hc,
      hopener, Bool.or_true]

/-! ### Escaped texts -/

/-- A text without marks of its own in which no word opens an example. -/
structure Escaped (s : Text) : Prop where
  guarded : Guarded s
  closed : hasOpener true s = false

theorem Escaped.append (hs : Escaped s) (ht : Escaped t) : Escaped (s ++ t) := by
  refine ⟨hs.guarded.append ht.guarded, ?_⟩
  by_contra hopener
  rw [Bool.not_eq_false] at hopener
  rcases hasOpener_append hopener with h | h
  · exact absurd hs.closed (by simp [h])
  · exact absurd ht.closed (by simp [h])

/-- A test for fixed texts without marks. -/
theorem escaped_of_test (h : (s.any isMark || hasOpener true s) = false) : Escaped s := by
  rw [Bool.or_eq_false_iff, List.any_eq_false] at h
  exact ⟨guarded_of_forall fun c hc => by simpa using h.1 c hc, h.2⟩

theorem escaped_nil : Escaped [] :=
  escaped_of_test rfl

theorem escaped_append_cons (hc : isSpace c = true) :
    Escaped (s ++ c :: t) ↔ Escaped s ∧ Escaped t := by
  constructor
  · rintro ⟨hguarded, hclosed⟩
    rw [guarded_append_cons hc] at hguarded
    rw [hasOpener_append_cons hc, Bool.or_eq_false_iff] at hclosed
    exact ⟨⟨hguarded.1, hclosed.1⟩, ⟨hguarded.2, hclosed.2⟩⟩
  · rintro ⟨hs, ht⟩
    refine ⟨(guarded_append_cons hc).2 ⟨hs.guarded, ht.guarded⟩, ?_⟩
    rw [hasOpener_append_cons hc, hs.closed, ht.closed]
    rfl

/-- A text is escaped exactly if its words are. -/
theorem escaped_iff : Escaped s ↔ ∀ w ∈ words s, Escaped w := by
  have hunbroken : ∀ w, Unbroken w → (Escaped w ↔ ∀ v ∈ words w, Escaped v) := by
    intro w hw
    by_cases hne : w = []
    · subst hne
      exact iff_of_true escaped_nil (List.forall_mem_nil _)
    · rw [words_of_unbroken hne hw, List.forall_mem_singleton]
  induction s using induction_on_words with
  | unbroken w hw => exact hunbroken w hw
  | append w c s hw hc ih =>
    rw [escaped_append_cons hc, words_append_cons hc, List.forall_mem_append]
    exact and_congr (hunbroken w hw) ih

theorem Escaped.neutral (h : Escaped line) : Neutral line := by
  refine ⟨h.guarded, fun hends => ?_⟩
  have hclosed := h.closed
  rw [hasOpener_of_endsInOpener hends] at hclosed
  cases hclosed

theorem Neutral.escaped (h : Neutral w) (hw : Unbroken w) : Escaped w := by
  refine ⟨h.guarded, ?_⟩
  rw [hasOpener_of_unbroken hw]
  by_contra hopener
  rw [Bool.not_eq_false] at hopener
  exact h.ending ⟨[], w, rfl, hopener, nofun⟩

/-! ### Parts of rendered text -/

theorem escaped_escape (s : Text) : Escaped (escape s) :=
  ⟨guarded_escapeFrom true s, hasOpener_escapeFrom true s⟩

theorem escaped_code (s : Text) : Escaped (code s) := by
  have htick : Escaped ['\x60'] := escaped_of_test rfl
  exact (htick.append (escaped_escape s)).append htick

theorem escaped_spaces (n : ℕ) : Escaped (spaces n) := by
  rw [escaped_iff, words_eq_nil (isSpace_of_mem_spaces n)]
  exact List.forall_mem_nil _

theorem escaped_join {parts : List Text} (hs : Escaped s) (hparts : ∀ t ∈ parts, Escaped t) :
    Escaped (join s parts) := by
  induction parts with
  | nil => exact escaped_nil
  | cons t parts ih =>
    rw [List.forall_mem_cons] at hparts
    cases parts with
    | nil => rw [join_singleton]; exact hparts.1
    | cons u parts => rw [join_cons_cons]; exact hparts.1.append (hs.append (ih hparts.2))

theorem mem_toDigits (n : ℕ) (hc : c ∈ Nat.toDigits 16 n) : ∃ k < 16, c = Nat.digitChar k := by
  induction n using Nat.strongRecOn with
  | _ n ih =>
    rcases Nat.lt_or_ge n 16 with hn | hn
    · rw [Nat.toDigits_of_lt_base hn] at hc
      exact ⟨n, hn, List.mem_singleton.1 hc⟩
    · rw [Nat.toDigits_of_base_le (by decide) hn, List.mem_append] at hc
      rcases hc with hc | hc
      · exact ih (n / 16) (Nat.div_lt_self (by omega) (by decide)) hc
      · exact ⟨n % 16, Nat.mod_lt n (by decide), List.mem_singleton.1 hc⟩

theorem mem_ofNatHex (n : ℕ) (hc : c ∈ ofNatHex n) : ∃ k < 16, c = Nat.digitChar k := by
  rcases List.mem_append.1 hc with hc | hc
  · exact ⟨0, by decide, List.eq_of_mem_replicate hc⟩
  · exact mem_toDigits n hc

/-- A name in a tag holds neither marks nor white space. -/
theorem mem_escapeTag (hc : c ∈ escapeTag s) : isMark c = false ∧ isSpace c = false := by
  have hcodes : ∀ k < 16, isMark (Nat.digitChar k).toUpper = false ∧
      isSpace (Nat.digitChar k).toUpper = false := by
    decide
  obtain ⟨d, -, hd⟩ := List.mem_flatMap.1 hc
  split at hd
  · rcases List.mem_cons.1 hd with rfl | hd
    · exact ⟨rfl, rfl⟩
    · obtain ⟨digit, hdigit, rfl⟩ := List.mem_map.1 hd
      obtain ⟨k, hk, rfl⟩ := mem_ofNatHex _ hdigit
      exact hcodes k hk
  · next hplain =>
    obtain rfl := List.mem_singleton.1 hd
    simp only [needsCode, Bool.or_eq_true, not_or, Bool.not_eq_true] at hplain
    rw [isMark, hplain.1.1.1, hplain.1.1.2]
    exact ⟨rfl, hplain.2⟩

theorem escaped_argument (name : Text) : Escaped (argument name) := by
  have hmem : ∀ c ∈ argument name, isMark c = false ∧ isSpace c = false := by
    intro c hc
    rw [argument, List.cons_append, List.mem_cons, List.mem_append, List.mem_singleton] at hc
    rcases hc with rfl | hc | rfl
    · exact ⟨rfl, rfl⟩
    · exact mem_escapeTag hc
    · exact ⟨rfl, rfl⟩
  refine ⟨guarded_of_forall fun c hc => (hmem c hc).1, ?_⟩
  rw [hasOpener_of_unbroken fun c hc => (hmem c hc).2]
  rfl

end LuaDocs.Help
