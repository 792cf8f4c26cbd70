import LuaDocs.Proofs.TypeExpr.Reading

/-!
# What may follow a type

Reading is greedy, so where a type ends depends on the text after it. `Stop` says that a text
continues no type at all; whatever closes a list is such a text. Other texts continue a type, and
what is left once they have done so is `after`. It depends on the text alone, not on the type in
front of it, and this is what makes greedy reading predictable: the last type of a union or of a
function's result takes all that the whole could have taken.
-/

namespace LuaDocs.TypeExpr

open Text

variable {s r v w b n : Text} {t : TypeExpr} {c d : Char}

/-! ### The end of a type -/

/-- No character that would continue a name opens the text, and neither `<` nor `(` does. -/
def Boundary (s : Text) : Prop :=
  ∀ c ∈ s.head?, isDottedChar c = false ∧ c ≠ '<' ∧ c ≠ '('

/-- The text continues no type. -/
structure Stop (s : Text) : Prop where
  boundary : Boundary s
  noSuffix : NoSuffix s
  bar : '|' ∉ (trimStart s).head?
  colon : ':' ∉ (trimStart s).head?

def closers : List Char :=
  [',', ')', ']', '}', '>']

theorem mem_head?_blank_append (hb : Blank b) (hd : d ∈ (b ++ c :: s).head?) :
    isSpace d ∨ d = c := by
  cases b with
  | nil => exact .inr (Option.some.inj hd).symm
  | cons e b =>
    obtain rfl := Option.some.inj hd
    exact .inl (hb _ List.mem_cons_self)

theorem boundary_nil : Boundary [] :=
  nofun

theorem boundary_of_isSpace (h : ∀ c ∈ s.head?, isSpace c) : Boundary s :=
  fun c hc => ⟨not_isDottedChar_of_isSpace (h c hc), ne_of_test (h c hc) rfl,
    ne_of_test (h c hc) rfl⟩

theorem boundary_blank_append (hb : Blank b)
    (hc : isDottedChar c = false ∧ c ≠ '<' ∧ c ≠ '(') : Boundary (b ++ c :: s) := by
  intro d hd
  rcases mem_head?_blank_append hb hd with hd | rfl
  · exact ⟨not_isDottedChar_of_isSpace hd, ne_of_test hd rfl, ne_of_test hd rfl⟩
  · exact hc

theorem noSuffix_of_head? (h : ∀ c ∈ s.head?, c ≠ '[' ∧ c ≠ '?') : NoSuffix s := by
  refine ⟨?_, ?_⟩
  · intro r hr
    exact (h '[' (by rw [hr]; rfl)).1 rfl
  · intro r hr
    exact (h '?' (by rw [hr]; rfl)).2 rfl

theorem noSuffix_blank_append (hb : Blank b) (hc : c ≠ '[' ∧ c ≠ '?') :
    NoSuffix (b ++ c :: s) := by
  refine noSuffix_of_head? fun d hd => ?_
  rcases mem_head?_blank_append hb hd with hd | rfl
  · exact ⟨ne_of_test hd rfl, ne_of_test hd rfl⟩
  · exact hc

theorem not_mem_head?_trimStart (hb : Blank b) (hc : isSpace c = false) (hd : d ≠ c) :
    d ∉ (trimStart (b ++ c :: s)).head? := by
  rw [trimStart_append_of_blank hb, trimStart_cons_of_not_isSpace hc]
  exact fun h => hd (Option.some.inj h).symm

theorem isSpace_of_mem_closers (hc : c ∈ closers) : isSpace c = false := by
  simp only [closers, List.mem_cons, List.not_mem_nil, or_false] at hc
  rcases hc with rfl | rfl | rfl | rfl | rfl <;> rfl

theorem stop_blank_append (hb : Blank b) (hc : c ∈ closers) : Stop (b ++ c :: s) := by
  have hspace := isSpace_of_mem_closers hc
  have hmark : (isDottedChar c = false ∧ c ≠ '<' ∧ c ≠ '(') ∧ (c ≠ '[' ∧ c ≠ '?') ∧ '|' ≠ c ∧
      ':' ≠ c := by
    simp only [closers, List.mem_cons, List.not_mem_nil, or_false] at hc
    rcases hc with rfl | rfl | rfl | rfl | rfl <;> decide
  obtain ⟨hboundary, hsuffix, hbar, hcolon⟩ := hmark
  exact ⟨boundary_blank_append hb hboundary, noSuffix_blank_append hb hsuffix,
    not_mem_head?_trimStart hb hspace hbar, not_mem_head?_trimStart hb hspace hcolon⟩

theorem stop_cons (hc : c ∈ closers) : Stop (c :: s) :=
  stop_blank_append blank_nil hc

theorem stop_nil : Stop [] :=
  ⟨boundary_nil, noSuffix_of_head? nofun, nofun, nofun⟩

/-! ### The continuation of a type -/

/-- What the suffixes and the alternatives at the front of a text leave of it. -/
def after (s : Text) : Text :=
  (alternatives (suffixes any s).2.1).2.1

theorem noSuffix_of_reads_suffixed? (h : Reads (suffixed? s) t r) : NoSuffix r := by
  obtain ⟨u, v, -, -, rfl⟩ := reads_suffixed?.1 h
  exact noSuffix_suffixes u v

/-- Alternatives take all that they can: no suffix and no alternative follows the last. -/
theorem alternatives_alternatives (hs : NoSuffix s) : NoSuffix (alternatives s).2.1 ∧
    (alternatives (alternatives s).2.1).2.1 = (alternatives s).2.1 := by
  obtain ⟨n, hn⟩ : ∃ n, n = s.length := ⟨_, rfl⟩
  induction n using Nat.strong_induction_on generalizing s with
  | h n ih =>
    rcases alternatives_cases s with h | ⟨v, t, w, hv, ht⟩
    · have hrest : (alternatives s).2.1 = s := by
        rw [h]
        rfl
      rw [hrest]
      exact ⟨hs, hrest⟩
    · have hlt : w.length < n := by
        rw [hn]
        exact ht.length_lt.trans hv.length_lt
      rw [(alternatives_more hv ht).2]
      exact ih w.length hlt (noSuffix_of_reads_suffixed? ht) rfl

theorem after_of_noSuffix (h : NoSuffix s) : after s = (alternatives s).2.1 := by
  rw [after, suffixes_of_noSuffix h]
  rfl

theorem after_after (s : Text) : after (after s) = after s := by
  obtain ⟨hsuffix, hrest⟩ := alternatives_alternatives (noSuffix_suffixes any s)
  rw [after_of_noSuffix (by exact hsuffix)]
  exact hrest

theorem Stop.alternatives_eq (h : Stop s) : alternatives s = ([], .whole s) :=
  alternatives_stop h.bar

theorem Stop.after_eq (h : Stop s) : after s = s := by
  rw [after_of_noSuffix h.noSuffix, h.alternatives_eq]
  rfl

/-- The text `x` is the suffix that makes `wrap t` of a type `t`. -/
structure IsSuffix (wrap : TypeExpr → TypeExpr) (x : Text) : Prop where
  boundary : ∀ r, Boundary (x ++ r)
  colon : ∀ r, ':' ∉ (trimStart (x ++ r)).head?
  wraps : ∀ t r, (suffixes t (x ++ r)).1 = (suffixes (wrap t) r).1 ∧
    (suffixes t (x ++ r)).2.1 = (suffixes (wrap t) r).2.1

theorem isSuffix_array : IsSuffix array "[]".toList where
  boundary r := boundary_blank_append (s := ']' :: r) blank_nil (by decide)
  colon r := not_mem_head?_trimStart (s := ']' :: r) blank_nil rfl (by decide)
  wraps _ _ := suffixes_array

theorem isSuffix_optional : IsSuffix optional "?".toList where
  boundary r := boundary_blank_append (s := r) blank_nil (by decide)
  colon r := not_mem_head?_trimStart (s := r) blank_nil rfl (by decide)
  wraps _ _ := suffixes_optional

theorem IsSuffix.after_append {wrap : TypeExpr → TypeExpr} {x : Text} (hx : IsSuffix wrap x)
    (s : Text) : after (x ++ s) = after s := by
  rw [after, (hx.wraps any s).2, suffixes_rest (wrap any) any s, after]

/-- A primary type opens a type that takes all that follows it. -/
theorem reads_union?_of_primary? (h : Reads (primary? s) t r) :
    ∃ u, Reads (union? s) u (after r) := by
  have hsuffixed : Reads (suffixed? s) (suffixes t r).1 (suffixes t r).2.1 :=
    reads_suffixed?.2 ⟨t, r, h, rfl, rfl⟩
  refine ⟨_, reads_union?.2 ⟨_, _, hsuffixed, rfl, ?_⟩⟩
  rw [after, suffixes_rest any t r]

/-- After a type, a `|` and a second type leave what the second type leaves. -/
theorem after_bar (hv : Blank v) (hb : Blank b) (hw : Solid w)
    (h : Reads (union? (w ++ s)) t r) : after (v ++ '|' :: (b ++ (w ++ s))) = r := by
  obtain ⟨u, x, hu, -, rfl⟩ := reads_union?.1 h
  rw [after_of_noSuffix (noSuffix_blank_append hv (by decide)),
    (alternatives_more (leaves_between?_append_solid hv hb hw rfl) hu).2]

/-! ### Lists -/

section

variable {α : Type} {item : Text → α → Text → Prop} {close : Char} {x : α} {xs : List α}

/-- White space in front of a list does not matter. -/
theorem items_congr (hs : trimStart s = trimStart v) (h : Items item close s xs r) :
    Items item close v xs r := by
  cases h with
  | last hitem hcomma hclose => exact .last (by rwa [← hs]) hcomma hclose
  | more hitem hcomma hitems => exact .more (by rwa [← hs]) hcomma hitems

theorem Items.not_mem_head? (hitem : ∀ s x r, ¬ item (close :: s) x r)
    (h : Items item close s xs r) : close ∉ (trimStart s).head? := by
  intro hclose
  obtain ⟨v, hv⟩ := mem_head?_iff.1 hclose
  cases h with
  | last hx _ _ => exact hitem _ _ _ (hv ▸ hx)
  | more hx _ _ => exact hitem _ _ _ (hv ▸ hx)

theorem items_last (hs : trimStart s = s) (hb : Blank b) (hclose : isSpace close = false)
    (hcomma : ',' ≠ close) (hitem : item s x (b ++ close :: r)) : Items item close s [x] r :=
  .last (by rwa [hs]) (not_mem_head?_trimStart hb hclose hcomma) (leaves_closing?_append hb hclose)

theorem items_more (hs : trimStart s = s) (hv : Blank v) (hb : Blank b)
    (hitem : item s x (v ++ ',' :: (b ++ w))) (hitems : Items item close w xs r) :
    Items item close s (x :: xs) r :=
  .more (by rwa [hs]) (leaves_between?_append hv hb rfl)
    (items_congr (trimStart_trimStart w).symm hitems)

end

/-- No field starts with the mark that closes a table. -/
theorem not_readsField_brace (s : Text) (f : Text × TypeExpr) (r : Text) :
    ¬ ReadsField ('}' :: s) f r := by
  intro h
  obtain ⟨v, w, hkey, -⟩ := h
  rcases hkey with ⟨_, _, hv, -⟩ | hname
  · cases hv
  · rw [ident?_cons_of_not_isNameStart (by decide)] at hname
    exact not_reads_none hname

theorem enclosed_fields {fs : List (Text × TypeExpr)} (h : Items ReadsField '}' s fs r) :
    Enclosed ReadsField '}' s fs r :=
  .inr ⟨h.not_mem_head? not_readsField_brace, h⟩

/-- No parameter starts with the mark that closes the parameters. -/
theorem not_readsParam_paren (s : Text) (p : Text × TypeExpr) (r : Text) :
    ¬ ReadsParam (')' :: s) p r := by
  intro h
  obtain ⟨v, hname, -⟩ := h
  obtain ⟨hn, hs⟩ := paramName_of_reads hname
  obtain ⟨c, w, hcw, hc⟩ := hn.exists_cons
  rw [hcw] at hs
  obtain rfl := (List.cons.inj hs).1
  exact absurd hc (by decide)

theorem enclosed_params {ps : List (Text × TypeExpr)} (h : Items ReadsParam ')' s ps r) :
    Enclosed ReadsParam ')' s ps r :=
  .inr ⟨h.not_mem_head? not_readsParam_paren, h⟩

/-! ### Primary types -/

theorem primaryStep_quoted (hw : Quoted w) : PrimaryStep (w ++ r) (literal w) r := by
  cases hw with
  | @mk q v hquote hinside =>
    have hstring := PrimaryStep.string hquote (reads_string?_append (r := r) hinside)
    simpa using hstring

theorem primaryStep_number (hw : Number w) (hr : Boundary r) :
    PrimaryStep (w ++ r) (literal w) r := by
  have hread : Reads (number? (w ++ r)) (literal w) r := by
    refine reads_number?_append hw fun c hc => ?_
    by_contra hnumeral
    have hdotted := isDottedChar_of_isNumeral ((Bool.not_eq_false _).mp hnumeral)
    exact absurd hdotted (by simp [(hr c hc).1])
  cases hw with
  | unsigned hstart _ => exact .number (.inl hstart) hread
  | negative _ _ => exact .number (.inr rfl) hread

theorem primaryStep_name (hn : Ident n) (hr : Boundary r) : PrimaryStep (n ++ r) (ofName n) r :=
  .named (reads_ident?_append hn fun c hc => (hr c hc).1)
    (.name (fun h => (hr _ h).2.1 rfl) fun h => absurd rfl (hr _ h).2.2)

theorem primaryStep_container {ts : List TypeExpr} (hn : Ident n)
    (hts : Items ReadsType '>' s ts r) : PrimaryStep (n ++ '<' :: s) (.container n ts) r := by
  have hangle : ∀ c ∈ ('<' :: s).head?, isDottedChar c = false := by
    simp [isDottedChar, isNameChar, isNameStart, isLatinLetter, isDigit]
  exact .named (reads_ident?_append hn hangle) (.container hts)

/-- The word `fun` with a list in parentheses reads as a function, and a result may follow. -/
theorem primaryStep_function {ps : List (Text × TypeExpr)} (h : Enclosed ReadsParam ')' s ps r) :
    PrimaryStep ("fun(".toList ++ s) (.function ps (result r).1) (result r).2.1 := by
  have hn : Ident "fun".toList := ident_of_all rfl rfl (by decide)
  have hread : Reads (ident? ("fun".toList ++ '(' :: s)) "fun".toList ('(' :: s) :=
    reads_ident?_append hn (by simp [isDottedChar, isNameChar, isNameStart, isLatinLetter, isDigit])
  exact .named hread (.function rfl h)

end LuaDocs.TypeExpr
