import LuaDocs.Proofs.Declaration.Entry
import LuaDocs.Proofs.Declaration.Naming

/-!
# Heads of declarations

The head of a declaration is all of it up to the parenthesis that opens its parameters: some blanks, perhaps the
word `local`, and then a function statement or an assignment of a function. `Opening` is its written form, and
every head in this form is read, whatever follows it. The words `local` and `function` are names as well, to
which a function may be assigned; what stands behind such a name tells the two readings apart.
-/

namespace LuaDocs.Signature

open Text Tag TypeExpr

variable {b b' b'' g n s r t w : Text} {c : Char} {inside : Char → Bool} {head : Head} {assigned : Bool}

/-! ### Words -/

/-- A letter or `_`, and then characters of one kind. -/
inductive IsName (inside : Char → Bool) : Text → Prop
  | mk {c : Char} {v : Text} (hstart : isNameStart c) (hinside : ∀ d ∈ v, inside d) : IsName inside (c :: v)

theorem not_isMethodChar_of_isBlank (h : isBlank c = true) : isMethodChar c = false := by
  rw [isBlank, Bool.or_eq_true, beq_iff_eq, beq_iff_eq] at h
  rcases h with rfl | rfl <;> rfl

theorem not_isDottedChar_of_isBlank (h : isBlank c = true) : isDottedChar c = false :=
  not_isDottedChar_of_isSpace (isSpace_of_isBlank h)

theorem IsName.unblank (hn : IsName inside n) (s : Text) : Unblank (n ++ s) := by
  obtain ⟨hstart, -⟩ := hn
  refine unblank_cons ?_
  by_contra hblank
  have hmethod := not_isMethodChar_of_isBlank ((Bool.not_eq_false _).mp hblank)
  rw [isMethodChar_of_isNameStart hstart] at hmethod
  cases hmethod

theorem IsName.not_mem (hn : IsName inside n) (hstart : isNameStart c = false) (hinside : inside c = false) :
    c ∉ n := by
  obtain ⟨hd, hv⟩ := hn
  intro h
  rcases List.mem_cons.1 h with rfl | h
  · rw [hstart] at hd
    cases hd
  · rw [hv c h] at hinside
    cases hinside

theorem IsName.name?_append (hn : IsName inside n) (hr : ∀ c ∈ r.head?, inside c = false) :
    name? inside (n ++ r) = some (n, r) := by
  obtain ⟨hstart, hinside⟩ := hn
  exact Tag.name?_append hstart hinside hr

/-- Where blanks end a name, so does the mark behind them. -/
theorem not_inside_head?_append (hblank : ∀ c, isBlank c = true → inside c = false) (hb : Blanks b)
    (hc : inside c = false) : ∀ d ∈ (b ++ c :: s).head?, inside d = false := by
  cases b with
  | nil => exact forall_head?_cons hc
  | cons e v => exact forall_head?_cons (hblank e (hb e List.mem_cons_self))

/-! ### Statements and assignments -/

/-- The written form of a head without `local`, the name that it declares, and whether it is an assignment. -/
inductive Form : Text → Text → Bool → Prop
  | statement {g n b : Text} (hg : Blanks g) (hne : g ≠ []) (hn : IsName isMethodChar n) (hb : Blanks b) :
      Form ("function".toList ++ (g ++ (n ++ (b ++ ['('])))) n false
  | assignment {n b b' b'' : Text} (hn : IsName isDottedChar n) (hb : Blanks b) (hb' : Blanks b')
      (hb'' : Blanks b'') :
      Form (n ++ (b ++ '=' :: (b' ++ ("function".toList ++ (b'' ++ ['(']))))) n true

theorem statement?_append (hg : Blanks g) (hne : g ≠ []) (hn : IsName isMethodChar n) (hb : Blanks b)
    (r : Text) : statement? ("function".toList ++ (g ++ (n ++ (b ++ '(' :: r)))) = some (n, r) := by
  have hname : name? isMethodChar (n ++ (b ++ '(' :: r)) = some (n, b ++ '(' :: r) :=
    hn.name?_append (not_inside_head?_append (fun _ => not_isMethodChar_of_isBlank) hb rfl)
  have hparen : after? ['('] (skipBlanks (b ++ '(' :: r)) = some r := by
    rw [skipBlanks_append hb (unblank_cons rfl)]
    exact after?_append ['('] r
  simp only [statement?, after?_append, Option.bind_eq_bind, Option.bind_some,
    someBlanks?_append hg hne (hn.unblank _), hname, hparen]
  rfl

theorem assignment?_append (hn : IsName isDottedChar n) (hb : Blanks b) (hb' : Blanks b') (hb'' : Blanks b'')
    (r : Text) :
    assignment? (n ++ (b ++ '=' :: (b' ++ ("function".toList ++ (b'' ++ '(' :: r))))) = some (n, r) := by
  let code := b' ++ ("function".toList ++ (b'' ++ '(' :: r))
  have hname : name? isDottedChar (n ++ (b ++ '=' :: code)) = some (n, b ++ '=' :: code) :=
    hn.name?_append (not_inside_head?_append (fun _ => not_isDottedChar_of_isBlank) hb rfl)
  have hequals : after? ['='] (skipBlanks (b ++ '=' :: code)) = some code := by
    rw [skipBlanks_append hb (unblank_cons rfl)]
    exact after?_append ['='] code
  have hword : after? "function".toList (skipBlanks code) = some (b'' ++ '(' :: r) := by
    have hskip : skipBlanks code = "function".toList ++ (b'' ++ '(' :: r) :=
      skipBlanks_append hb' (unblank_cons rfl)
    rw [hskip, after?_append]
  have hparen : after? ['('] (skipBlanks (b'' ++ '(' :: r)) = some r := by
    rw [skipBlanks_append hb'' (unblank_cons rfl)]
    exact after?_append ['('] r
  have hread : assignment? (n ++ (b ++ '=' :: code)) = some (n, r) := by
    simp only [assignment?, hname, hequals, hword, hparen, Option.bind_eq_bind, Option.bind_some]
    rfl
  exact hread

/-! ### Words that are names -/

/-- A word in front of a name that something is assigned to is the name itself if blanks follow it, so it is
followed by the sign of the assignment. -/
theorem eq_of_afterWord (hw : ∀ d ∈ w, isDottedChar d) (hn : IsName isDottedChar n) (hb : Blanks b)
    (h : (after? w (n ++ (b ++ '=' :: r))).bind someBlanks? = some s) : s = '=' :: r := by
  have hname : ∀ d ∈ n, isDottedChar d := by
    obtain ⟨hstart, hinside⟩ := hn
    exact List.forall_mem_cons.2 ⟨isDottedChar_of_isNameStart hstart, hinside⟩
  rw [afterWord_append hw hname (not_inside_head?_append (fun _ => not_isDottedChar_of_isBlank) hb rfl)] at h
  split at h
  · cases b with
    | nil => cases h
    | cons c v =>
      rw [someBlanks?_append hb (List.cons_ne_nil c v) (unblank_cons rfl)] at h
      exact (Option.some.inj h).symm
  · cases h

theorem statement?_assignment (hn : IsName isDottedChar n) (hb : Blanks b) (r : Text) :
    statement? (n ++ (b ++ '=' :: r)) = none := by
  have hsplit (s : Text) : statement? s =
      ((after? "function".toList s).bind someBlanks?).bind fun s =>
        (name? isMethodChar s).bind fun p =>
          (after? ['('] (skipBlanks p.2)).bind fun s => some (p.1, s) := by
    rw [statement?, Option.bind_assoc]
    rfl
  rw [hsplit]
  cases hword : (after? "function".toList (n ++ (b ++ '=' :: r))).bind someBlanks? with
  | none => rfl
  | some s =>
    obtain rfl := eq_of_afterWord (List.all_eq_true.1 rfl) hn hb hword
    rfl

/-! ### Heads -/

inductive Opening : Text → Head → Prop
  | outer {b s n : Text} {assigned : Bool} (hb : Blanks b) (hs : Form s n assigned) :
      Opening (b ++ s) ⟨n, false, assigned⟩
  | inner {b g s n : Text} {assigned : Bool} (hb : Blanks b) (hg : Blanks g) (hne : g ≠ [])
      (hs : Form s n assigned) : Opening (b ++ ("local".toList ++ (g ++ s))) ⟨n, true, assigned⟩

theorem Form.unblank (h : Form s n assigned) (r : Text) : Unblank (s ++ r) := by
  cases h with
  | statement => exact unblank_cons rfl
  | assignment hn =>
    rw [List.append_assoc]
    exact hn.unblank _

/-- The last character of a head opens the list of parameters, and none of a head starts a comment. -/
theorem Form.written (h : Form s n assigned) : (∃ v, s = v ++ ['(']) ∧ '-' ∉ s := by
  cases h with
  | @statement g n b hg hne hn hb =>
    refine ⟨⟨"function".toList ++ (g ++ (n ++ b)), by simp⟩, ?_⟩
    have hname : '-' ∉ n := hn.not_mem (by decide) (by decide)
    simp [hg.not_dash, hname, hb.not_dash]
  | @assignment n b b' b'' hn hb hb' hb'' =>
    refine ⟨⟨n ++ (b ++ '=' :: (b' ++ ("function".toList ++ b''))), by simp⟩, ?_⟩
    have hname : '-' ∉ n := hn.not_mem (by decide) (by decide)
    simp [hname, hb.not_dash, hb'.not_dash, hb''.not_dash]

theorem Opening.written (h : Opening s head) : (∃ v, s = v ++ ['(']) ∧ '-' ∉ s := by
  cases h with
  | @outer b _ _ _ hb hs =>
    obtain ⟨⟨v, rfl⟩, hdash⟩ := hs.written
    exact ⟨⟨b ++ v, by simp⟩, by simpa [hb.not_dash] using hdash⟩
  | @inner b g _ _ _ hb hg hne hs =>
    obtain ⟨⟨v, rfl⟩, hdash⟩ := hs.written
    exact ⟨⟨b ++ ("local".toList ++ (g ++ v)), by simp⟩, by simpa [hb.not_dash, hg.not_dash] using hdash⟩

theorem Form.statement?_append (h : Form s n assigned) (r : Text) :
    statement? (s ++ r) = if assigned then none else some (n, r) := by
  cases h with
  | statement hg hne hn hb =>
    have hread := Signature.statement?_append hg hne hn hb r
    simpa [List.append_assoc] using hread
  | assignment hn hb hb' hb'' =>
    simp only [List.append_assoc, List.cons_append, if_pos]
    exact statement?_assignment hn hb _

theorem Form.assignment?_append (h : Form s n true) (r : Text) : assignment? (s ++ r) = some (n, r) := by
  cases h with
  | assignment hn hb hb' hb'' =>
    simp only [List.append_assoc, List.cons_append, List.nil_append]
    exact Signature.assignment?_append hn hb hb' hb'' r

/-- What starts without `local` goes on with no declaration behind that word. -/
theorem Form.none_of_afterLocal? (h : Form s n assigned) (ht : afterLocal? (s ++ r) = some t) :
    statement? t = none ∧ assignment? t = none := by
  cases h with
  | statement => cases ht
  | assignment hn hb =>
    rw [List.append_assoc, List.append_assoc] at ht
    obtain rfl := eq_of_afterWord (List.all_eq_true.1 rfl) hn hb ht
    exact ⟨rfl, rfl⟩

/-- Every head is read, whatever follows it. -/
theorem Opening.head?_append (h : Opening s head) (r : Text) : head? (s ++ r) = some (head, r) := by
  cases h with
  | @outer _ s _ assigned hb hs =>
    have hstatement : (afterLocal? (s ++ r)).bind statement? = none :=
      Option.bind_eq_none_iff.2 fun _ ht => (hs.none_of_afterLocal? ht).1
    have hassignment : (afterLocal? (s ++ r)).bind assignment? = none :=
      Option.bind_eq_none_iff.2 fun _ ht => (hs.none_of_afterLocal? ht).2
    rw [head?, List.append_assoc, skipBlanks_append hb (hs.unblank r), hstatement, hassignment,
      hs.statement?_append]
    cases assigned with
    | false => rfl
    | true =>
      rw [hs.assignment?_append]
      rfl
  | @inner _ g s _ assigned hb hg hne hs =>
    have hlocal : afterLocal? ("local".toList ++ (g ++ (s ++ r))) = some (s ++ r) := by
      rw [afterLocal?, after?_append, Option.bind_some, someBlanks?_append hg hne (hs.unblank r)]
    have hskip : skipBlanks (_ ++ ("local".toList ++ (g ++ (s ++ r)))) = _ :=
      skipBlanks_append hb (unblank_cons rfl)
    have hword : statement? ("local".toList ++ (g ++ (s ++ r))) = none := rfl
    rw [head?, List.append_assoc, List.append_assoc, List.append_assoc, hskip, hlocal, Option.bind_some,
      Option.bind_some, hword, hs.statement?_append]
    cases assigned with
    | false => rfl
    | true =>
      rw [hs.assignment?_append]
      rfl

end LuaDocs.Signature
