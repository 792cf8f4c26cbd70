import LuaDocs.Proofs.Render.Escaping

/-!
# Names in tags

What cannot stand in a tag is written by its code, and so is the percent sign that opens a code, so a tag
holds no marks and no white space. A code has two digits or four, and nothing closes it. The code of a space
opens the codes of other white space: behind it, two zeros make it that of U+2000. No other code opens
another, so two names have one tag exactly if they are spelled alike once such white space is spelled with a
space.
-/

namespace LuaDocs.Help

open Text

variable {s t : Text} {c d : Char}

def codeDigits (c : Char) : Text :=
  (ofNatHex c.toNat).map Char.toUpper

/-- White space whose code has four digits and begins with that of a space: U+2000 to U+200A, U+2028, U+2029,
U+202F and U+205F. -/
def isLongSpace (c : Char) : Bool :=
  isSpace c && c.toNat / 0x100 == ' '.toNat

/-- A text with a space and the last two digits of its code in the place of each such character. -/
def spelled (s : Text) : Text :=
  s.flatMap fun c => if isLongSpace c then ' ' :: (codeDigits c).drop 2 else [c]

/-! ### Codes -/

def coded : List Char :=
  [0x25, 0x2a, 0x7c, 0x09, 0x0a, 0x0b, 0x0c, 0x0d, 0x20, 0x85, 0xa0, 0x1680, 0x2000, 0x2001, 0x2002,
    0x2003, 0x2004, 0x2005, 0x2006, 0x2007, 0x2008, 0x2009, 0x200a, 0x2028, 0x2029, 0x202f, 0x205f,
    0x3000].map Char.ofNat

theorem mem_coded (h : needsCode c = true) : c ∈ coded := by
  refine List.mem_map.2 ⟨c.toNat, ?_, Char.ofNat_toNat c⟩
  simp only [needsCode, Bool.or_eq_true, beq_iff_eq] at h
  rcases h with ((rfl | rfl) | rfl) | h
  · decide
  · decide
  · decide
  · simp only [isSpace, Bool.or_eq_true, Bool.and_eq_true, decide_eq_true_eq, beq_iff_eq] at h
    simp only [List.mem_cons, List.not_mem_nil, or_false]
    omega

theorem mem_coded_of_isLongSpace (h : isLongSpace c = true) : c ∈ coded := by
  rw [isLongSpace, Bool.and_eq_true] at h
  exact mem_coded (by rw [needsCode, h.1, Bool.or_true])

/-- Only the code of a space opens another. -/
theorem eq_of_codeDigits_opens (hc : c ∈ coded) (hd : d ∈ coded)
    (h : codeDigits c <+: codeDigits d) : c = d ∨ isLongSpace d = true := by
  have hcodes : (coded.all fun c => coded.all fun d =>
      !(codeDigits c).isPrefixOf (codeDigits d) || c == d || isLongSpace d) = true := by
    decide +kernel
  have hpair := List.all_eq_true.1 (List.all_eq_true.1 hcodes c hc) d hd
  rw [List.isPrefixOf_iff_prefix.2 h] at hpair
  simpa using hpair

/-- The tag of a long space is that of a space with two plain characters behind it. -/
theorem escapeTag_spelling (h : isLongSpace c = true) :
    escapeTag (' ' :: (codeDigits c).drop 2) = escapeTag [c] ∧
      ∀ d ∈ ' ' :: (codeDigits c).drop 2, isLongSpace d = false := by
  have hspaces : (coded.all fun c => !isLongSpace c ||
      escapeTag (' ' :: (codeDigits c).drop 2) == escapeTag [c] &&
        (' ' :: (codeDigits c).drop 2).all (!isLongSpace ·)) = true := by
    decide +kernel
  have hspace := List.all_eq_true.1 hspaces c (mem_coded_of_isLongSpace h)
  rw [h, Bool.not_true, Bool.false_or, Bool.and_eq_true, beq_iff_eq, List.all_eq_true] at hspace
  exact ⟨hspace.1, fun d hd => by simpa using hspace.2 d hd⟩

/-! ### Tags -/

theorem escapeTag_append (s t : Text) : escapeTag (s ++ t) = escapeTag s ++ escapeTag t :=
  List.flatMap_append

theorem escapeTag_cons (c : Char) (s : Text) : escapeTag (c :: s) = escapeTag [c] ++ escapeTag s :=
  escapeTag_append [c] s

theorem escapeTag_of_needsCode (h : needsCode c = true) : escapeTag [c] = '%' :: codeDigits c := by
  simp [escapeTag, h, codeDigits]

theorem escapeTag_of_not_needsCode (h : needsCode c = false) : escapeTag [c] = [c] := by
  simp [escapeTag, h]

theorem escapeTag_ne_nil (c : Char) : escapeTag [c] ≠ [] := by
  cases h : needsCode c with
  | false => simp [escapeTag_of_not_needsCode h]
  | true => simp [escapeTag_of_needsCode h]

theorem eq_of_escapeTag_opens (hd : isLongSpace d = false) (h : escapeTag [c] <+: escapeTag [d]) :
    c = d := by
  cases hc : needsCode c with
  | false =>
    rw [escapeTag_of_not_needsCode hc] at h
    cases hcode : needsCode d with
    | false =>
      rw [escapeTag_of_not_needsCode hcode] at h
      exact (List.cons_prefix_cons.1 h).1
    | true =>
      rw [escapeTag_of_needsCode hcode] at h
      obtain rfl := (List.cons_prefix_cons.1 h).1
      cases hc
  | true =>
    rw [escapeTag_of_needsCode hc] at h
    cases hcode : needsCode d with
    | false =>
      rw [escapeTag_of_not_needsCode hcode] at h
      obtain rfl := (List.cons_prefix_cons.1 h).1
      cases hcode
    | true =>
      rw [escapeTag_of_needsCode hcode] at h
      have hcodes := eq_of_codeDigits_opens (mem_coded hc) (mem_coded hcode)
        (List.cons_prefix_cons.1 h).2
      simpa [hd] using hcodes

/-- Names without long spaces are read back from their tags. -/
theorem eq_of_escapeTag_eq (hs : ∀ c ∈ s, isLongSpace c = false) (ht : ∀ c ∈ t, isLongSpace c = false)
    (h : escapeTag s = escapeTag t) : s = t := by
  induction s generalizing t with
  | nil =>
    cases t with
    | nil => rfl
    | cons d t =>
      rw [escapeTag_cons] at h
      exact absurd (List.append_eq_nil_iff.1 h.symm).1 (escapeTag_ne_nil d)
  | cons c s ih =>
    cases t with
    | nil =>
      rw [escapeTag_cons] at h
      exact absurd (List.append_eq_nil_iff.1 h).1 (escapeTag_ne_nil c)
    | cons d t =>
      obtain ⟨hc, hs'⟩ := List.forall_mem_cons.1 hs
      obtain ⟨hd, ht'⟩ := List.forall_mem_cons.1 ht
      rw [escapeTag_cons, escapeTag_cons d] at h
      have hprefix : escapeTag [c] <+: escapeTag [d] ++ escapeTag t := h ▸ List.prefix_append _ _
      obtain rfl : c = d := by
        rcases List.prefix_or_prefix_of_prefix hprefix (List.prefix_append _ _) with hcd | hdc
        · exact eq_of_escapeTag_opens hd hcd
        · exact (eq_of_escapeTag_opens hc hdc).symm
      have hst : s = t := ih hs' ht' (List.append_cancel_left h)
      rw [hst]

theorem spelled_cons (c : Char) (s : Text) : spelled (c :: s) = spelled [c] ++ spelled s := by
  simp [spelled]

theorem spelled_of_isLongSpace (h : isLongSpace c = true) :
    spelled [c] = ' ' :: (codeDigits c).drop 2 := by
  simp [spelled, h]

theorem spelled_eq_self (h : ∀ c ∈ s, isLongSpace c = false) : spelled s = s := by
  induction s with
  | nil => rfl
  | cons c s ih =>
    obtain ⟨hc, hs⟩ := List.forall_mem_cons.1 h
    have hsingle : spelled [c] = [c] := by simp [spelled, hc]
    rw [spelled_cons, hsingle, ih hs, List.singleton_append]

/-- Spelling a text out changes no tag. -/
theorem escapeTag_spelled (s : Text) : escapeTag (spelled s) = escapeTag s := by
  induction s with
  | nil => rfl
  | cons c s ih =>
    rw [spelled_cons, escapeTag_append, ih, escapeTag_cons]
    congr 1
    cases hc : isLongSpace c with
    | false => rw [spelled_eq_self (List.forall_mem_singleton.2 hc)]
    | true =>
      rw [spelled_of_isLongSpace hc]
      exact (escapeTag_spelling hc).1

theorem not_isLongSpace_of_mem_spelled (h : d ∈ spelled s) : isLongSpace d = false := by
  obtain ⟨c, -, hd⟩ := List.mem_flatMap.1 h
  split at hd
  · next hc => exact (escapeTag_spelling hc).2 d hd
  · next hc =>
    obtain rfl := List.mem_singleton.1 hd
    simpa using hc

/-- A tag holds no marks and no white space, and two names have one tag if and only if they are spelled
alike; so names without long spaces have different tags. -/
theorem escapeTag_eq_iff (s t : Text) :
    (∀ c ∈ escapeTag s, c ≠ '*' ∧ c ≠ '|' ∧ isSpace c = false) ∧
      (escapeTag s = escapeTag t ↔ spelled s = spelled t) ∧
      ((∀ c ∈ s ++ t, isLongSpace c = false) → s ≠ t → escapeTag s ≠ escapeTag t) := by
  refine ⟨fun c hc => ?_, ⟨fun h => ?_, fun h => ?_⟩, fun hlong hne h => ?_⟩
  · obtain ⟨hmark, hspace⟩ := mem_escapeTag hc
    rw [isMark, Bool.or_eq_false_iff, beq_eq_false_iff_ne, beq_eq_false_iff_ne] at hmark
    exact ⟨hmark.1, hmark.2, hspace⟩
  · rw [← escapeTag_spelled s, ← escapeTag_spelled t] at h
    exact eq_of_escapeTag_eq (fun _ => not_isLongSpace_of_mem_spelled)
      (fun _ => not_isLongSpace_of_mem_spelled) h
  · rw [← escapeTag_spelled s, h, escapeTag_spelled]
  · obtain ⟨hs, ht⟩ := List.forall_mem_append.1 hlong
    exact hne (eq_of_escapeTag_eq hs ht h)

/-- A space with two zeros behind it has the tag of U+2000. -/
theorem escapeTag_space_zeros :
    " 00".toList ≠ [Char.ofNat 0x2000] ∧ escapeTag " 00".toList = "%2000".toList ∧
      escapeTag [Char.ofNat 0x2000] = "%2000".toList := by
  decide

end LuaDocs.Help
