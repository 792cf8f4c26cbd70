import LuaDocs.Proofs.TypeExpr.Grammar
import LuaDocs.Proofs.TypeExpr.Naming

/-!
# Shapes of types, node by node

`WellFormed` follows the type from the root down. Resolving, printing and asking for optional values
look at one node at a time, so the same is said here of the nodes: a type is well formed if and only
if every one of its parts is `Regular`, which is a condition on the part itself and the keys it
holds. No declared name is ever read, since names are matched to declarations after reading.
-/

namespace LuaDocs.TypeExpr

open Text

variable {s r : Text} {t u : TypeExpr}

/-- The condition on a single node. The types that the keys of a table print are not among its
parts, so they are asked to be well formed as a whole. -/
def Regular : TypeExpr → Prop
  | builtin _ => True
  | named n => Ident n ∧ Builtin.ofName? n = none ∧ n ≠ "true".toList ∧ n ≠ "false".toList
  | declared _ => False
  | literal w => (w = "true".toList ∨ w = "false".toList) ∨ Number w ∨ Quoted w
  | array _ => True
  | optional _ => True
  | union ts => 2 ≤ ts.length
  | container n ts => Ident n ∧ ts ≠ []
  | function ps rs => (∀ p ∈ ps, ParamName p.1) ∧ rs.length ≤ 1
  | table fs => ∀ f ∈ fs, Ident f.1 ∨ ∃ k, WellFormed k ∧ f.1 = bracketed k

theorem WellFormed.regular (h : WellFormed t) : t.Regular := by
  cases h with
  | builtin b => exact trivial
  | named hname hbuiltin htrue hfalse => exact ⟨hname, hbuiltin, htrue, hfalse⟩
  | truth hname => exact .inl hname
  | number hw => exact .inr (.inl hw)
  | quoted hw => exact .inr (.inr hw)
  | array _ => exact trivial
  | optional _ => exact trivial
  | union hjoined _ => exact hjoined
  | container hname hne _ => exact ⟨hname, hne⟩
  | function hnames _ hlength _ => exact ⟨hnames, hlength⟩
  | table hkeys hks _ =>
    intro f hf
    refine (hkeys f hf).imp_right ?_
    intro hkey
    obtain ⟨k, hk, hfk⟩ := hkey
    exact ⟨k, hks k hk, hfk⟩

/-- A part of a well-formed type is well formed. -/
theorem WellFormed.of_inside (h : WellFormed t) (hu : u.Inside t) : WellFormed u := by
  induction hu with
  | whole => exact h
  | element _ ih =>
    cases h with
    | array ht => exact ih ht
  | value _ ih =>
    cases h with
    | optional ht => exact ih ht
  | alternative ht _ ih =>
    cases h with
    | union _ hts => exact ih (hts _ ht)
  | argument ht _ ih =>
    cases h with
    | container _ _ hts => exact ih (hts _ ht)
  | param hp _ ih =>
    cases h with
    | function _ hps _ _ => exact ih (hps _ hp)
  | result ht _ ih =>
    cases h with
    | function _ _ _ hrs => exact ih (hrs _ ht)
  | field hf _ ih =>
    cases h with
    | table _ _ hfs => exact ih (hfs _ hf)

theorem wellFormed_of_regular (h : ∀ u : TypeExpr, u.Inside t → u.Regular) : WellFormed t := by
  have hwhole := h t .whole
  induction t using inductionOnParts with
  | builtin b => exact .builtin b
  | named n =>
    obtain ⟨hname, hbuiltin, htrue, hfalse⟩ := hwhole
    exact .named hname hbuiltin htrue hfalse
  | declared n => exact hwhole.elim
  | literal w =>
    rcases hwhole with htruth | hw | hw
    · exact .truth htruth
    · exact .number hw
    · exact .quoted hw
  | array t ih =>
    have ht : ∀ u : TypeExpr, u.Inside t → u.Regular := fun u hu => h u (.element hu)
    exact .array (ih ht (ht t .whole))
  | optional t ih =>
    have ht : ∀ u : TypeExpr, u.Inside t → u.Regular := fun u hu => h u (.value hu)
    exact .optional (ih ht (ht t .whole))
  | union ts ih =>
    refine .union hwhole fun t ht => ?_
    have htin : ∀ u : TypeExpr, u.Inside t → u.Regular := fun u hu => h u (.alternative ht hu)
    exact ih t ht htin (htin t .whole)
  | container n ts ih =>
    refine .container hwhole.1 hwhole.2 fun t ht => ?_
    have htin : ∀ u : TypeExpr, u.Inside t → u.Regular := fun u hu => h u (.argument ht hu)
    exact ih t ht htin (htin t .whole)
  | function ps rs ihps ihrs =>
    refine .function hwhole.1 (fun p hp => ?_) hwhole.2 fun t ht => ?_
    · have hpin : ∀ u : TypeExpr, u.Inside p.2 → u.Regular := fun u hu => h u (.param hp hu)
      exact ihps p hp hpin (hpin p.2 .whole)
    · have htin : ∀ u : TypeExpr, u.Inside t → u.Regular := fun u hu => h u (.result ht hu)
      exact ihrs t ht htin (htin t .whole)
  | table fs ih =>
    refine formed_table_iff.2 fun f hf => ⟨hwhole f hf, ?_⟩
    have hfin : ∀ u : TypeExpr, u.Inside f.2 → u.Regular := fun u hu => h u (.field hf hu)
    exact ih f hf hfin (hfin f.2 .whole)

theorem wellFormed_iff : WellFormed t ↔ ∀ u ∈ t.subterms, u.Regular := by
  constructor
  · intro h u hu
    exact (h.of_inside (mem_subterms_iff.1 hu)).regular
  · intro h
    refine wellFormed_of_regular fun u hu => ?_
    exact h u (mem_subterms_iff.2 hu)

/-- What opens a text is a type whose parts are all regular, or the first word where no type is
read. -/
theorem leading?_nodes (s : Text) : (leading? s = none ∧ Blank s) ∨
    ∃ t r, Reads (leading? s) t r ∧
      ((Reads (union? (trimStart s)) t r ∧ ∀ u ∈ t.subterms, u.Regular) ∨
        ((∀ u v, ¬ Reads (union? (trimStart s)) u v) ∧
          t = .named ((trimStart s).takeWhile (!isSpace ·)))) := by
  cases h : leading? s with
  | none => exact .inl ⟨rfl, leading?_eq_none_iff.1 h⟩
  | some p =>
    refine .inr ⟨p.1, p.2.1, .of_eq_some rfl, ?_⟩
    rcases reads_leading?.1 (.of_eq_some h) with hunion | ⟨hnone, -, hword, -⟩
    · exact .inl ⟨hunion, wellFormed_iff.1 (union_sound hunion).2⟩
    · exact .inr ⟨hnone, hword.symm⟩

end LuaDocs.TypeExpr
