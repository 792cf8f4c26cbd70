import LuaDocs.Proofs.TypeExpr.Words

/-!
# Shapes of types

`Formed joined` says of a type that its words are of the right kind and its lists of the right
length, at every depth, and leaves open which lists of alternatives may be joined to a union. Two
readings of it matter. `WellFormed` asks for two alternatives and is what reading a type gives;
`Canonical` asks in addition that the union could not be written as it is in another way, and is
what printing gives back.

A key in brackets is kept as text, so the types that a table's keys print are no parts of the
table. The constructor for tables takes them as a list beside the fields.
-/

namespace LuaDocs.TypeExpr

open Text

variable {joined joined' : List TypeExpr → Prop} {t : TypeExpr} {fs : List (Text × TypeExpr)}
  {n : Text}

def bracketed (t : TypeExpr) : Text :=
  '[' :: t.print ++ [']']

/-- A type whose words are of the right kind and whose unions are joined as `joined` says. -/
inductive Formed (joined : List TypeExpr → Prop) : TypeExpr → Prop
  | builtin (b : Builtin) : Formed joined (.builtin b)
  | named {n : Text} (hname : Ident n) (hbuiltin : Builtin.ofName? n = none)
      (htrue : n ≠ "true".toList) (hfalse : n ≠ "false".toList) : Formed joined (.named n)
  | truth {n : Text} (hname : n = "true".toList ∨ n = "false".toList) :
      Formed joined (.literal n)
  | number {w : Text} (hw : Number w) : Formed joined (.literal w)
  | quoted {w : Text} (hw : Quoted w) : Formed joined (.literal w)
  | array {t : TypeExpr} (ht : Formed joined t) : Formed joined (.array t)
  | optional {t : TypeExpr} (ht : Formed joined t) : Formed joined (.optional t)
  | union {ts : List TypeExpr} (hjoined : joined ts) (hts : ∀ t ∈ ts, Formed joined t) :
      Formed joined (.union ts)
  | container {n : Text} {ts : List TypeExpr} (hname : Ident n) (hne : ts ≠ [])
      (hts : ∀ t ∈ ts, Formed joined t) : Formed joined (.container n ts)
  | function {ps : List (Text × TypeExpr)} {rs : List TypeExpr} (hnames : ∀ p ∈ ps, ParamName p.1)
      (hps : ∀ p ∈ ps, Formed joined p.2) (hlength : rs.length ≤ 1)
      (hrs : ∀ t ∈ rs, Formed joined t) : Formed joined (.function ps rs)
  | table {fs : List (Text × TypeExpr)} {ks : List TypeExpr}
      (hkeys : ∀ f ∈ fs, Ident f.1 ∨ ∃ k ∈ ks, f.1 = bracketed k)
      (hks : ∀ k ∈ ks, Formed joined k) (hfs : ∀ f ∈ fs, Formed joined f.2) :
      Formed joined (.table fs)

/-- The keys of a table are names or bracketed types of the same kind. -/
theorem formed_table_iff : Formed joined (.table fs) ↔
    ∀ f ∈ fs, (Ident f.1 ∨ ∃ k, Formed joined k ∧ f.1 = bracketed k) ∧ Formed joined f.2 := by
  constructor
  · intro h f hf
    cases h with
    | table hkeys hks hfs =>
      refine ⟨(hkeys f hf).imp_right ?_, hfs f hf⟩
      intro hkey
      obtain ⟨k, hk, hfk⟩ := hkey
      exact ⟨k, hks k hk, hfk⟩
  · intro h
    have hkeys : ∃ ks : List TypeExpr, (∀ k ∈ ks, Formed joined k) ∧
        ∀ f ∈ fs, Ident f.1 ∨ ∃ k ∈ ks, f.1 = bracketed k := by
      induction fs with
      | nil => exact ⟨[], nofun, nofun⟩
      | cons f fs ih =>
        obtain ⟨ks, hks, hfs⟩ := ih fun g hg => h g (List.mem_cons_of_mem f hg)
        rcases (h f List.mem_cons_self).1 with hname | ⟨k, hk, hfk⟩
        · exact ⟨ks, hks, List.forall_mem_cons.2 ⟨.inl hname, hfs⟩⟩
        · refine ⟨k :: ks, List.forall_mem_cons.2 ⟨hk, hks⟩, List.forall_mem_cons.2 ⟨?_, ?_⟩⟩
          · exact .inr ⟨k, List.mem_cons_self, hfk⟩
          · intro g hg
            refine (hfs g hg).imp_right ?_
            intro hkey
            obtain ⟨l, hl, hgl⟩ := hkey
            exact ⟨l, List.mem_cons_of_mem k hl, hgl⟩
    obtain ⟨ks, hks, hkeys⟩ := hkeys
    exact .table hkeys hks fun f hf => (h f hf).2

theorem Formed.mono (h : ∀ ts, joined ts → joined' ts) (ht : Formed joined t) :
    Formed joined' t := by
  induction ht with
  | builtin b => exact .builtin b
  | named hname hbuiltin htrue hfalse => exact .named hname hbuiltin htrue hfalse
  | truth hname => exact .truth hname
  | number hw => exact .number hw
  | quoted hw => exact .quoted hw
  | array _ ih => exact .array ih
  | optional _ ih => exact .optional ih
  | union hjoined _ ih => exact .union (h _ hjoined) ih
  | container hname hne _ ih => exact .container hname hne ih
  | function hnames _ hlength _ ihps ihrs => exact .function hnames ihps hlength ihrs
  | table hkeys _ _ ihks ihfs => exact .table hkeys ihks ihfs

def isUnion : TypeExpr → Bool
  | .union _ => true
  | _ => false

def hasResult : TypeExpr → Bool
  | .function _ (_ :: _) => true
  | _ => false

def Several (ts : List TypeExpr) : Prop :=
  2 ≤ ts.length

/-- At least two alternatives, none of them a union and none but the last a function with a
result. -/
def Separate (ts : List TypeExpr) : Prop :=
  2 ≤ ts.length ∧ (∀ t ∈ ts, t.isUnion = false) ∧ ∀ t ∈ ts.dropLast, t.hasResult = false

/-- The shape of the types that are read. -/
def WellFormed (t : TypeExpr) : Prop :=
  Formed Several t

/-- The shape of the types that are read back as they were printed. -/
def Canonical (t : TypeExpr) : Prop :=
  Formed Separate t

/-! ### Names as types -/

theorem ofName_of_ofName?_eq_none (hbuiltin : Builtin.ofName? n = none)
    (htrue : n ≠ "true".toList) (hfalse : n ≠ "false".toList) : ofName n = .named n := by
  rw [ofName, if_neg (by simpa using ⟨htrue, hfalse⟩), hbuiltin]

theorem ident_builtin_name (b : Builtin) : Ident b.name := by
  cases b <;> exact ident_of_all rfl rfl (by decide)

theorem ofName_builtin_name (b : Builtin) : ofName b.name = .builtin b := by
  cases b <;> rfl

theorem ident_truth (hname : n = "true".toList ∨ n = "false".toList) : Ident n := by
  rcases hname with rfl | rfl <;> exact ident_of_all rfl rfl (by decide)

theorem ofName_truth (hname : n = "true".toList ∨ n = "false".toList) :
    ofName n = .literal n := by
  rcases hname with rfl | rfl <;> rfl

theorem formed_ofName (hname : Ident n) : Formed joined (ofName n) := by
  by_cases htruth : n = "true".toList ∨ n = "false".toList
  · rw [ofName_truth htruth]
    exact .truth htruth
  · obtain ⟨htrue, hfalse⟩ := not_or.1 htruth
    cases hbuiltin : Builtin.ofName? n with
    | none =>
      rw [ofName_of_ofName?_eq_none hbuiltin htrue hfalse]
      exact .named hname hbuiltin htrue hfalse
    | some b =>
      rw [ofName, if_neg (by simpa using ⟨htrue, hfalse⟩), hbuiltin]
      exact .builtin b

end LuaDocs.TypeExpr
