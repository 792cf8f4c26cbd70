import LuaDocs.Proofs.Files.Locating
import LuaDocs.Proofs.Text.Lines
import Mathlib.Data.List.Induction

/-!
# Paths in parts

A path below a directory is walked along in two parts: its first steps lead to the directory, and the
others lead on from there. Steps lead to one place at most, and to the same place over more links.
-/

namespace LuaDocs.FileSystem

open Text

variable {fs : FileSystem} {access : Access} {n m : Nat} {d e : Position} {parts before after : List Text}
  {place place' : Place} {step : Text} {rest : List Text}

theorem GoesDown.target (h : GoesDown .target step rest) (rest' : List Text) :
    GoesDown .target step rest' :=
  ⟨h.named, h.notUp, rfl, h.short⟩

theorem Leads.mono (h : Leads fs access n d parts place) (hn : n ≤ m) :
    Leads fs access m d parts place := by
  induction h generalizing m with
  | here => exact .here
  | idle hmay hidle _ ih => exact .idle hmay hidle (ih hn)
  | up hmay hidle hup _ ih => exact .up hmay hidle hup (ih hn)
  | absent hmay hdown hentry => exact .absent hmay hdown hentry
  | file hmay hdown hentry => exact .file hmay hdown hentry
  | link hmay hdown haccess hentry => exact .link hmay hdown haccess hentry
  | into hmay hdown hentry _ ih => exact .into hmay hdown hentry (ih hn)
  | follow hmay hdown hentry hgoes _ ih =>
    obtain ⟨m, rfl⟩ : ∃ k, m = k + 1 := ⟨m - 1, by omega⟩
    exact .follow hmay hdown hentry hgoes (ih (by omega))

/-- Steps lead to one place at most. -/
theorem Leads.unique (h : Leads fs access n d parts place) (h' : Leads fs access m d parts place') :
    place = place' := by
  have hmax := walkLinks_eq_ok_iff.2 (h.mono (Nat.le_max_left n m))
  have hmax' := walkLinks_eq_ok_iff.2 (h'.mono (Nat.le_max_right n m))
  cases hmax.symm.trans hmax'
  rfl

/-- Steps that come before others lead to a directory, and the others lead on from there. -/
theorem Leads.split (h : Leads fs .target n d parts place) (hparts : parts = before ++ after)
    (hafter : after ≠ []) :
    ∃ m e, m ≤ n ∧ Leads fs .target n d before (.found e .directory) ∧
      Leads fs .target m e after place := by
  -- At a link the steps of its target come in front, so the part that is to be split off grows.
  induction h generalizing before with
  | here => exact absurd (List.append_eq_nil_iff.1 hparts.symm).2 hafter
  | @idle n d step rest _ hmay hidle hrest ih =>
    cases before with
    | nil =>
      obtain rfl : step :: rest = after := hparts
      exact ⟨n, d, Nat.le_refl n, .here, .idle hmay hidle hrest⟩
    | cons step' before =>
      obtain ⟨rfl, hrest'⟩ := List.cons.inj hparts
      obtain ⟨m, e, hm, hbefore, hlead⟩ := ih hrest'
      exact ⟨m, e, hm, .idle hmay hidle hbefore, hlead⟩
  | @up n d step rest _ hmay hidle hup hrest ih =>
    cases before with
    | nil =>
      obtain rfl : step :: rest = after := hparts
      exact ⟨n, d, Nat.le_refl n, .here, .up hmay hidle hup hrest⟩
    | cons step' before =>
      obtain ⟨rfl, hrest'⟩ := List.cons.inj hparts
      obtain ⟨m, e, hm, hbefore, hlead⟩ := ih hrest'
      exact ⟨m, e, hm, .up hmay hidle hup hbefore, hlead⟩
  | @absent n d step hmay hdown hentry =>
    cases before with
    | nil =>
      obtain rfl : [step] = after := hparts
      exact ⟨n, d, Nat.le_refl n, .here, .absent hmay hdown hentry⟩
    | cons step' before =>
      exact absurd (List.append_eq_nil_iff.1 (List.cons.inj hparts).2.symm).2 hafter
  | @file n d step c hmay hdown hentry =>
    cases before with
    | nil =>
      obtain rfl : [step] = after := hparts
      exact ⟨n, d, Nat.le_refl n, .here, .file hmay hdown hentry⟩
    | cons step' before =>
      exact absurd (List.append_eq_nil_iff.1 (List.cons.inj hparts).2.symm).2 hafter
  | link _ _ haccess _ => cases haccess
  | @into n d step rest _ hmay hdown hentry hrest ih =>
    cases before with
    | nil =>
      obtain rfl : step :: rest = after := hparts
      exact ⟨n, d, Nat.le_refl n, .here, .into hmay hdown hentry hrest⟩
    | cons step' before =>
      obtain ⟨rfl, hrest'⟩ := List.cons.inj hparts
      obtain ⟨m, e, hm, hbefore, hlead⟩ := ih hrest'
      exact ⟨m, e, hm, .into hmay (hdown.target before) hentry hbefore, hlead⟩
  | @follow n d step rest target _ hmay hdown hentry hgoes hrest ih =>
    cases before with
    | nil =>
      obtain rfl : step :: rest = after := hparts
      exact ⟨n + 1, d, Nat.le_refl _, .here, .follow hmay hdown hentry hgoes hrest⟩
    | cons step' before =>
      obtain ⟨rfl, rfl⟩ := List.cons.inj hparts
      obtain ⟨m, e, hm, hbefore, hlead⟩ := ih (List.append_assoc _ _ _).symm
      exact ⟨m, e, by omega, .follow hmay (hdown.target before) hentry (by simp) hbefore, hlead⟩

/-- Steps that lead on from a directory lead there behind the steps to the directory. -/
theorem Leads.append (h : Leads fs .target n d before (.found e .directory))
    (hafter : Leads fs .target m e after place) :
    Leads fs .target (n + m) d (before ++ after) place := by
  generalize hplace : Place.found e .directory = found at h
  induction h with
  | here =>
    cases hplace
    exact hafter.mono (Nat.le_add_left _ _)
  | idle hmay hidle _ ih => exact .idle hmay hidle (ih hplace)
  | up hmay hidle hup _ ih => exact .up hmay hidle hup (ih hplace)
  | absent | file | link => cases hplace
  | into hmay hdown hentry _ ih => exact .into hmay (hdown.target _) hentry (ih hplace)
  | @follow n _ _ rest _ _ hmay hdown hentry _ _ ih =>
    have hrest := ih hplace
    rw [List.append_assoc] at hrest
    rw [Nat.add_right_comm]
    exact .follow hmay (hdown.target _) hentry (by simp) hrest

/-! ### Names below a directory -/

/-- A text that can be the name of an entry. -/
def IsName (name : Text) : Prop :=
  name ≠ [] ∧ name ≠ ['.'] ∧ name ≠ Position.up ∧ '/' ∉ name

instance (name : Text) : Decidable (IsName name) :=
  inferInstanceAs (Decidable (_ ∧ _ ∧ _ ∧ _))

def namedParts (p : Path) : List Text :=
  (splitOn '/' p).filter (!·.isEmpty)

theorem steps_eq (p : Path) : steps p = namedParts p ∨ steps p = namedParts p ++ [[]] := by
  rw [steps]
  split
  · exact .inr rfl
  · exact .inl rfl

variable {name : Text} {names : List Text} {base root : Path}

namespace IsName

theorem isIdle_eq_false (h : IsName name) : (name.isEmpty || name == ['.']) = false := by
  rw [Bool.or_eq_false_iff, List.isEmpty_eq_false_iff, beq_eq_false_iff_ne]
  exact ⟨h.1, h.2.1⟩

theorem component?_eq (h : IsName name) : Path.component? name = some (.name name) := by
  rw [Path.component?, Path.isIdle, h.isIdle_eq_false, if_neg Bool.false_ne_true]
  exact if_neg (mt beq_iff_eq.1 h.2.2.1)

/-- A path to a name in a directory: a slash at the end of the path to the directory is not repeated. -/
theorem join_eq (h : IsName name) (hbase : base ≠ []) :
    ∃ front, (base = front ∨ base = front ++ ['/']) ∧ base.join name = front ++ '/' :: name := by
  obtain ⟨c, rest, rfl⟩ := List.exists_cons_of_ne_nil h.1
  have hc : '/' ≠ c := fun hc => h.2.2.2 (hc ▸ List.mem_cons_self)
  have hprefix : ['/'].isPrefixOf (c :: rest) = false := by simp [List.isPrefixOf, hc]
  rw [Path.join, hprefix, Bool.false_or, List.isEmpty_eq_false_iff.2 hbase,
    if_neg Bool.false_ne_true]
  by_cases hslash : endsWith ['/'] base = true
  · obtain ⟨front, rfl⟩ : ∃ front, base = front ++ ['/'] :=
      List.getLast?_eq_some_iff.1 (endsWith_iff.1 hslash)
    exact ⟨front, .inr rfl, by rw [if_pos hslash, List.append_assoc]; rfl⟩
  · exact ⟨base, .inl rfl, by rw [if_neg hslash]⟩

theorem splitOn_join_eq (h : IsName name) (hbase : base ≠ []) :
    ∃ parts, (splitOn '/' base = parts ∨ splitOn '/' base = parts ++ [[]]) ∧
      splitOn '/' (base.join name) = parts ++ [name] := by
  obtain ⟨front, hfront, hjoin⟩ := h.join_eq hbase
  refine ⟨splitOn '/' front, ?_, ?_⟩
  · obtain rfl | rfl := hfront
    · exact .inl rfl
    · exact .inr (splitOn_append_cons '/' front [])
  · rw [hjoin, splitOn_append_cons, splitOn_of_not_mem h.2.2.2]

theorem namedParts_join (h : IsName name) (hbase : base ≠ []) :
    namedParts (base.join name) = namedParts base ++ [name] := by
  obtain ⟨parts, hparts, hjoin⟩ := h.splitOn_join_eq hbase
  rw [namedParts, namedParts, hjoin]
  obtain hparts | hparts := hparts <;> simp [hparts, List.filter_append, h.1]

theorem endsWith_join (h : IsName name) (hbase : base ≠ []) :
    endsWith ['/'] (base.join name) = false := by
  obtain ⟨front, -, hjoin⟩ := h.join_eq hbase
  have happend : front ++ '/' :: name = (front ++ ['/']) ++ name := by simp
  rw [← Bool.not_eq_true, endsWith_iff, hjoin, happend, List.getLast?_append_of_ne_nil _ h.1]
  exact fun hlast => h.2.2.2 (List.mem_of_getLast? hlast)

theorem join_ne_nil (h : IsName name) (hbase : base ≠ []) : base.join name ≠ [] := by
  obtain ⟨front, -, hjoin⟩ := h.join_eq hbase
  simp [hjoin]

theorem components_join (h : IsName name) (hbase : base ≠ []) :
    Path.components (base.join name) = Path.components base ++ [.name name] := by
  obtain ⟨parts, hparts, hjoin⟩ := h.splitOn_join_eq hbase
  have hsplit : base = join ['/'] (splitOn '/' base) := (join_splitOn '/' base).symm
  rw [Path.components, Path.components, hjoin]
  obtain hparts | hparts := hparts
  · rw [hparts]
    cases parts with
    | nil => exact absurd hparts (splitOn_ne_nil _ _)
    | cons first rest =>
      have hfirst : first = [] → rest ≠ [] := by
        rintro rfl rfl
        rw [hparts] at hsplit
        exact hbase hsplit
      by_cases hempty : first = []
      · simp [hempty, hfirst hempty, h.component?_eq]
      · simp [hempty, h.component?_eq]
  · rw [hparts]
    cases parts with
    | nil =>
      rw [hparts] at hsplit
      exact absurd hsplit hbase
    | cons first rest =>
      have hnone : Path.component? [] = none := rfl
      simp [h.component?_eq, hnone]

end IsName

theorem below_append_singleton (root : Path) (names : List Text) (name : Text) :
    root.below (names ++ [name]) = (root.below names).join name :=
  List.foldl_concat ..

theorem below_ne_nil (hroot : root ≠ []) (h : ∀ name ∈ names, IsName name) : root.below names ≠ [] := by
  induction names using List.reverseRecOn with
  | nil => exact hroot
  | append_singleton names name ih =>
    obtain ⟨hnames, hname⟩ := List.forall_mem_append.1 h
    rw [below_append_singleton]
    exact (hname name (List.mem_singleton_self name)).join_ne_nil (ih hnames)

/-- A path to names below a directory has the named parts of the path to the directory, and then the
names. -/
theorem namedParts_below (hroot : root ≠ []) (h : ∀ name ∈ names, IsName name) :
    namedParts (root.below names) = namedParts root ++ names := by
  induction names using List.reverseRecOn with
  | nil => exact (List.append_nil _).symm
  | append_singleton names name ih =>
    obtain ⟨hnames, hname⟩ := List.forall_mem_append.1 h
    rw [below_append_singleton, (hname name (List.mem_singleton_self name)).namedParts_join
      (below_ne_nil hroot hnames), ih hnames, List.append_assoc]

theorem steps_below (hroot : root ≠ []) (hnames : names ≠ []) (h : ∀ name ∈ names, IsName name) :
    steps (root.below names) = namedParts root ++ names := by
  have hend : endsWith ['/'] (root.below names) = false := by
    obtain ⟨front, name, rfl⟩ := List.eq_nil_or_concat' names |>.resolve_left hnames
    obtain ⟨hfront, hname⟩ := List.forall_mem_append.1 h
    rw [below_append_singleton]
    exact (hname name (List.mem_singleton_self name)).endsWith_join (below_ne_nil hroot hfront)
  rw [steps, hend, Bool.false_and, if_neg Bool.false_ne_true]
  exact namedParts_below hroot h

theorem components_below (hroot : root ≠ []) (h : ∀ name ∈ names, IsName name) :
    Path.components (root.below names) =
      Path.components root ++ names.map Path.Component.name := by
  induction names using List.reverseRecOn with
  | nil => exact (List.append_nil _).symm
  | append_singleton names name ih =>
    obtain ⟨hnames, hname⟩ := List.forall_mem_append.1 h
    rw [below_append_singleton, (hname name (List.mem_singleton_self name)).components_join
      (below_ne_nil hroot hnames), ih hnames, List.append_assoc, List.map_append]
    rfl

theorem components_join (hnames : names ≠ []) (h : ∀ name ∈ names, IsName name) :
    Path.components (join ['/'] names) = names.map Path.Component.name := by
  obtain ⟨first, rest, rfl⟩ := List.exists_cons_of_ne_nil hnames
  obtain ⟨hfirst, hrest⟩ := List.forall_mem_cons.1 h
  have hcomponents : rest.filterMap Path.component? = rest.map Path.Component.name := by
    rw [← List.filterMap_eq_map]
    exact List.filterMap_congr fun name hname => (hrest name hname).component?_eq
  rw [Path.components, splitOn_join (fun name hname => (h name hname).2.2.2) hnames]
  simp [hfirst.1, hfirst.2.1, hfirst.component?_eq, hcomponents]

/-- Seen from a directory, a path to names below it is these names. -/
theorem relativeTo_below (hroot : root ≠ []) (h : ∀ name ∈ names, IsName name) :
    root.relativeTo (root.below names) = join ['/'] names := by
  rw [Path.relativeTo, components_below hroot h, List.isPrefixOf?_eq_some_iff_append_eq.2 rfl,
    Option.getD_some, List.map_map]
  exact congrArg _ (List.map_id names)

theorem join_injOn {names' : List Text} (h : ∀ name ∈ names, IsName name)
    (h' : ∀ name ∈ names', IsName name) (hne : names ≠ []) (hne' : names' ≠ [])
    (heq : join ['/'] names = join ['/'] names') : names = names' := by
  rw [← splitOn_join (fun name hname => (h name hname).2.2.2) hne, heq,
    splitOn_join (fun name hname => (h' name hname).2.2.2) hne']

theorem origin_below (hroot : root ≠ []) (h : ∀ name ∈ names, IsName name) (d : Position) :
    origin d (root.below names) = origin d root := by
  induction names using List.reverseRecOn with
  | nil => rfl
  | append_singleton names name ih =>
    obtain ⟨hnames, hname⟩ := List.forall_mem_append.1 h
    have hne := below_ne_nil hroot hnames
    obtain ⟨front, hfront, hjoin⟩ := (hname name (List.mem_singleton_self name)).join_eq hne
    rw [below_append_singleton, ← ih hnames, hjoin, origin, origin]
    cases front <;> obtain hfront | hfront := hfront <;> simp_all

end LuaDocs.FileSystem
