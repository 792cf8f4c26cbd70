import LuaDocs.Files.SortedWalk
import LuaDocs.Proofs.Files.Steps
import Mathlib.Data.List.Nodup
import Mathlib.Data.List.Perm.Subperm
import Mathlib.Logic.Relation

/-!
# What a walk comes upon

A walk lists each file once, under the names that lead to it from the root of the walk, and where
directories do not hold each other in a circle it misses none below directories that can be listed. That
is what `LawfulWalker` says, and the walk in the order of names is shown to be lawful. Its depth is enough,
since the directories that it is inside of are different ones and each of them has an entry in the walk.
-/

namespace LuaDocs

namespace FileSystem

variable {fs : FileSystem} {d e p : Position} {n m depth : Nat} {name : Text}
  {names front rest : List Text} {level : WalkLevel} {outer : List WalkLevel} {content : Content}
  {entry : Entry} {path q root : Path}

/-! ### Trees of entries -/

/-- A file system whose entries have names and stand at different positions. -/
structure IsTree (fs : FileSystem) : Prop where
  nodup : (fs.entries.map Prod.fst).Nodup
  named : ∀ e ∈ fs.entries, ∃ name ∈ e.1.getLast?, IsName name

/-- A directory has an entry that is another one or a link to it. -/
def Holds (fs : FileSystem) (d e : Position) : Prop :=
  ∃ name, IsName name ∧ Leads fs .target maxLinks d [name] (.found e .directory)

/-- No directory holds itself, be it through others. -/
def NoCycles (fs : FileSystem) : Prop :=
  ∀ d, ¬Relation.TransGen (Holds fs) d d

theorem childName?_eq_some_iff : childName? d p = some name ↔ p = d ++ [name] := by
  rw [childName?]
  constructor
  · intro h
    split at h
    · next hfront =>
      obtain rfl := Option.some.inj h
      exact (List.isPrefixOf?_eq_some_iff_append_eq.1 hfront).symm
    · cases h
  · rintro rfl
    rw [List.isPrefixOf?_eq_some_iff_append_eq.2 rfl]

theorem mem_children : name ∈ fs.children d ↔ ∃ entry, (d ++ [name], entry) ∈ fs.entries := by
  rw [children, List.mem_mergeSort, List.mem_filterMap]
  constructor
  · rintro ⟨⟨p, entry⟩, hmem, hchild⟩
    obtain rfl := childName?_eq_some_iff.1 hchild
    exact ⟨entry, hmem⟩
  · rintro ⟨entry, hmem⟩
    exact ⟨_, hmem, childName?_eq_some_iff.2 rfl⟩

theorem mem_children_of_entry? (h : fs.entry? (d ++ [name]) = some entry) :
    name ∈ fs.children d := by
  rw [entry?_of_ne_nil (by simp)] at h
  obtain ⟨before, after, heq, -⟩ := List.lookup_eq_some_iff.1 h
  exact mem_children.2 ⟨entry, heq ▸ List.mem_append_right before List.mem_cons_self⟩

namespace IsTree

theorem isName (h : IsTree fs) (hmem : name ∈ fs.children d) : IsName name := by
  obtain ⟨entry, hentry⟩ := mem_children.1 hmem
  obtain ⟨name', hlast, hname⟩ := h.named _ hentry
  obtain rfl : name = name' := by simpa using hlast
  exact hname

theorem nodup_children (h : IsTree fs) (d : Position) : (fs.children d).Nodup := by
  have hentries : (fs.entries.map Prod.fst |>.filterMap (childName? d)).Nodup := by
    refine List.Nodup.filterMap (fun p p' name hp hp' => ?_) h.nodup
    rw [childName?_eq_some_iff.1 hp, childName?_eq_some_iff.1 hp']
  rw [List.filterMap_map] at hentries
  exact ((List.mergeSort_perm _ _).nodup_iff).2 hentries

end IsTree

/-! ### Walks that keep to their word -/

/-- Every directory on the way from a root along some names can be listed. -/
def Passable (fs : FileSystem) (root : Path) (names : List Text) : Prop :=
  ∀ n < names.length, fs.canList (root.below (names.take n)) = true

instance (fs : FileSystem) (root : Path) (names : List Text) : Decidable (Passable fs root names) :=
  inferInstanceAs (Decidable (∀ n < names.length, _))

/-- The paths of the files that a walk comes upon. -/
def listed (found : List (Except WalkFault WalkEntry)) : List Path :=
  found.filterMap fun
    | .ok ⟨path, true⟩ => some path
    | _ => none

/-- What a walk below a root comes upon: files with names below the root, each of them once, and all that
it can get to. Only a root that cannot be listed is passed over at depth zero. -/
structure Lists (fs : FileSystem) (root : Path) (found : List (Except WalkFault WalkEntry)) : Prop where
  nodup : (listed found).Nodup
  below : ∀ path ∈ listed found, ∃ names, names ≠ [] ∧ (∀ name ∈ names, IsName name) ∧
    path = root.below names
  mem_iff : ∀ names, names ≠ [] → (∀ name ∈ names, IsName name) →
    fs.isFile (root.below names) = true → (root.below names ∈ listed found ↔ Passable fs root names)
  root_iff : (∃ fault, .error fault ∈ found ∧ fault.depth = 0) ↔ fs.canList root = false

/-- A walker whose walks below the directories of a tree without cycles come upon what they should. -/
class LawfulWalker [Walker] : Prop where
  lists (fs : FileSystem) (root : Path) (htree : IsTree fs) (hacyclic : NoCycles fs)
    (hroot : fs.isDirectory root = true) : Lists fs root (Walker.walk fs root)

/-! ### Directories on the way -/

theorem isDirectory_of_canList (h : fs.canList root = true) : fs.isDirectory root = true := by
  obtain ⟨d, hd, -⟩ := (Option.any_eq_true _ _).1 h
  rw [isDirectory, hd]
  rfl

def Listable (fs : FileSystem) (d : Position) (names : List Text) : Prop :=
  ∀ front rest n e, names = front ++ rest → rest ≠ [] →
    Leads fs .target n d front (.found e .directory) → fs.may .read e = true

theorem Listable.may_read (h : Listable fs d names) (hnames : names ≠ []) : fs.may .read d = true :=
  h [] names 0 d rfl hnames .here

theorem listable_singleton : Listable fs d [name] ↔ fs.may .read d = true := by
  refine ⟨fun h => h.may_read (List.cons_ne_nil name []), fun h front rest n e heq hrest hleads => ?_⟩
  obtain ⟨rfl, -⟩ : front = [] ∧ rest = [name] := by
    cases front with
    | nil => exact ⟨rfl, heq.symm⟩
    | cons _ front => exact absurd (List.append_eq_nil_iff.1 (List.cons.inj heq).2.symm).2 hrest
  cases hleads
  exact h

theorem listable_cons (h : Leads fs .target n d [name] (.found e .directory)) (hrest : rest ≠ []) :
    Listable fs d (name :: rest) ↔ fs.may .read d = true ∧ Listable fs e rest := by
  constructor
  · intro hlist
    refine ⟨hlist.may_read (List.cons_ne_nil name rest), fun front back m e' heq hback hleads => ?_⟩
    exact hlist (name :: front) back (n + m) e' (congrArg _ heq) hback (h.append hleads)
  · rintro ⟨hd, he⟩ front back m e' heq hback hleads
    cases front with
    | nil =>
      cases hleads
      exact hd
    | cons name' front =>
      obtain ⟨rfl, rfl⟩ := List.cons.inj heq
      cases front with
      | nil =>
        cases h.unique hleads
        exact he.may_read hrest
      | cons next front =>
        obtain ⟨k, e'', -, hbefore, hafter⟩ :=
          hleads.split (List.singleton_append (x := name)).symm (List.cons_ne_nil next front)
        cases h.unique hbefore
        exact he _ back k e' rfl hback hafter

theorem byteLength_append (s t : Text) : byteLength (s ++ t) = byteLength s + byteLength t := by
  have hfold (n : Nat) (t : Text) :
      t.foldl (fun n c => n + c.utf8Size) n = n + t.foldl (fun n c => n + c.utf8Size) 0 := by
    induction t generalizing n with
    | nil => rfl
    | cons c t ih =>
      rw [List.foldl_cons, List.foldl_cons, ih, ih (0 + _), Nat.zero_add, Nat.add_assoc]
  rw [byteLength, List.foldl_append, hfold]
  rfl

/-- The front of a path that leads somewhere is not refused. -/
theorem locate_of_isPrefix {access access' : Access} {place place' : Place} (hfront : q <+: path)
    (hq : q ≠ []) (h : fs.locate access path = .ok place)
    (hleads : Leads fs access' maxLinks (origin fs.here q) (steps q) place') :
    fs.locate access' q = .ok place' := by
  obtain ⟨back, rfl⟩ := hfront
  rw [locate] at h
  split at h
  · cases h
  next hnul =>
  split at h
  · cases h
  next hlong =>
  have hnul' : ¬q.contains '\x00' = true := by
    simp only [List.contains_iff_mem, List.mem_append, not_or] at hnul ⊢
    exact hnul.1
  have hlong' : ¬maxPath < byteLength q := by
    rw [byteLength_append] at hlong
    omega
  rw [locate, if_neg hnul', if_neg hlong', if_neg (by simpa using hq)]
  exact walkLinks_eq_ok_iff.2 hleads

theorem below_isPrefix (hroot : root ≠ []) (h : ∀ name ∈ front ++ rest, IsName name) :
    root.below front <+: root.below (front ++ rest) := by
  induction rest using List.reverseRecOn with
  | nil => simp
  | append_singleton rest name ih =>
    rw [← List.append_assoc] at h ⊢
    obtain ⟨hrest, hname⟩ := List.forall_mem_append.1 h
    obtain ⟨base, hbase, hjoin⟩ := (hname name (List.mem_singleton_self name)).join_eq
      (below_ne_nil hroot hrest)
    rw [below_append_singleton, hjoin]
    refine (ih hrest).trans ?_
    obtain hbase | hbase := hbase <;> rw [hbase]
    · exact List.prefix_append _ _
    · exact ⟨name, List.append_assoc _ _ _⟩

theorem leads_of_directory? (h : fs.directory? root = some d) :
    root ≠ [] ∧ Leads fs .target maxLinks (origin fs.here root) (namedParts root) (.found d .directory) := by
  have hloc : fs.locate .target root = .ok (.found d .directory) := by
    rw [directory?] at h
    split at h
    · next hloc =>
      obtain rfl := Option.some.inj h
      exact hloc
    · cases h
  refine ⟨?_, ?_⟩
  · rintro rfl
    cases hloc
  · have hleads := leads_of_locate hloc
    obtain hsteps | hsteps := steps_eq root
    · rwa [hsteps] at hleads
    · obtain ⟨m, e, -, hbefore, hslash⟩ := hleads.split hsteps (List.cons_ne_nil [] [])
      cases hslash.unique (m := m) (.idle rfl rfl .here)
      exact hbefore

/-- The names below a directory lead on from there. -/
theorem leads_below (hroot : fs.directory? root = some d) (hnames : names ≠ [])
    (hname : ∀ part ∈ names, IsName part) {place : Place}
    (h : fs.locate .target (root.below names) = .ok place) :
    ∃ m, m ≤ maxLinks ∧ Leads fs .target m d names place := by
  obtain ⟨hne, hdirectory⟩ := leads_of_directory? hroot
  have hleads := leads_of_locate h
  rw [origin_below hne hname] at hleads
  obtain ⟨m, e, hm, hbefore, hafter⟩ := hleads.split (steps_below hne hnames hname) hnames
  cases hbefore.unique hdirectory
  exact ⟨m, hm, hafter⟩

theorem locate_of_isFile (h : fs.isFile path = true) :
    ∃ p content, fs.locate .target path = .ok (.found p (.file content)) := by
  obtain ⟨content, hcontent⟩ := Option.isSome_iff_exists.1 h
  obtain ⟨p, hat, -⟩ := content?_eq_some_iff.1 hcontent
  obtain ⟨content', hloc⟩ := locate_of_fileAt? hat
  exact ⟨p, content', hloc⟩

/-- Where names lead to a file, the directories on the way are those of the paths in front. -/
theorem passable_iff (hroot : fs.directory? root = some d) (hnames : names ≠ [])
    (hname : ∀ part ∈ names, IsName part) (hfile : fs.isFile (root.below names) = true) :
    Passable fs root names ↔ Listable fs d names := by
  obtain ⟨hne, hdirectory⟩ := leads_of_directory? hroot
  obtain ⟨p, content, hloc⟩ := locate_of_isFile hfile
  have hcan : ∀ front rest, names = front ++ rest → rest ≠ [] → ∃ m e,
      fs.directory? (root.below front) = some e ∧ Leads fs .target m d front (.found e .directory) := by
    rintro front rest rfl hrest
    obtain ⟨hfront, -⟩ := List.forall_mem_append.1 hname
    by_cases hnil : front = []
    · subst hnil
      exact ⟨0, d, hroot, .here⟩
    have hleads := leads_of_locate hloc
    rw [origin_below hne hname, steps_below hne hnames hname, ← List.append_assoc] at hleads
    obtain ⟨m, e, -, hbefore, -⟩ := hleads.split rfl hrest
    rw [← steps_below hne hnil hfront, ← origin_below hne hfront] at hbefore
    have hloc' := locate_of_isPrefix (below_isPrefix hne hname) (below_ne_nil hne hfront) hloc hbefore
    obtain ⟨k, -, hlead⟩ := leads_below hroot hnil hfront hloc'
    exact ⟨k, e, by rw [directory?, hloc'], hlead⟩
  constructor
  · intro hpass front rest n e heq hrest hleads
    obtain ⟨m, e', he', hleads'⟩ := hcan front rest heq hrest
    have hshort : front.length < names.length := by
      rw [heq, List.length_append]
      exact Nat.lt_add_of_pos_right (List.length_pos_of_ne_nil hrest)
    have hlist := hpass front.length hshort
    rw [heq, List.take_left] at hlist
    cases hleads.unique hleads'
    rwa [canList, he', Option.any_some] at hlist
  · intro hlist n hn
    have heq := (List.take_append_drop n names).symm
    have hrest : names.drop n ≠ [] := mt List.drop_eq_nil_iff.1 (Nat.not_le_of_lt hn)
    obtain ⟨m, e, he, hleads⟩ := hcan _ _ heq hrest
    rw [canList, he, Option.any_some]
    exact hlist _ _ m e heq hrest hleads

/-! ### Looking at an entry -/

/-- A name that leads somewhere is that of an entry, and this is what it leads to. -/
theorem Leads.of_name (h : Leads fs .target n d [name] (.found p entry)) (hname : IsName name) :
    fs.may .search d = true ∧
      (fs.entry? (d ++ [name]) = some entry ∧ p = d ++ [name] ∧ (∀ target, entry ≠ .link target) ∨
        ∃ target, fs.entry? (d ++ [name]) = some (.link target)) := by
  have hidle' := hname.isIdle_eq_false
  have hup' : (name == Position.up) = false := beq_eq_false_iff_ne.2 hname.2.2.1
  have hsearch (hmay : fs.mayStep d name = true) : fs.may .search d = true := by
    simpa [mayStep, hname.1] using hmay
  cases h with
  | idle _ hidle _ => cases hidle'.symm.trans hidle
  | up _ _ hup _ => cases hup'.symm.trans hup
  | file hmay _ hentry => exact ⟨hsearch hmay, .inl ⟨hentry, rfl, nofun⟩⟩
  | link _ _ haccess _ => cases haccess
  | into hmay _ hentry hrest =>
    cases hrest
    exact ⟨hsearch hmay, .inl ⟨hentry, rfl, nofun⟩⟩
  | follow hmay _ hentry _ _ => exact ⟨hsearch hmay, .inr ⟨_, hentry⟩⟩

theorem Leads.mem_children (h : Leads fs .target n d [name] (.found p entry)) (hname : IsName name) :
    name ∈ fs.children d := by
  obtain ⟨-, ⟨hentry, -⟩ | ⟨target, hentry⟩⟩ := h.of_name hname <;>
    exact mem_children_of_entry? hentry

theorem look_file (hname : IsName name) (levels : List WalkLevel) (depth : Nat) (path : Path)
    (h : Leads fs .target maxLinks d [name] (.found p (.file content))) :
    fs.look levels d name depth path = .ok none := by
  rw [look]
  obtain ⟨-, ⟨hentry, -⟩ | ⟨target, hentry⟩⟩ := h.of_name hname
  · simp only [hentry]
  · simp only [hentry, walkLinks_eq_ok_iff.2 h]

theorem look_directory {levels : List WalkLevel} (hname : IsName name) (depth : Nat) (path : Path)
    (h : Leads fs .target maxLinks d [name] (.found e .directory)) (hread : fs.may .read e = true)
    (hlevels : ∀ level ∈ levels, level.position ≠ e) :
    fs.look levels d name depth path = .ok (some e) := by
  have hfind : levels.find? (·.position == e) = none := by
    simpa [List.find?_eq_none] using hlevels
  rw [look]
  obtain ⟨hsearch, ⟨hentry, rfl, -⟩ | ⟨target, hentry⟩⟩ := h.of_name hname
  · simp only [hentry, if_pos hsearch]
  · simp [hentry, walkLinks_eq_ok_iff.2 h, hfind, hread]

/-- A directory that is looked at is the one that the name leads to. -/
theorem eq_of_look {levels : List WalkLevel} (hname : IsName name)
    (hlook : fs.look levels d name depth path = .ok (some p))
    (h : Leads fs .target n d [name] (.found e .directory)) : p = e := by
  rw [look] at hlook
  obtain ⟨hsearch, ⟨hentry, rfl, -⟩ | ⟨target, hentry⟩⟩ := h.of_name hname
  · simp only [hentry, if_pos hsearch] at hlook
    cases hlook
    rfl
  · simp only [hentry] at hlook
    split at hlook
    · cases hlook
    · cases hlook
    · next hlinks =>
      cases h.unique (walkLinks_eq_ok_iff.1 hlinks)
      split at hlook
      · cases hlook
      · split at hlook
        · cases hlook
        · cases hlook
          rfl
    · cases hlook

theorem depth_of_look {levels : List WalkLevel} {fault : WalkFault}
    (h : fs.look levels d name depth path = .error fault) : fault.depth = depth := by
  rw [look] at h
  repeat' split at h
  all_goals cases h
  all_goals rfl

/-! ### The files of a walk -/

def filesIn (found : List WalkStep) : List (List Text) :=
  found.filterMap fun
    | .file names => some names
    | .fault _ => none

theorem filesIn_flatMap (names : List Text) (f : Text → List WalkStep) :
    filesIn (names.flatMap f) = names.flatMap fun name => filesIn (f name) :=
  List.filterMap_flatMap

def visit (fs : FileSystem) (depth : Nat) (level : WalkLevel) (outer : List WalkLevel) (name : Text) :
    List WalkStep :=
  match fs.look (level :: outer) level.position name (level.names ++ [name]).length
      (level.path.join name) with
  | .error fault => [.fault fault]
  | .ok none => [.file (level.names ++ [name])]
  | .ok (some position) =>
    fs.walkBelow depth ⟨position, level.path.join name, level.names ++ [name]⟩ (level :: outer)

theorem walkBelow_succ (h : fs.may .read level.position = true) :
    fs.walkBelow (depth + 1) level outer =
      (fs.children level.position).flatMap (fs.visit depth level outer) := by
  rw [walkBelow, if_pos h]
  rfl

theorem walkBelow_unlistable (h : fs.may .read level.position = false) :
    fs.walkBelow (depth + 1) level outer =
      [.fault (.ofAccess level.names.length level.path .permissionDenied)] := by
  rw [walkBelow, if_neg (Bool.eq_false_iff.1 h)]

theorem mem_filesIn_walkBelow :
    names ∈ filesIn (fs.walkBelow (depth + 1) level outer) ↔ fs.may .read level.position = true ∧
      ∃ name ∈ fs.children level.position, names ∈ filesIn (fs.visit depth level outer name) := by
  cases h : fs.may .read level.position with
  | false => simp [walkBelow_unlistable h, filesIn]
  | true => simp [walkBelow_succ h, filesIn_flatMap]

theorem mem_visit (htree : IsTree fs) (h : names ∈ filesIn (fs.visit depth level outer name)) :
    ∃ rest, (∀ part ∈ rest, IsName part) ∧ names = level.names ++ name :: rest := by
  induction depth generalizing level outer name names with
  | zero =>
    rw [visit] at h
    split at h
    · cases h
    · obtain rfl := List.mem_singleton.1 h
      exact ⟨[], nofun, rfl⟩
    · cases h
  | succ depth ih =>
    rw [visit] at h
    split at h
    · cases h
    · obtain rfl := List.mem_singleton.1 h
      exact ⟨[], nofun, rfl⟩
    · obtain ⟨-, child, hchild, h⟩ := mem_filesIn_walkBelow.1 h
      obtain ⟨rest, hrest, rfl⟩ := ih h
      refine ⟨child :: rest, List.forall_mem_cons.2 ⟨htree.isName hchild, hrest⟩, ?_⟩
      rw [List.append_assoc, List.singleton_append]

theorem isName_of_mem_walkBelow (htree : IsTree fs)
    (h : names ∈ filesIn (fs.walkBelow depth level outer)) :
    ∃ rest, rest ≠ [] ∧ (∀ part ∈ rest, IsName part) ∧ names = level.names ++ rest := by
  cases depth with
  | zero => cases h
  | succ depth =>
    obtain ⟨-, name, hname, h⟩ := mem_filesIn_walkBelow.1 h
    obtain ⟨rest, hrest, rfl⟩ := mem_visit htree h
    exact ⟨name :: rest, List.cons_ne_nil name rest,
      List.forall_mem_cons.2 ⟨htree.isName hname, hrest⟩, rfl⟩

/-- A walk comes upon each file once: files below different entries differ in the name of the entry. -/
theorem nodup_walkBelow (htree : IsTree fs) (depth : Nat) (level : WalkLevel)
    (outer : List WalkLevel) : (filesIn (fs.walkBelow depth level outer)).Nodup := by
  induction depth generalizing level outer with
  | zero => exact List.nodup_nil
  | succ depth ih =>
    cases hread : fs.may .read level.position with
    | false =>
      rw [walkBelow_unlistable hread]
      exact List.nodup_nil
    | true =>
      rw [walkBelow_succ hread, filesIn_flatMap, List.nodup_flatMap]
      constructor
      · intro name _
        rw [visit]
        split
        · exact List.nodup_nil
        · exact List.nodup_singleton _
        · exact ih _ _
      · refine (htree.nodup_children level.position).imp fun {name name'} hne names h h' => hne ?_
        obtain ⟨rest, -, rfl⟩ := mem_visit htree h
        obtain ⟨rest', -, heq⟩ := mem_visit htree h'
        exact (List.cons.inj (List.append_cancel_left heq)).1

/-- A walk comes upon a file only below directories that can be listed. -/
theorem listable_of_mem_walkBelow (htree : IsTree fs) (hne : names ≠ [])
    (h : level.names ++ names ∈ filesIn (fs.walkBelow depth level outer))
    (hleads : Leads fs .target n level.position names (.found p (.file content))) :
    Listable fs level.position names := by
  induction depth generalizing level outer names n with
  | zero => cases h
  | succ depth ih =>
    obtain ⟨hread, name, hname, h⟩ := mem_filesIn_walkBelow.1 h
    have hpart := htree.isName hname
    obtain ⟨rest, -, heq⟩ := mem_visit htree h
    obtain rfl : names = name :: rest := List.append_cancel_left heq
    cases rest with
    | nil => exact listable_singleton.2 hread
    | cons next rest =>
      obtain ⟨m, e, -, hbefore, hafter⟩ :=
        hleads.split (List.singleton_append (x := name)).symm (List.cons_ne_nil next rest)
      refine (listable_cons hbefore (List.cons_ne_nil next rest)).2 ⟨hread, ?_⟩
      rw [visit] at h
      split at h
      · cases h
      · simp [filesIn] at h
      · next position hlook =>
        obtain rfl := eq_of_look hpart hlook hbefore
        have hdeep : level.names ++ [name] ++ next :: rest ∈ filesIn (fs.walkBelow depth
            ⟨position, level.path.join name, level.names ++ [name]⟩ (level :: outer)) := by
          rw [List.append_assoc]
          exact h
        exact ih (List.cons_ne_nil next rest) hdeep hafter

/-! ### No file is missed -/

/-- Directories that a walk is inside of: they hold the innermost one, and they are different entries
with entries of their own. -/
structure Nested (fs : FileSystem) (level : WalkLevel) (outer : List WalkLevel) : Prop where
  holds : ∀ l ∈ outer, Relation.TransGen (Holds fs) l.position level.position
  nodup : (outer.map WalkLevel.position).Nodup
  entries : ∀ l ∈ outer, l.position ∈ fs.entries.map (·.1.dropLast)

namespace Nested

theorem ne (h : Nested fs level outer) (hacyclic : NoCycles fs) (hholds : Holds fs level.position e) :
    ∀ l ∈ level :: outer, l.position ≠ e := by
  intro l hl heq
  obtain rfl | hl := List.mem_cons.1 hl
  · exact hacyclic e (.single (heq ▸ hholds))
  · exact hacyclic e (.tail (heq ▸ h.holds l hl) hholds)

theorem push (h : Nested fs level outer) (hacyclic : NoCycles fs)
    (hholds : Holds fs level.position e) (path : Path) (names : List Text) :
    Nested fs ⟨e, path, names⟩ (level :: outer) where
  holds := List.forall_mem_cons.2 ⟨.single hholds, fun l hl => .tail (h.holds l hl) hholds⟩
  nodup := by
    rw [List.map_cons, List.nodup_cons]
    refine ⟨fun hmem => ?_, h.nodup⟩
    obtain ⟨l, hl, heq⟩ := List.mem_map.1 hmem
    exact hacyclic level.position (heq ▸ h.holds l hl)
  entries := by
    obtain ⟨name, hname, hleads⟩ := hholds
    obtain ⟨entry, hentry⟩ := FileSystem.mem_children.1 (hleads.mem_children hname)
    refine List.forall_mem_cons.2 ⟨List.mem_map.2 ⟨_, hentry, ?_⟩, h.entries⟩
    exact List.dropLast_concat

theorem length_le (h : Nested fs level outer) : outer.length ≤ fs.entries.length := by
  have hsubset : outer.map WalkLevel.position ⊆ fs.entries.map (·.1.dropLast) := by
    intro position hmem
    obtain ⟨l, hl, rfl⟩ := List.mem_map.1 hmem
    exact h.entries l hl
  simpa using h.nodup.length_le_of_subset hsubset

end Nested

theorem length_lt_maxDepth (fs : FileSystem) : fs.entries.length < fs.maxDepth := by
  have hsquare := Nat.le_mul_self (fs.entries.length + 2)
  rw [maxDepth]
  omega

theorem mem_walkBelow (hacyclic : NoCycles fs) (hnames : names ≠ []) (hname : ∀ part ∈ names, IsName part)
    (hleads : Leads fs .target n level.position names (.found p (.file content))) (hn : n ≤ maxLinks)
    (hlist : Listable fs level.position names) (hnested : Nested fs level outer)
    (hdepth : fs.maxDepth ≤ depth + outer.length) :
    level.names ++ names ∈ filesIn (fs.walkBelow depth level outer) := by
  -- On the names that are left: what a step takes off the depth it adds to the directories around it.
  induction names generalizing n level outer depth with
  | nil => exact absurd rfl hnames
  | cons name rest ih =>
    obtain ⟨hpart, hrest⟩ := List.forall_mem_cons.1 hname
    obtain ⟨depth, rfl⟩ : ∃ k, depth = k + 1 := by
      have hlength := hnested.length_le
      have hmax := fs.length_lt_maxDepth
      exact ⟨depth - 1, by omega⟩
    refine mem_filesIn_walkBelow.2 ⟨hlist.may_read hnames, name, ?_⟩
    by_cases hlast : rest = []
    · subst hlast
      have hleads := hleads.mono hn
      refine ⟨hleads.mem_children hpart, ?_⟩
      rw [visit, look_file hpart _ _ _ hleads]
      exact List.mem_singleton_self _
    · obtain ⟨m, e, hm, hbefore, hafter⟩ := hleads.split (List.singleton_append (x := name)).symm hlast
      have hleads' := hbefore.mono hn
      have hholds : Holds fs level.position e := ⟨name, hpart, hleads'⟩
      have hlist' := ((listable_cons hleads' hlast).1 hlist).2
      refine ⟨hleads'.mem_children hpart, ?_⟩
      rw [visit, look_directory hpart _ _ hleads' (hlist'.may_read hlast) (hnested.ne hacyclic hholds)]
      have hpush := hnested.push hacyclic hholds (level.path.join name) (level.names ++ [name])
      have hdepth' : fs.maxDepth ≤ depth + (level :: outer).length := by
        rw [List.length_cons]
        omega
      have hdeep := ih hlast hrest hafter (Nat.le_trans hm hn) hlist' hpush hdepth'
      rwa [List.append_assoc, List.singleton_append] at hdeep

/-- Whether what an entry leads to has a higher rank than the directory of the entry, if it is a
directory. -/
def ascends (fs : FileSystem) (rank : Position → Nat) (e : Position × Entry) : Bool :=
  match e.1.getLast? with
  | none => true
  | some name =>
    match fs.walkLinks .target maxLinks e.1.dropLast [name] with
    | .ok (.found position .directory) => rank e.1.dropLast < rank position
    | _ => true

/-- A rank of directories that rises with every entry leaves no room for a cycle. -/
theorem noCycles_of_ascends (rank : Position → Nat) (h : ∀ e ∈ fs.entries, ascends fs rank e = true) :
    NoCycles fs := by
  have hholds (d e : Position) (hde : Holds fs d e) : rank d < rank e := by
    obtain ⟨name, hname, hleads⟩ := hde
    obtain ⟨entry, hentry⟩ := mem_children.1 (hleads.mem_children hname)
    have hrank := h _ hentry
    simpa only [ascends, List.getLast?_concat, List.dropLast_concat, walkLinks_eq_ok_iff.2 hleads,
      decide_eq_true_iff] using hrank
  intro d hcycle
  have hrise : ∀ e, Relation.TransGen (Holds fs) d e → rank d < rank e := by
    intro e hde
    induction hde with
    | single hde => exact hholds _ _ hde
    | tail _ hde ih => exact Nat.lt_trans ih (hholds _ _ hde)
  exact Nat.lt_irrefl _ (hrise d hcycle)

/-! ### Faults -/

/-- A walk passes over entries below its directory, and over the directory if it cannot be listed. -/
theorem depth_of_mem_walkBelow {fault : WalkFault} (h : .fault fault ∈ fs.walkBelow depth level outer) :
    level.names.length ≤ fault.depth ∧
      (fs.may .read level.position = true → level.names.length < fault.depth) := by
  induction depth generalizing level outer with
  | zero => cases h
  | succ depth ih =>
    cases hread : fs.may .read level.position with
    | false =>
      rw [walkBelow_unlistable hread] at h
      cases List.mem_singleton.1 h
      exact ⟨Nat.le_refl _, nofun⟩
    | true =>
      rw [walkBelow_succ hread] at h
      obtain ⟨name, -, h⟩ := List.mem_flatMap.1 h
      have hdeep : level.names.length < fault.depth := by
        rw [visit] at h
        split at h
        · next hlook =>
          cases List.mem_singleton.1 h
          rw [depth_of_look hlook, List.length_append]
          exact Nat.lt_succ_self _
        · cases List.mem_singleton.1 h
        · have hle := (ih h).1
          rw [List.length_append] at hle
          exact hle
      exact ⟨Nat.le_of_lt hdeep, fun _ => hdeep⟩

end FileSystem

/-! ### The walk in the order of names -/

namespace Standard

open FileSystem

variable {root : Path} {names : List Text}

theorem listed_walk (fs : FileSystem) (root : Path) :
    listed (Walker.walk fs root) = (filesIn (fs.walkFrom root)).map root.below := by
  rw [Walker.walk, walker, listed, filesIn, List.filterMap_map, List.map_filterMap]
  refine List.filterMap_congr fun step _ => ?_
  cases step <;> rfl

theorem mem_walk {fs : FileSystem} {fault : WalkFault} :
    .error fault ∈ Walker.walk fs root ↔ .fault fault ∈ fs.walkFrom root := by
  rw [Walker.walk, walker, List.mem_map]
  constructor
  · rintro ⟨step, hmem, heq⟩
    cases step with
    | file names => cases heq
    | fault fault' =>
      cases heq
      exact hmem
  · exact fun h => ⟨_, h, rfl⟩

instance : LawfulWalker where
  lists fs root htree hacyclic hroot := by
    obtain ⟨d, hd⟩ := Option.isSome_iff_exists.1 hroot
    obtain ⟨hne, -⟩ := leads_of_directory? hd
    have hwalk : fs.walkFrom root = fs.walkBelow fs.maxDepth ⟨d, root, []⟩ [] := by
      rw [walkFrom, hd]
    have hisName : ∀ names ∈ filesIn (fs.walkFrom root),
        names ≠ [] ∧ ∀ part ∈ names, IsName part := by
      intro names h
      rw [hwalk] at h
      obtain ⟨rest, hrest, hparts, rfl⟩ := isName_of_mem_walkBelow htree h
      exact ⟨hrest, hparts⟩
    have hinjective : ∀ names names', (∀ part ∈ names, IsName part) → (∀ part ∈ names', IsName part) →
        root.below names = root.below names' → names = names' := by
      intro names names' h h' heq
      have hparts := congrArg namedParts heq
      rw [namedParts_below hne h, namedParts_below hne h'] at hparts
      exact List.append_cancel_left hparts
    constructor
    case nodup =>
      rw [listed_walk]
      refine List.Nodup.map_on (fun names h names' h' heq => ?_) ?_
      · exact hinjective names names' (hisName names h).2 (hisName names' h').2 heq
      · rw [hwalk]
        exact nodup_walkBelow htree _ _ _
    case below =>
      intro path h
      rw [listed_walk] at h
      obtain ⟨names, hmem, rfl⟩ := List.mem_map.1 h
      obtain ⟨hnames, hparts⟩ := hisName names hmem
      exact ⟨names, hnames, hparts, rfl⟩
    case mem_iff =>
      intro names hnames hparts hfile
      obtain ⟨p, content, hloc⟩ := locate_of_isFile hfile
      obtain ⟨m, hm, hleads⟩ := leads_below hd hnames hparts hloc
      rw [passable_iff hd hnames hparts hfile, listed_walk, List.mem_map]
      constructor
      · rintro ⟨names', h, heq⟩
        rw [hinjective names' names (hisName names' h).2 hparts heq, hwalk] at h
        have hlist : Listable fs (⟨d, root, []⟩ : WalkLevel).position names :=
          listable_of_mem_walkBelow htree hnames h hleads
        exact hlist
      · intro hlist
        have hnested : Nested fs ⟨d, root, []⟩ [] := ⟨nofun, List.nodup_nil, nofun⟩
        refine ⟨names, ?_, rfl⟩
        rw [hwalk]
        exact mem_walkBelow hacyclic hnames hparts hleads hm hlist hnested (Nat.le_add_right _ _)
    case root_iff =>
      obtain ⟨depth, hdepth⟩ : ∃ k, fs.maxDepth = k + 1 := by
        have hmax := fs.length_lt_maxDepth
        exact ⟨fs.maxDepth - 1, by omega⟩
      rw [canList, hd, Option.any_some]
      constructor
      · rintro ⟨fault, hmem, hzero⟩
        rw [mem_walk, hwalk] at hmem
        rw [← Bool.not_eq_true]
        intro hread
        have hdeep := (depth_of_mem_walkBelow hmem).2 hread
        exact absurd hzero (Nat.ne_of_gt hdeep)
      · intro hread
        refine ⟨.ofAccess 0 root .permissionDenied, mem_walk.2 ?_, rfl⟩
        rw [hwalk, hdepth, walkBelow_unlistable hread]
        exact List.mem_singleton_self _

end Standard

end LuaDocs
