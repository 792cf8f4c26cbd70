import LuaDocs.Files.FileSystem
import Mathlib.Data.List.Basic

/-!
# Where paths lead after a write

A write puts a file in the place of a file or where nothing was. In the first case every path leads where
it led before, and only the content that is found there may be new; this is `locate_set`, and what reading
and writing do follows from it. In the second case the path of the write leads to the new file. How a
walk comes to its place is the relation `Leads`, and what carries over from one walk to another is shown
by induction on it.
-/

namespace LuaDocs.FileSystem

variable {fs : FileSystem} {p q : Path} {position directory : Position} {entry : Entry}
  {access : Access} {new old content : Content} {name : Text} {t u : Text} {place : Place}

/-! ### Entries -/

theorem lookup_map_replace (l : List (Position × Entry)) (position other : Position)
    (entry : Entry) :
    (l.map fun e => if e.1 == position then (position, entry) else e).lookup other =
      if other = position then (l.lookup other).map fun _ => entry else l.lookup other := by
  induction l with
  | nil => simp
  | cons e l ih =>
    obtain ⟨r, e⟩ := e
    rw [List.map_cons]
    by_cases hr : r = position
    · subst hr
      rw [if_pos (beq_self_eq_true r), List.lookup_cons, List.lookup_cons, ih]
      by_cases ho : other = r
      · simp [ho]
      · simp [ho, beq_eq_false_iff_ne.2 ho]
    · rw [if_neg (by simpa using hr), List.lookup_cons, List.lookup_cons, ih]
      by_cases ho : other = r
      · simp [ho, hr]
      · simp [beq_eq_false_iff_ne.2 ho]

@[simp] theorem entry?_nil : fs.entry? [] = some .directory := rfl

theorem entry?_of_ne_nil (h : position ≠ []) : fs.entry? position = fs.entries.lookup position :=
  if_neg (by simpa using h)

theorem ne_nil_of_entry?_ne (h : fs.entry? position ≠ some .directory) : position ≠ [] := by
  rintro rfl
  exact h entry?_nil

theorem ne_nil_of_file (h : fs.entry? position = some (.file content)) : position ≠ [] :=
  ne_nil_of_entry?_ne (h.trans_ne nofun)

/-- What stands at a position after an entry has been put in place of another or anew. -/
theorem entry?_set (fs : FileSystem) (entry : Entry) (h : position ≠ []) (other : Position) :
    entry? (fs.set position entry) other =
      if other = position then some entry else fs.entry? other := by
  have hlookup : (fs.set position entry).entries.lookup other =
      if other = position then some entry else fs.entries.lookup other := by
    simp only [set]
    by_cases hany : fs.entries.any (·.1 == position) = true
    · rw [if_pos hany, lookup_map_replace]
      by_cases ho : other = position
      · subst ho
        obtain ⟨e, he, hkey⟩ := List.any_eq_true.1 hany
        have hsome : (fs.entries.lookup other).isSome := by
          rw [List.lookup_isSome_iff]
          exact ⟨e, he, by simpa using (beq_iff_eq.1 hkey).symm⟩
        obtain ⟨x, hx⟩ := Option.isSome_iff_exists.1 hsome
        simp [hx]
      · simp [ho]
    · rw [if_neg hany, List.lookup_append, List.lookup_cons, List.lookup_nil]
      by_cases ho : other = position
      · subst ho
        have hnone : fs.entries.lookup other = none := by
          rw [List.lookup_eq_none_iff]
          intro e he
          rw [bne_iff_ne]
          rintro rfl
          exact hany (List.any_eq_true.2 ⟨e, he, beq_self_eq_true _⟩)
        simp [hnone]
      · simp [ho, beq_eq_false_iff_ne.2 ho]
  by_cases hroot : other = []
  · subst hroot
    rw [entry?_nil, if_neg h.symm, entry?_nil]
  · rw [entry?_of_ne_nil hroot, hlookup, entry?_of_ne_nil hroot]

theorem entry?_set_self (h : fs.entry? position = some (.file old)) :
    entry? (fs.set position entry) position = some entry := by
  rw [entry?_set fs entry (ne_nil_of_file h), if_pos rfl]

theorem entry?_set_of_ne (h : fs.entry? position = some (.file old)) {other : Position}
    (hne : other ≠ position) : entry? (fs.set position entry) other = fs.entry? other := by
  rw [entry?_set fs entry (ne_nil_of_file h), if_neg hne]

/-! ### Where steps lead -/

@[simp] theorem may_set (right : Right) (other : Position) :
    (fs.set position entry).may right other = fs.may right other := rfl

@[simp] theorem mayStep_set (directory : Position) (step : Text) :
    (fs.set position entry).mayStep directory step = fs.mayStep directory step := rfl

/-- A step goes down to the entry of its name, with some steps to come. -/
structure GoesDown (access : Access) (step : Text) (rest : List Text) : Prop where
  named : (step.isEmpty || step == ['.']) = false
  notUp : (step == Position.up) = false
  mayEnd : (access == .newFile && rest == [[]]) = false
  short : ¬maxName < byteLength step

/-- Steps from a directory lead to a place over at most some links. -/
inductive Leads (fs : FileSystem) (access : Access) : Nat → Position → List Text → Place → Prop
  | here {n d} : Leads fs access n d [] (.found d .directory)
  | idle {n d step rest r} (hmay : fs.mayStep d step = true)
      (hidle : (step.isEmpty || step == ['.']) = true)
      (hrest : Leads fs access n d rest r) : Leads fs access n d (step :: rest) r
  | up {n d step rest r} (hmay : fs.mayStep d step = true)
      (hidle : (step.isEmpty || step == ['.']) = false)
      (hup : (step == Position.up) = true) (hrest : Leads fs access n d.above rest r) :
      Leads fs access n d (step :: rest) r
  | absent {n d step} (hmay : fs.mayStep d step = true) (hdown : GoesDown access step [])
      (hentry : fs.entry? (d ++ [step]) = none) :
      Leads fs access n d [step] (.absent d step)
  | file {n d step c} (hmay : fs.mayStep d step = true) (hdown : GoesDown access step [])
      (hentry : fs.entry? (d ++ [step]) = some (.file c)) :
      Leads fs access n d [step] (.found (d ++ [step]) (.file c))
  | link {n d step target} (hmay : fs.mayStep d step = true) (hdown : GoesDown access step [])
      (haccess : access = .entry)
      (hentry : fs.entry? (d ++ [step]) = some (.link target)) :
      Leads fs access n d [step] (.found (d ++ [step]) (.link target))
  | into {n d step rest r} (hmay : fs.mayStep d step = true) (hdown : GoesDown access step rest)
      (hentry : fs.entry? (d ++ [step]) = some .directory)
      (hrest : Leads fs access n (d ++ [step]) rest r) : Leads fs access n d (step :: rest) r
  | follow {n d step rest target r} (hmay : fs.mayStep d step = true)
      (hdown : GoesDown access step rest)
      (hentry : fs.entry? (d ++ [step]) = some (.link target))
      (hgoes : (rest.isEmpty && access == .entry) = false)
      (hrest : Leads fs access n (origin d target) (steps target ++ rest) r) :
      Leads fs access (n + 1) d (step :: rest) r

variable {links : Nat} {step : Text} {rest parts : List Text}

theorem leads_of_walk {onLink : Position → List Text → Except IoError Place}
    (hlink : ∀ d s, onLink d s = .ok place → ∃ k, links = k + 1 ∧ Leads fs access k d s place)
    (h : fs.walk access onLink directory parts = .ok place) :
    Leads fs access links directory parts place := by
  induction parts generalizing directory with
  | nil =>
    cases h
    exact .here
  | cons step rest ih =>
    rw [walk] at h
    split at h
    · cases h
    next hmay =>
    have hmay : fs.mayStep directory step = true := by simpa using hmay
    split at h
    · next hidle => exact .idle hmay hidle (ih h)
    next hidle =>
    split at h
    · next hup => exact .up hmay (Bool.eq_false_iff.2 hidle) hup (ih h)
    next hup =>
    split at h
    · cases h
    next hend =>
    split at h
    · cases h
    next hlong =>
    have hdown : GoesDown access step rest :=
      ⟨Bool.eq_false_iff.2 hidle, Bool.eq_false_iff.2 hup, Bool.eq_false_iff.2 hend, hlong⟩
    simp only at h
    split at h
    · next hentry =>
      split at h
      · next hlast =>
        cases h
        obtain rfl := List.isEmpty_iff.1 hlast
        exact .absent hmay hdown hentry
      · cases h
    · next hentry => exact .into hmay hdown hentry (ih h)
    · next hentry =>
      split at h
      · next hlast =>
        cases h
        obtain rfl := List.isEmpty_iff.1 hlast
        exact .file hmay hdown hentry
      · cases h
    · next hentry =>
      split at h
      · next hlast =>
        cases h
        obtain ⟨hempty, haccess⟩ := Bool.and_eq_true_iff.1 hlast
        obtain rfl := List.isEmpty_iff.1 hempty
        exact .link hmay hdown (eq_of_beq haccess) hentry
      · next hgoes =>
        obtain ⟨k, rfl, hrest⟩ := hlink _ _ h
        exact .follow hmay hdown hentry (Bool.eq_false_iff.2 hgoes) hrest

theorem leads_of_walkLinks (h : fs.walkLinks access links directory parts = .ok place) :
    Leads fs access links directory parts place := by
  induction links generalizing directory parts with
  | zero => exact leads_of_walk (fun _ _ hrest => by cases hrest) h
  | succ links ih => exact leads_of_walk (fun _ _ hrest => ⟨links, rfl, ih hrest⟩) h

theorem walk_of_goesDown {onLink : Position → List Text → Except IoError Place}
    (hmay : fs.mayStep directory step = true) (h : GoesDown access step rest) :
    fs.walk access onLink directory (step :: rest) =
      match fs.entry? (directory ++ [step]) with
      | none => if rest.isEmpty then .ok (.absent directory step) else .error .notFound
      | some .directory => fs.walk access onLink (directory ++ [step]) rest
      | some (.file content) =>
        if rest.isEmpty then .ok (.found (directory ++ [step]) (.file content))
        else .error .notDirectory
      | some (.link target) =>
        if rest.isEmpty && access == .entry then .ok (.found (directory ++ [step]) (.link target))
        else onLink (origin directory target) (steps target ++ rest) := by
  rw [walk, hmay]
  exact (if_neg Bool.false_ne_true).trans <| (if_neg (Bool.eq_false_iff.1 h.named)).trans <|
    (if_neg (Bool.eq_false_iff.1 h.notUp)).trans <|
    (if_neg (Bool.eq_false_iff.1 h.mayEnd)).trans (if_neg h.short)

theorem walkLinks_eq (links : Nat) :
    fs.walkLinks access links = fs.walk access (match links with
      | 0 => fun _ _ => .error .tooManyLinks
      | links + 1 => fs.walkLinks access links) := by
  cases links <;> rfl

/-- A walk over links comes to a place exactly if its steps lead there. -/
theorem walkLinks_eq_ok_iff :
    fs.walkLinks access links directory parts = .ok place ↔
      Leads fs access links directory parts place := by
  refine ⟨leads_of_walkLinks, fun h => ?_⟩
  induction h with
  | here => rw [walkLinks_eq, walk]
  | idle hmay hidle _ ih =>
    rw [walkLinks_eq] at ih ⊢
    rw [walk, hmay, Bool.not_true, if_neg Bool.false_ne_true, if_pos hidle, ih]
  | up hmay hidle hup _ ih =>
    rw [walkLinks_eq] at ih ⊢
    rw [walk, hmay, Bool.not_true, if_neg Bool.false_ne_true, hidle, if_neg Bool.false_ne_true,
      if_pos hup, ih]
  | absent hmay hdown hentry | file hmay hdown hentry =>
    rw [walkLinks_eq, walk_of_goesDown hmay hdown, hentry]
    rfl
  | link hmay hdown haccess hentry =>
    rw [walkLinks_eq, walk_of_goesDown hmay hdown, hentry, haccess]
    rfl
  | into hmay hdown hentry _ ih =>
    rw [walkLinks_eq] at ih ⊢
    rw [walk_of_goesDown hmay hdown, hentry]
    exact ih
  | follow hmay hdown hentry hgoes _ ih =>
    rw [walkLinks_eq, walk_of_goesDown hmay hdown, hentry]
    simp only [hgoes, Bool.false_eq_true, if_false]
    exact ih

/-- What is known of a place that a path leads to. -/
def Stands (fs : FileSystem) (access : Access) : Place → Prop
  | .found _ .directory => True
  | .found position (.file content) => fs.entry? position = some (.file content)
  | .found _ (.link _) => access = .entry
  | .absent directory name => fs.entry? (directory ++ [name]) = none

theorem Leads.stands (h : Leads fs access links directory parts place) : Stands fs access place := by
  induction h with
  | here => trivial
  | idle _ _ _ ih | up _ _ _ _ ih | into _ _ _ _ ih | follow _ _ _ _ _ ih => exact ih
  | absent _ _ hentry | file _ _ hentry => exact hentry
  | link _ _ haccess _ => exact haccess

/-- A path is refused at once, whatever is there, or it is walked along. -/
theorem locate_eq (p : Path) :
    (∃ e, ∀ (fs : FileSystem) access, fs.locate access p = .error e) ∨
      ∀ (fs : FileSystem) access,
        fs.locate access p = fs.walkLinks access maxLinks (origin fs.here p) (steps p) := by
  by_cases hnul : p.contains '\x00' = true
  · exact .inl ⟨_, fun fs access => by rw [locate, if_pos hnul]⟩
  by_cases hlong : maxPath < byteLength p
  · exact .inl ⟨_, fun fs access => by rw [locate, if_neg hnul, if_pos hlong]⟩
  by_cases hempty : p.isEmpty = true
  · exact .inl ⟨_, fun fs access => by rw [locate, if_neg hnul, if_neg hlong, if_pos hempty]⟩
  · exact .inr fun fs access => by rw [locate, if_neg hnul, if_neg hlong, if_neg hempty]

theorem leads_of_locate (h : fs.locate access p = .ok place) :
    Leads fs access maxLinks (origin fs.here p) (steps p) place := by
  obtain ⟨e, he⟩ | hwalk := locate_eq p
  · rw [he] at h
    cases h
  · rw [hwalk] at h
    exact walkLinks_eq_ok_iff.1 h

/-- A path that is not refused leads where its parts lead. -/
theorem locate_of_leads {fs' : FileSystem} {access' : Access} {place' : Place}
    (h : fs.locate access p = .ok place)
    (hleads : Leads fs' access' maxLinks (origin fs'.here p) (steps p) place') :
    fs'.locate access' p = .ok place' := by
  obtain ⟨e, he⟩ | hwalk := locate_eq p
  · rw [he] at h
    cases h
  · rw [hwalk]
    exact walkLinks_eq_ok_iff.2 hleads

theorem locate_stands (h : fs.locate access p = .ok place) : Stands fs access place :=
  (leads_of_locate h).stands

/-! ### Files by their positions -/

def fileAt? (fs : FileSystem) (p : Path) : Option Position :=
  match fs.locate .target p with
  | .ok (.found position (.file _)) => some position
  | _ => none

def SameFile (fs : FileSystem) (p q : Path) : Prop :=
  ∃ position, fs.fileAt? p = some position ∧ fs.fileAt? q = some position

/-- What a path finds in a file is what stands at its position. -/
theorem entry?_of_locate (h : fs.locate access p = .ok (.found position (.file content))) :
    fs.entry? position = some (.file content) :=
  locate_stands h

theorem locate_of_fileAt? (h : fs.fileAt? p = some position) :
    ∃ content, fs.locate .target p = .ok (.found position (.file content)) := by
  rw [fileAt?] at h
  split at h
  · next hloc =>
    cases h
    exact ⟨_, hloc⟩
  · cases h

/-- The content of a file is that at its position. -/
theorem content?_eq_some_iff :
    fs.content? p = some content ↔
      ∃ position, fs.fileAt? p = some position ∧ fs.entry? position = some (.file content) := by
  constructor
  · intro h
    rw [content?] at h
    split at h
    · next position _ hloc =>
      cases h
      exact ⟨position, by rw [fileAt?, hloc], entry?_of_locate hloc⟩
    · cases h
  · rintro ⟨position, hat, hentry⟩
    obtain ⟨c, hloc⟩ := locate_of_fileAt? hat
    have hc := entry?_of_locate hloc
    rw [hentry] at hc
    cases hc
    rw [content?, hloc]

theorem content?_congr (h : fs.fileAt? p = fs.fileAt? q) : fs.content? p = fs.content? q := by
  ext content
  rw [content?_eq_some_iff, content?_eq_some_iff, h]

/-- A path leads to a file that the program may read. -/
def CanRead (fs : FileSystem) (p : Path) : Prop :=
  ∃ position, fs.fileAt? p = some position ∧ fs.may .read position = true

theorem readText_eq_ok_iff :
    fs.readText p = .ok t ↔ fs.content? p = some (.text t) ∧ fs.CanRead p := by
  rw [readText, content?, CanRead, fileAt?]
  cases fs.locate .target p with
  | error e => simp
  | ok place =>
    cases place with
    | absent _ _ => simp
    | found position entry =>
      cases hmay : fs.may .read position <;> cases entry with
      | directory => simp [textOf, hmay]
      | link _ => simp [textOf, hmay]
      | file content => cases content <;> simp [textOf, hmay]

theorem content?_of_readText (h : fs.readText p = .ok t) : fs.content? p = some (.text t) :=
  (readText_eq_ok_iff.1 h).1

theorem isFile_of_readText (h : fs.readText p = .ok t) : fs.isFile p = true := by
  rw [isFile, content?_of_readText h]
  rfl

theorem fileAt?_of_readText (h : fs.readText p = .ok t) :
    ∃ position, fs.fileAt? p = some position :=
  let ⟨position, hat, _⟩ := content?_eq_some_iff.1 (content?_of_readText h)
  ⟨position, hat⟩

/-! ### Other content in a file -/

/-- A place after the file at a position has got other content. -/
def Place.rewrite (position : Position) (new : Content) : Place → Place
  | .found other (.file old) => .found other (.file (if other = position then new else old))
  | place => place

theorem walk_set {onLink onLink' : Position → List Text → Except IoError Place}
    (hold : fs.entry? position = some (.file old))
    (hlink : ∀ d s, onLink' d s = (onLink d s).map (Place.rewrite position new))
    (directory : Position) (steps : List Text) :
    (fs.set position (.file new)).walk access onLink' directory steps =
      (fs.walk access onLink directory steps).map (Place.rewrite position new) := by
  induction steps generalizing directory with
  | nil => rfl
  | cons step rest ih =>
    rw [walk, walk, mayStep_set]
    by_cases hmay : (!fs.mayStep directory step) = true
    · rw [if_pos hmay, if_pos hmay]
      rfl
    rw [if_neg hmay, if_neg hmay]
    by_cases hidle : (step.isEmpty || step == ['.']) = true
    · rw [if_pos hidle, if_pos hidle, ih]
    rw [if_neg hidle, if_neg hidle]
    by_cases hup : (step == Position.up) = true
    · rw [if_pos hup, if_pos hup, ih]
    rw [if_neg hup, if_neg hup]
    by_cases hnew : (access == .newFile && rest == [[]]) = true
    · rw [if_pos hnew, if_pos hnew]
      rfl
    rw [if_neg hnew, if_neg hnew]
    by_cases hlong : maxName < byteLength step
    · rw [if_pos hlong, if_pos hlong]
      rfl
    rw [if_neg hlong, if_neg hlong]
    by_cases hpos : directory ++ [step] = position
    · simp only [hpos, hold, entry?_set_self hold]
      by_cases hrest : rest.isEmpty = true
      · simp [hrest, Except.map, Place.rewrite]
      · simp [hrest, Except.map]
    · simp only [entry?_set_of_ne hold hpos]
      cases fs.entry? (directory ++ [step]) with
      | none => cases rest <;> rfl
      | some e =>
        cases e with
        | directory => exact ih _
        | file c =>
          by_cases hrest : rest.isEmpty = true
          · simp [hrest, Except.map, Place.rewrite, hpos]
          · simp [hrest, Except.map]
        | link target =>
          by_cases hlast : (rest.isEmpty && access == .entry) = true
          · simp only [hlast, if_true]
            rfl
          · simp only [hlast, Bool.false_eq_true, if_false, hlink]

/-- Other content in a file changes nothing about where paths lead. -/
theorem locate_set (hold : fs.entry? position = some (.file old)) (access : Access) (p : Path) :
    (fs.set position (.file new)).locate access p =
      (fs.locate access p).map (Place.rewrite position new) := by
  have hlinks (links : Nat) (d : Position) (s : List Text) :
      (fs.set position (.file new)).walkLinks access links d s =
        (fs.walkLinks access links d s).map (Place.rewrite position new) := by
    induction links generalizing d s with
    | zero =>
      rw [walkLinks, walkLinks]
      refine walk_set hold (fun _ _ => ?_) d s
      rfl
    | succ links ih =>
      rw [walkLinks, walkLinks]
      exact walk_set hold ih d s
  obtain ⟨e, he⟩ | hwalk := locate_eq p
  · rw [he, he]
    rfl
  · rw [hwalk, hwalk, hlinks]
    rfl

theorem fileAt?_set (hold : fs.entry? position = some (.file old)) (p : Path) :
    (fs.set position (.file new)).fileAt? p = fs.fileAt? p := by
  rw [fileAt?, fileAt?, locate_set hold]
  cases fs.locate .target p with
  | error e => rfl
  | ok place =>
    cases place with
    | absent _ _ => rfl
    | found other entry => cases entry <;> rfl

/-- Every path to the file finds the new content. -/
theorem content?_set_of_fileAt? (hold : fs.entry? position = some (.file old))
    (h : fs.fileAt? p = some position) :
    (fs.set position (.file new)).content? p = some new :=
  content?_eq_some_iff.2 ⟨position, by rw [fileAt?_set hold, h], entry?_set_self hold⟩

/-- Every other path finds and reads what it did before. -/
theorem content?_set_of_fileAt?_ne (hold : fs.entry? position = some (.file old))
    (h : fs.fileAt? p ≠ some position) :
    (fs.set position (.file new)).content? p = fs.content? p := by
  ext content
  rw [content?_eq_some_iff, content?_eq_some_iff, fileAt?_set hold]
  refine exists_congr fun other => and_congr_right fun hat => ?_
  rw [entry?_set_of_ne hold (by rintro rfl; exact h hat)]

theorem readText_set_of_fileAt?_ne (hold : fs.entry? position = some (.file old))
    (h : fs.fileAt? p ≠ some position) :
    (fs.set position (.file new)).readText p = fs.readText p := by
  rw [readText, readText, locate_set hold]
  rw [fileAt?] at h
  cases hloc : fs.locate .target p with
  | error e => rfl
  | ok place =>
    cases place with
    | absent _ _ => rfl
    | found other entry =>
      cases entry with
      | directory => rfl
      | link _ => rfl
      | file c =>
        have hne : other ≠ position := by simpa [hloc] using h
        simp only [Except.map, Place.rewrite, if_neg hne]
        rfl

/-! ### Paths that are written -/

/-- A slash at the end leads to no file. -/
theorem Leads.getLast?_ne (h : Leads fs access links directory parts place)
    (hplace : place = .found position (.file content)) : parts.getLast? ≠ some [] := by
  induction h with
  | here | absent | link => cases hplace
  | file _ hdown _ =>
    intro hlast
    obtain rfl := Option.some.inj hlast
    cases hdown.named
  | @idle _ _ _ rest _ _ _ hrest ih | @up _ _ _ rest _ _ _ _ hrest ih
  | @into _ _ _ rest _ _ _ _ hrest ih =>
    cases rest with
    | nil => cases hplace ▸ hrest
    | cons next rest =>
      rw [List.getLast?_cons_cons]
      exact ih hplace
  | @follow _ _ step rest target _ _ hdown _ _ _ ih =>
    have hbehind := ih hplace
    cases rest with
    | nil =>
      intro hlast
      obtain rfl := Option.some.inj hlast
      cases hdown.named
    | cons next rest =>
      rw [List.getLast?_cons_cons]
      rwa [List.getLast?_append_of_ne_nil _ (List.cons_ne_nil next rest)] at hbehind

theorem Leads.newFile (h : Leads fs .target links directory parts place)
    (hplace : place = .found position (.file content)) :
    Leads fs .newFile links directory parts place := by
  -- What a write refuses, an empty step at the very end, does not lead to a file anyway.
  have hdown' {step : Text} {rest : List Text} (hdown : GoesDown .target step rest)
      (hend : rest.getLast? ≠ some []) : GoesDown .newFile step rest := by
    refine ⟨hdown.named, hdown.notUp, ?_, hdown.short⟩
    rw [Bool.eq_false_iff]
    intro h
    have hrest : rest = [[]] := by simpa using h
    exact hend (hrest ▸ rfl)
  induction h with
  | here => exact .here
  | idle hmay hidle _ ih => exact .idle hmay hidle (ih hplace)
  | up hmay hidle hup _ ih => exact .up hmay hidle hup (ih hplace)
  | absent hmay hdown hentry => exact .absent hmay (hdown' hdown nofun) hentry
  | file hmay hdown hentry => exact .file hmay (hdown' hdown nofun) hentry
  | link _ _ haccess _ => cases haccess
  | into hmay hdown hentry hrest ih =>
    exact .into hmay (hdown' hdown (hrest.getLast?_ne hplace)) hentry (ih hplace)
  | @follow _ _ _ rest target _ hmay hdown hentry _ hrest ih =>
    refine .follow hmay (hdown' hdown fun hlast => hrest.getLast?_ne hplace ?_) hentry (by simp)
      (ih hplace)
    have hne : rest ≠ [] := by
      rintro rfl
      cases hlast
    rw [List.getLast?_append_of_ne_nil _ hne, hlast]

/-- A path that leads to a file when it is read leads there when it is written. -/
theorem locate_newFile (h : fs.locate .target p = .ok (.found position (.file content))) :
    fs.locate .newFile p = .ok (.found position (.file content)) :=
  locate_of_leads h ((leads_of_locate h).newFile rfl)

theorem Leads.target (h : Leads fs .newFile links directory parts place) :
    Leads fs .target links directory parts place := by
  have hdown' {step : Text} {rest : List Text} (hdown : GoesDown .newFile step rest) :
      GoesDown .target step rest :=
    ⟨hdown.named, hdown.notUp, by simp, hdown.short⟩
  induction h with
  | here => exact .here
  | idle hmay hidle _ ih => exact .idle hmay hidle ih
  | up hmay hidle hup _ ih => exact .up hmay hidle hup ih
  | absent hmay hdown hentry => exact .absent hmay (hdown' hdown) hentry
  | file hmay hdown hentry => exact .file hmay (hdown' hdown) hentry
  | link _ _ haccess _ => cases haccess
  | into hmay hdown hentry _ ih => exact .into hmay (hdown' hdown) hentry ih
  | follow hmay hdown hentry _ _ ih => exact .follow hmay (hdown' hdown) hentry (by simp) ih

/-- A path that leads somewhere when it is written leads there when it is read. -/
theorem locate_target (h : fs.locate .newFile p = .ok place) :
    fs.locate .target p = .ok place :=
  locate_of_leads h (leads_of_locate h).target

theorem Leads.created (h : Leads fs access links directory parts place)
    (hplace : place = .absent position name) :
    Leads (fs.set (position ++ [name]) (.file new)) access links directory parts
      (.found (position ++ [name]) (.file new)) := by
  have hnone : fs.entry? (position ++ [name]) = none := by
    subst hplace
    exact h.stands
  have hne : position ++ [name] ≠ [] := by simp
  have hentry' {q : Position} {e : Entry} (hentry : fs.entry? q = some e) :
      entry? (fs.set (position ++ [name]) (.file new)) q = some e := by
    rw [entry?_set fs _ hne, if_neg, hentry]
    rintro rfl
    rw [hnone] at hentry
    cases hentry
  induction h with
  | here | file | link => cases hplace
  | idle hmay hidle _ ih => exact .idle hmay hidle (ih hplace)
  | up hmay hidle hup _ ih => exact .up hmay hidle hup (ih hplace)
  | absent hmay hdown _ =>
    cases hplace
    exact .file hmay hdown (by rw [entry?_set fs _ hne, if_pos rfl])
  | into hmay hdown hentry _ ih => exact .into hmay hdown (hentry' hentry) (ih hplace)
  | follow hmay hdown hentry hgoes _ ih =>
    exact .follow hmay hdown (hentry' hentry) hgoes (ih hplace)

/-- A new file is found by the path that it was created for. -/
theorem locate_created (h : fs.locate .target p = .ok (.absent directory name)) :
    (fs.set (directory ++ [name]) (.file new)).locate .target p =
      .ok (.found (directory ++ [name]) (.file new)) :=
  locate_of_leads h ((leads_of_locate h).created rfl)

/-! ### Reading and writing -/

/-- Whatever text is put under a path, the file system takes it. -/
def Writable (fs : FileSystem) (p : Path) : Prop :=
  ∀ t, ∃ fs', fs.writeText p t = .ok fs'

theorem writeText_eq (h : fs.fileAt? p = some position) (t : Text) :
    fs.writeText p t = fs.put position position (.file (.text t)) := by
  obtain ⟨old, hloc⟩ := locate_of_fileAt? h
  rw [writeText, writeContent, locate_newFile hloc]

theorem may_write_of_writeText {fs' : FileSystem} (h : fs.fileAt? p = some position)
    (hwrite : fs.writeText p t = .ok fs') : fs.may .write position = true := by
  rw [writeText_eq h, put] at hwrite
  split at hwrite
  · next hmay => exact hmay
  · cases hwrite

/-- A file can be written if and only if the program may write it. -/
theorem writable_iff (h : fs.fileAt? p = some position) :
    fs.Writable p ↔ fs.may .write position = true := by
  constructor
  · intro hwrite
    obtain ⟨_, hfs'⟩ := hwrite []
    exact may_write_of_writeText h hfs'
  · intro hmay t
    exact ⟨_, by rw [writeText_eq h, put, if_pos hmay]⟩

/-- A write that comes to a file changes what the paths to it find and nothing else. -/
theorem of_writeText {fs' : FileSystem} (h : fs.fileAt? p = some position)
    (hwrite : fs.writeText p t = .ok fs') :
    (∀ right other, fs'.may right other = fs.may right other) ∧
      (∀ q, fs'.fileAt? q = fs.fileAt? q) ∧
      (∀ q, fs.fileAt? q = some position → fs'.content? q = some (.text t)) ∧
      ∀ q, fs.fileAt? q ≠ some position →
        fs'.content? q = fs.content? q ∧ fs'.readText q = fs.readText q := by
  obtain ⟨old, hloc⟩ := locate_of_fileAt? h
  have hold := entry?_of_locate hloc
  rw [writeText_eq h, put] at hwrite
  split at hwrite
  · cases hwrite
    exact ⟨fun _ _ => rfl, fileAt?_set hold, fun q hq => content?_set_of_fileAt? hold hq, fun q hq =>
      ⟨content?_set_of_fileAt?_ne hold hq, readText_set_of_fileAt?_ne hold hq⟩⟩
  · cases hwrite

/-- What has been written is read by all paths to the file, if it could be read before. -/
theorem readText_writeText {fs' : FileSystem} (hread : fs.readText p = .ok u)
    (hwrite : fs.writeText p t = .ok fs') (hq : fs.fileAt? q = fs.fileAt? p) :
    fs'.readText q = .ok t := by
  obtain ⟨-, position, hat, hmay⟩ := readText_eq_ok_iff.1 hread
  obtain ⟨hrights, hfileAt, hhere, -⟩ := of_writeText hat hwrite
  refine readText_eq_ok_iff.2 ⟨hhere q (hq.trans hat), position, ?_, ?_⟩
  · rw [hfileAt, hq, hat]
  · rw [hrights, hmay]

/-- What has been written is there. -/
theorem content?_writeText {fs' : FileSystem} (h : fs.writeText p t = .ok fs') :
    fs'.content? p = some (.text t) := by
  rw [writeText, writeContent] at h
  split at h
  · cases h
  · cases h
  · next position e hnot hloc =>
    have htarget := locate_target hloc
    cases e with
    | directory => exact absurd rfl hnot
    | file old =>
      have hat : fs.fileAt? p = some position := by rw [fileAt?, htarget]
      exact (of_writeText hat (by rw [writeText_eq hat, h])).2.2.1 p hat
    | link target => exact nomatch locate_stands htarget
  · next directory name hloc =>
    rw [put] at h
    split at h
    · cases h
      rw [content?, locate_created (locate_target hloc)]
    · cases h

end LuaDocs.FileSystem
