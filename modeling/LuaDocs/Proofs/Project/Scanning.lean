import LuaDocs.Project.Glob
import LuaDocs.Project.Scan
import LuaDocs.Proofs.Files.Walking
import LuaDocs.Proofs.Registry.Order

/-!
# The registry of a directory

A scan of a directory builds the registry of its source files. Which files these are is told by the paths
that lead to them, not by the walk: a file is selected by a label of names below the root. A walk that
keeps to its word comes upon all of them and sorting puts their labels in order, so the scan is the
building of a registry from the selected sources in any order. Files that the program cannot get to or
cannot read are left out, and a root that it cannot list ends the scan.
-/

namespace LuaDocs.Scan

open Text FileSystem

variable {fs : FileSystem} {root : Path} {excludes : List (Text → Bool)} {l content : Text}
  {names : List Text}

/-- A source file below a directory, under the names that lead to it, with the text that is read there. -/
structure Readable (fs : FileSystem) (root : Path) (names : List Text) (content : Text) : Prop where
  ne_nil : names ≠ []
  isName : ∀ name ∈ names, IsName name
  passable : Passable fs root names
  reads : fs.readText (root.below names) = .ok content

/-- A source file below a directory that no pattern excludes, with its label and its text. -/
structure Selected (fs : FileSystem) (root : Path) (excludes : List (Text → Bool)) (l content : Text) :
    Prop where
  below : ∃ names, Readable fs root names content ∧ l = join ['/'] names
  isSource : Source.isSource l = true
  kept : ∀ exclude ∈ excludes, exclude l = false

/-- Sources that are the selected files of a directory, each of them once. -/
structure Enumerates (fs : FileSystem) (root : Path) (excludes : List (Text → Bool))
    (sources : List (Text × Text)) : Prop where
  nodup : sources.Nodup
  mem_iff : ∀ l content, (l, content) ∈ sources ↔ Selected fs root excludes l content

namespace Enumerates

variable {sources sources' : List (Text × Text)}

theorem nodup_labels (h : Enumerates fs root excludes sources) : (sources.map Prod.fst).Nodup := by
  refine List.Nodup.map_on (fun source hmem source' hmem' heq => ?_) h.nodup
  obtain ⟨l, content⟩ := source
  obtain ⟨l', content'⟩ := source'
  obtain rfl : l = l' := heq
  obtain ⟨names, hread, rfl⟩ := ((h.mem_iff l content).1 hmem).below
  obtain ⟨names', hread', hnames⟩ := ((h.mem_iff _ content').1 hmem').below
  obtain rfl := join_injOn hread.isName hread'.isName hread.ne_nil hread'.ne_nil hnames
  cases hread.reads.symm.trans hread'.reads
  rfl

theorem perm (h : Enumerates fs root excludes sources) (h' : Enumerates fs root excludes sources') :
    sources.Perm sources' := by
  rw [List.perm_ext_iff_of_nodup h.nodup h'.nodup]
  rintro ⟨l, content⟩
  rw [h.mem_iff, h'.mem_iff]

end Enumerates

/-! ### Files and labels -/

theorem isSource_below (hroot : root ≠ []) (hnames : names ≠ []) (h : ∀ name ∈ names, IsName name) :
    Source.isSource (root.below names) = Source.isSource (join ['/'] names) := by
  have hlast : (Path.components (join ['/'] names)).getLast? =
      (Path.components (root.below names)).getLast? := by
    rw [components_below hroot h, components_join hnames h,
      List.getLast?_append_of_ne_nil _ (by simpa using hnames)]
  rw [Source.isSource, Source.isSource, Path.extension?, Path.extension?, Path.fileName?,
    Path.fileName?, hlast]

def isKept (root : Path) (excludes : List (Text → Bool)) (path : Path) : Bool :=
  Source.isSource path && !excludes.any (· (root.relativeTo path))

/-- A fault of the root of a walk is the answer of the selection. -/
theorem select_error (root : Path) (excludes : List (Text → Bool))
    {found : List (Except WalkFault WalkEntry)}
    (h : ∃ fault, .error fault ∈ found ∧ fault.depth = 0) :
    ∃ fault log, select root excludes found = (.error (.walk root fault), log) := by
  induction found with
  | nil => exact absurd h (by simp)
  | cons step found ih =>
    obtain ⟨fault, hmem, hdepth⟩ := h
    cases step with
    | error fault' =>
      by_cases hroot : fault'.depth = 0
      · exact ⟨fault', [], by rw [select, hroot]; rfl⟩
      · obtain hmem | hmem := List.mem_cons.1 hmem
        · cases hmem
          exact absurd hdepth hroot
        · obtain ⟨e, log, hselect⟩ := ih ⟨fault, hmem, hdepth⟩
          exact ⟨e, _, by rw [select, if_neg (by simpa using hroot), hselect]⟩
    | ok entry =>
      obtain hmem | hmem := List.mem_cons.1 hmem
      · cases hmem
      obtain ⟨e, log, hselect⟩ := ih ⟨fault, hmem, hdepth⟩
      simp only [select, hselect]
      split
      · exact ⟨e, log, rfl⟩
      · split
        · exact ⟨e, _, rfl⟩
        · exact ⟨e, log, rfl⟩

/-- Without such a fault the selection is made among the files. -/
theorem select_ok (root : Path) (excludes : List (Text → Bool))
    {found : List (Except WalkFault WalkEntry)}
    (h : ¬∃ fault, .error fault ∈ found ∧ fault.depth = 0) :
    (select root excludes found).1 = .ok (((listed found).filter (isKept root excludes)).map
      fun path => (root.relativeTo path, path)) := by
  induction found with
  | nil => rfl
  | cons step found ih =>
    have hrest := ih fun ⟨fault, hmem, hdepth⟩ => h ⟨fault, List.mem_cons_of_mem _ hmem, hdepth⟩
    rcases hselect : select root excludes found with ⟨answer, log⟩
    rw [hselect] at hrest
    obtain rfl : answer = _ := hrest
    cases step with
    | error fault =>
      have hdepth : ¬(fault.depth == 0) = true := fun hdepth =>
        h ⟨fault, List.mem_cons_self, eq_of_beq hdepth⟩
      rw [select, if_neg hdepth, hselect]
      rfl
    | ok entry =>
      obtain ⟨path, isFile⟩ := entry
      have hlisted : listed (.ok ⟨path, isFile⟩ :: found) =
          if isFile then path :: listed found else listed found := by
        cases isFile <;> rfl
      simp only [select, hselect, hlisted]
      cases isFile with
      | false => rfl
      | true =>
        cases hsource : Source.isSource path with
        | false => simp [isKept, hsource]
        | true =>
          cases hexcluded : excludes.any (· (root.relativeTo path)) <;>
            simp [isKept, hsource, hexcluded, Except.map]

theorem readBefore_iff (a b : Text × Path) :
    readBefore a b = true ↔ toLex (a.1, Path.keys a.2) ≤ toLex (b.1, Path.keys b.2) := by
  rw [readBefore, Prod.Lex.toLex_le_toLex]
  by_cases heq : a.1 = b.1
  · rw [if_pos (beq_iff_eq.2 heq), Path.notAfter_iff]
    simp [heq]
  · rw [if_neg (mt beq_iff_eq.1 heq), Text.notAfter_iff]
    simp [heq, lt_iff_le_and_ne]

/-- Files with different labels are read in the order of their labels. -/
theorem pairwise_readBefore {files : List (Text × Path)} (h : (files.map Prod.fst).Nodup) :
    (files.mergeSort readBefore).Pairwise fun a b => a.1 < b.1 := by
  have hsorted : (files.mergeSort readBefore).Pairwise fun a b => readBefore a b = true := by
    refine List.pairwise_mergeSort (fun a b c hab hbc => ?_) (fun a b => ?_) files
    · rw [readBefore_iff] at *
      exact hab.trans hbc
    · rw [Bool.or_eq_true, readBefore_iff, readBefore_iff]
      exact le_total _ _
  have hnodup : (files.mergeSort readBefore).Pairwise fun a b => a.1 ≠ b.1 :=
    List.pairwise_map.1 (((List.mergeSort_perm files readBefore).map Prod.fst).nodup_iff.2 h)
  refine (hsorted.and hnodup).imp fun {a b} hab => ?_
  obtain hlt | ⟨heq, -⟩ := Prod.Lex.toLex_le_toLex.1 ((readBefore_iff a b).1 hab.1)
  · exact hlt
  · exact absurd heq hab.2

def textsOf (fs : FileSystem) (files : List (Text × Path)) : List (Text × Text) :=
  files.filterMap fun file => (fs.readText file.2).toOption.map (file.1, ·)

theorem readFiles_eq {files : List (Text × Path)} (h : ∀ file ∈ files, Source.isSource file.2 = true) :
    (readFiles fs files).1 =
      (textsOf fs files).map fun source => (source.1, .ofContent source.1 source.2) := by
  induction files with
  | nil => rfl
  | cons file files ih =>
    obtain ⟨l, path⟩ := file
    obtain ⟨hsource, hfiles⟩ := List.forall_mem_cons.1 h
    have hrest := ih hfiles
    rw [textsOf, List.filterMap_cons, ← textsOf, readFiles]
    cases hread : fs.readText path with
    | error e => simp [Except.toOption, hrest]
    | ok content => simp [Except.toOption, Source.parseFile, hsource, hrest]

theorem mem_textsOf {files : List (Text × Path)} :
    (l, content) ∈ textsOf fs files ↔ ∃ path, (l, path) ∈ files ∧ fs.readText path = .ok content := by
  rw [textsOf, List.mem_filterMap]
  constructor
  · rintro ⟨⟨l', path⟩, hmem, heq⟩
    cases hread : fs.readText path with
    | error e =>
      rw [hread] at heq
      cases heq
    | ok content' =>
      rw [hread] at heq
      cases heq
      exact ⟨path, hmem, hread⟩
  · rintro ⟨path, hmem, hread⟩
    exact ⟨_, hmem, by rw [hread]; rfl⟩

theorem pairwise_textsOf (fs : FileSystem) {files : List (Text × Path)}
    (h : files.Pairwise fun a b => a.1 < b.1) :
    (textsOf fs files).Pairwise fun a b => a.1 < b.1 := by
  refine List.Pairwise.filterMap _ (fun a b hlt source hsource source' hsource' => ?_) h
  obtain ⟨_, -, rfl⟩ := Option.map_eq_some_iff.1 hsource
  obtain ⟨_, -, rfl⟩ := Option.map_eq_some_iff.1 hsource'
  exact hlt

/-! ### The registry -/

section

variable [Walker] [LawfulWalker]

/-- The files that are read below a root that can be listed have different labels, and their texts are
those of the selected files. -/
theorem enumerates_textsOf {files : List (Text × Path)} (htree : IsTree fs) (hacyclic : NoCycles fs)
    (hroot : fs.isDirectory root = true)
    (hfiles : files = ((listed (Walker.walk fs root)).filter (isKept root excludes)).map
      fun path => (root.relativeTo path, path)) :
    (files.map Prod.fst).Nodup ∧ (∀ file ∈ files, Source.isSource file.2 = true) ∧
      ∀ l content, (l, content) ∈ textsOf fs files ↔ Selected fs root excludes l content := by
  have hne : root ≠ [] := by
    rintro rfl
    cases hroot
  obtain ⟨hnodup, hbelow, hmem, -⟩ := LawfulWalker.lists fs root htree hacyclic hroot
  refine ⟨?_, ?_, fun l content => ?_⟩
  · rw [hfiles, List.map_map]
    refine List.Nodup.map_on (fun path h path' h' heq => ?_) (hnodup.filter _)
    obtain ⟨names, hnames, hparts, rfl⟩ := hbelow path (List.mem_filter.1 h).1
    obtain ⟨names', hnames', hparts', rfl⟩ := hbelow path' (List.mem_filter.1 h').1
    simp only [Function.comp, relativeTo_below hne hparts, relativeTo_below hne hparts'] at heq
    rw [join_injOn hparts hparts' hnames hnames' heq]
  · intro file h
    obtain ⟨path, hpath, rfl⟩ := List.mem_map.1 (hfiles ▸ h)
    exact (Bool.and_eq_true_iff.1 (List.mem_filter.1 hpath).2).1
  rw [mem_textsOf]
  constructor
  · rintro ⟨path, h, hread⟩
    obtain ⟨path, hpath, heq⟩ := List.mem_map.1 (hfiles ▸ h)
    cases heq
    obtain ⟨hlisted, hkept⟩ := List.mem_filter.1 hpath
    obtain ⟨names, hnames, hparts, rfl⟩ := hbelow path hlisted
    have hpass := (hmem names hnames hparts (isFile_of_readText hread)).1 hlisted
    rw [isKept, isSource_below hne hnames hparts, relativeTo_below hne hparts, Bool.and_eq_true,
      Bool.not_eq_true', List.any_eq_false] at hkept
    rw [relativeTo_below hne hparts]
    exact ⟨⟨names, ⟨hnames, hparts, hpass, hread⟩, rfl⟩, hkept.1, by simpa using hkept.2⟩
  · rintro ⟨⟨names, hread, rfl⟩, hsource, hkept⟩
    have hfile := isFile_of_readText hread.reads
    refine ⟨root.below names, ?_, hread.reads⟩
    rw [hfiles, List.mem_map]
    refine ⟨root.below names, List.mem_filter.2 ⟨?_, ?_⟩, ?_⟩
    · exact (hmem names hread.ne_nil hread.isName hfile).2 hread.passable
    · rw [isKept, isSource_below hne hread.ne_nil hread.isName, relativeTo_below hne hread.isName,
        hsource, Bool.true_and, Bool.not_eq_true', List.any_eq_false]
      simpa using hkept
    · rw [relativeTo_below hne hread.isName]

/-- A scan of a root that can be listed builds the registry of the selected files. -/
theorem build_eq (htree : IsTree fs) (hacyclic : NoCycles fs) (hroot : fs.canList root = true)
    (excludes : List (Text → Bool)) :
    ∃ sources log, build fs root excludes = (.ok (.ofSources sources), log) ∧
      Enumerates fs root excludes sources := by
  have hdirectory := isDirectory_of_canList hroot
  have hnofault : ¬∃ fault, .error fault ∈ Walker.walk fs root ∧ fault.depth = 0 := by
    rw [(LawfulWalker.lists fs root htree hacyclic hdirectory).root_iff, hroot]
    nofun
  have hselect := select_ok root excludes hnofault
  rcases hfound : select root excludes (Walker.walk fs root) with ⟨answer, log⟩
  rw [hfound] at hselect
  obtain ⟨files, hfiles⟩ : ∃ files, files =
      ((listed (Walker.walk fs root)).filter (isKept root excludes)).map
        fun path => (root.relativeTo path, path) := ⟨_, rfl⟩
  rw [← hfiles] at hselect
  obtain rfl : answer = .ok files := hselect
  obtain ⟨hnodup, hsource, hmem⟩ := enumerates_textsOf htree hacyclic hdirectory hfiles
  have hsorted := pairwise_textsOf fs (pairwise_readBefore hnodup)
  have hperm := List.mergeSort_perm files readBefore
  refine ⟨textsOf fs (files.mergeSort readBefore), log ++ (readFiles fs (files.mergeSort readBefore)).2,
    ?_, hsorted.imp fun hlt heq => hlt.ne (congrArg Prod.fst heq), fun l content => ?_⟩
  · have hread : Registry.readSources (textsOf fs (files.mergeSort readBefore)) =
        (readFiles fs (files.mergeSort readBefore)).1 := by
      rw [Registry.readSources, Registry.sortByKey_eq_self hsorted, readFiles_eq]
      exact fun file h => hsource file (hperm.mem_iff.1 h)
    rw [build, hdirectory, hfound, Registry.ofSources_eq, hread]
    rfl
  · rw [← hmem, textsOf, textsOf, (hperm.filterMap _).mem_iff]

/-- A scan of a directory without cycles. If its root can be listed, it builds the registry of the selected
files, in whatever order they are listed; so two directories with the same selected files have the same
registry. If not, it fails at the root. -/
theorem build_eq_ofSources (htree : IsTree fs) (hacyclic : NoCycles fs)
    (hroot : fs.isDirectory root = true) (excludes : List (Text → Bool)) :
    (fs.canList root = false →
      ∃ fault log, build fs root excludes = (.error (.walk root fault), log)) ∧
    (fs.canList root = true → ∃ registry log, build fs root excludes = (.ok registry, log) ∧
      (∃ sources, Enumerates fs root excludes sources) ∧
      (∀ sources, Enumerates fs root excludes sources → registry = .ofSources sources) ∧
      ∀ fs' root' excludes', IsTree fs' → NoCycles fs' → fs'.canList root' = true →
        (∀ l content, Selected fs' root' excludes' l content ↔ Selected fs root excludes l content) →
        ∃ log', build fs' root' excludes' = (.ok registry, log')) := by
  constructor
  · intro hlist
    have hfault := (LawfulWalker.lists fs root htree hacyclic hroot).root_iff.2 hlist
    obtain ⟨fault, log, hselect⟩ := select_error root excludes hfault
    exact ⟨fault, log, by rw [build, hroot, hselect]; rfl⟩
  intro hlist
  obtain ⟨sources, log, hbuild, hlists⟩ := build_eq htree hacyclic hlist excludes
  refine ⟨.ofSources sources, log, hbuild, ⟨sources, hlists⟩, fun sources' hlists' => ?_, ?_⟩
  · exact Registry.ofSources_eq_of_perm (hlists.perm hlists') hlists.nodup_labels
  · intro fs' root' excludes' htree' hacyclic' hlist' hagree
    obtain ⟨sources', log', hbuild', hlists'⟩ := build_eq htree' hacyclic' hlist' excludes'
    have hsame : Enumerates fs root excludes sources' :=
      ⟨hlists'.nodup, fun l content => (hlists'.mem_iff l content).trans (hagree l content)⟩
    rw [← Registry.ofSources_eq_of_perm (hlists.perm hsame) hlists.nodup_labels] at hbuild'
    exact ⟨log', hbuild'⟩

end

section

open scoped Standard

/-! ### A directory with a link -/

/-- Sources with a directory of their own, one that is linked, one that is excluded, one that cannot be
listed and files that are no text or cannot be read. -/
def linked : FileSystem :=
  { FileSystem.ofEntries ([(["lua"], .directory),
      (["lua", "a.lua"], .file (.text "---@class A\n".toList)),
      (["lua", "a"], .directory), (["lua", "a", "b.lua"], .file (.text "---@class A\n".toList)),
      (["lua", "a", "c.lua"], .file (.bytes [255])), (["lua", "notes.txt"], .file (.text [])),
      (["lua", "old"], .directory), (["lua", "old", "d.lua"], .file (.text [])),
      (["lua", "more"], .link "../lib".toList), (["lib"], .directory),
      (["lib", "e.lua"], .file (.text "---@class E\n".toList)),
      (["lib", "f.lua"], .file (.text [])), (["lua", "own"], .directory),
      (["lua", "own", "g.lua"], .file (.text []))].map fun (names, entry) =>
        (names.map String.toList, entry))
    with denied := [(["lib".toList, "f.lua".toList], .read), (["lua".toList, "own".toList], .read)] }

theorem tree_linked : IsTree linked :=
  ⟨by decide +kernel, by decide +kernel⟩

theorem noCycles_linked : NoCycles linked :=
  noCycles_of_ascends (fun position => if position = ["lib".toList] then 3 else position.length)
    (by decide +kernel)

/-- The linked directory is scanned as if it stood in the other one, without the file that cannot be read,
and the directory that cannot be listed can be no root. -/
theorem build_linked :
    (∃ registry log excludes sources, compileExcludes ["old/**".toList] = .ok excludes ∧
      build linked "./lua".toList excludes = (.ok registry, log) ∧ registry = .ofSources sources ∧
      ("more/e.lua".toList, "---@class E\n".toList) ∈ sources ∧ ("more/f.lua".toList, []) ∉ sources) ∧
    ∃ fault log, build linked "./lua/own".toList [] = (.error (.walk "./lua/own".toList fault), log) := by
  constructor
  · have hroot : linked.isDirectory "./lua".toList = true := by decide +kernel
    have hlist : linked.canList "./lua".toList = true := by decide +kernel
    obtain ⟨excludes, hexcludes, hkept⟩ : ∃ excludes,
        compileExcludes ["old/**".toList] = .ok excludes ∧
          ∀ exclude ∈ excludes, exclude "more/e.lua".toList = false :=
      ⟨_, rfl, by decide +kernel⟩
    obtain ⟨registry, log, hbuild, ⟨sources, hlists⟩, hsources, -⟩ :=
      (build_eq_ofSources tree_linked noCycles_linked hroot excludes).2 hlist
    refine ⟨registry, log, excludes, sources, hexcludes, hbuild, hsources sources hlists, ?_, ?_⟩
    · refine (hlists.mem_iff _ _).2 ⟨⟨["more".toList, "e.lua".toList], ?_, rfl⟩, ?_, hkept⟩
      · constructor <;> decide +kernel
      · decide +kernel
    · intro hmem
      obtain ⟨names, hread, heq⟩ := ((hlists.mem_iff _ _).1 hmem).below
      have hnames : names = ["more".toList, "f.lua".toList] :=
        join_injOn hread.isName (by decide +kernel) hread.ne_nil (by simp) heq.symm
      have hdenied : linked.readText (Path.below "./lua".toList ["more".toList, "f.lua".toList]) =
          .error .permissionDenied := by decide +kernel
      cases hdenied.symm.trans (hnames ▸ hread.reads)
  · have hroot : linked.isDirectory "./lua/own".toList = true := by decide +kernel
    have hlist : linked.canList "./lua/own".toList = false := by decide +kernel
    exact (build_eq_ofSources tree_linked noCycles_linked hroot []).1 hlist

/-! ### Files that are left out -/

def single : FileSystem :=
  .ofEntries [(["lua".toList], .directory),
    (["lua".toList, "a.lua".toList], .file (.text "---@class A\n".toList))]

/-- The directory of the file, spelled so long that the path of the file is too long. -/
def longRoot : Path :=
  (List.replicate 2044 "./".toList).flatten ++ "lua".toList

def labelsOf (answer : Except ScanError Registry × List Event) : Except ScanError (List Text) :=
  answer.1.map fun registry => registry.files.map Prod.fst

/-- A source file with text is not in the registry if its path is too long or it cannot be read, and a root
that cannot be listed is a fault. -/
theorem build_unreadable :
    IsTree single ∧ NoCycles single ∧ single.isDirectory longRoot = true ∧
      (Registry.ofSources [("a.lua".toList, "---@class A\n".toList)]).files.map Prod.fst =
        ["a.lua".toList] ∧
      labelsOf (build single "lua".toList []) = .ok ["a.lua".toList] ∧
      labelsOf (build single longRoot []) = .ok [] ∧
      labelsOf (build { single with denied := [(["lua".toList, "a.lua".toList], .read)] }
        "lua".toList []) = .ok [] ∧
      labelsOf (build { single with denied := [(["lua".toList], .read)] } "lua".toList []) =
        .error (.walk "lua".toList (.ofAccess 0 "lua".toList .permissionDenied)) := by
  refine ⟨⟨by decide +kernel, by decide +kernel⟩, noCycles_of_ascends List.length (by decide +kernel),
    ?_, ?_, ?_, ?_, ?_, ?_⟩ <;> decide +kernel

end

end LuaDocs.Scan
