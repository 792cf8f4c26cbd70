import LuaDocs.Source.File

/-!
# The registry

The declarations of all files of a project, with every name in a type matched to the declaration it
stands for. Files are taken in the order of their paths. The first declaration of a type name wins,
and every later one is reported. Names are matched only when all files have been indexed, so that it
does not matter which file declares a type.
-/

namespace LuaDocs

/-- The type names of a project, each with the place of its winning declaration. -/
abbrev TypeIndex := List (Text × Location)

/-- The documentation of a project. -/
structure Registry where
  /-- The declarations of each file, in the order of the paths. -/
  files : List (Text × FileDocs)
  /-- The winning declaration of each type name. -/
  types : List TypeDoc
  /-- The faults from which reading recovered, in the order in which they came up. -/
  diagnostics : List Diagnostic
  deriving Inhabited

namespace Registry

def empty : Registry :=
  ⟨[], [], []⟩

/-! ### Indexing type names -/

/-- An index with the types of a file, and the types that lost to an earlier declaration. -/
def indexTypes (index : TypeIndex) : List TypeDoc → TypeIndex × List Diagnostic
  | [] => (index, [])
  | t :: rest =>
    match index.lookup t.name with
    | some first =>
      let (index, faults) := indexTypes index rest
      (index, .duplicateName t.name first t.location :: faults)
    | none => indexTypes (index ++ [(t.name, t.location)]) rest

/-- An index with the types of several files, and the faults of these files: for each file those
found on reading it, then the types that lost to an earlier declaration. -/
def indexFiles (index : TypeIndex) : List (Text × ParsedFile) → TypeIndex × List Diagnostic
  | [] => (index, [])
  | (_, file) :: rest =>
    let (index, duplicates) := indexTypes index file.docs.types
    let (index, faults) := indexFiles index rest
    (index, file.diagnostics ++ duplicates ++ faults)

/-! ### Matching names -/

/-- Steps that may report faults, in order. -/
abbrev Reporting := StateM (List Diagnostic)

def report (fault : Diagnostic) : Reporting Unit :=
  modify (· ++ [fault])

/-- A name that may stay unmatched without a report: the receiver, or a type parameter. -/
def isExpected (generics : List Text) (name : Text) : Bool :=
  name == "self".toList || generics.contains name

/-- The type that a name stands for. A name without a declaration is reported once for each place
that mentions it. -/
def resolveName (index : TypeIndex) (generics : List Text) (here : Location) (name : Text) :
    Reporting TypeExpr := do
  if (index.lookup name).isSome then return .declared name
  let fault := .unresolvedType here name
  unless isExpected generics name || (← get).contains fault do report fault
  return .named name

def resolve (index : TypeIndex) (generics : List Text) (here : Location) (t : TypeExpr) :
    Reporting TypeExpr :=
  t.mapNamesM (resolveName index generics here)

def resolveMember (index : TypeIndex) (generics : List Text) (here : Location) (m : Member) :
    Reporting Member := do
  return { m with type := ← resolve index generics here m.type }

def resolveReturn (index : TypeIndex) (generics : List Text) (here : Location)
    (r : ReturnValue) : Reporting ReturnValue := do
  return { r with type := ← resolve index generics here r.type }

/-- The name by which other files know the module of a file: its path without extension, with dots,
where the file `init.lua` stands for its directory. -/
def moduleName (path : Text) : Text :=
  let stem := (Text.before? ".lua".toList path).getD path
  let stem := (Text.before? "/init".toList stem).getD stem
  Text.replaceChar '/' ['.'] stem

/-- The name of a function in the name space that it shares with types: a function declared as part
of a table belongs to the module of its file. -/
def qualifiedName (path : Text) (f : FunctionDoc) : Text :=
  if f.declaredName.any (fun c => c == '.' || c == ':') then
    moduleName path ++ '.' :: f.name
  else f.name

/-- A function with the names in its types matched. A function whose name is that of a type is
reported. -/
def resolveFunction (index : TypeIndex) (path : Text) (f : FunctionDoc) :
    Reporting FunctionDoc := do
  let params ← f.params.mapM (resolveMember index f.generics f.location)
  let returns ← f.returns.mapM (resolveReturn index f.generics f.location)
  let name := qualifiedName path f
  match index.lookup name with
  | some declared =>
    let (first, second) := Location.ordered declared f.location
    report (.duplicateName name first second)
  | none => pure ()
  return { f with params, returns }

def resolveType (index : TypeIndex) (t : TypeDoc) : Reporting TypeDoc := do
  match t.kind with
  | .record parents fields =>
    let parents ← parents.mapM (resolve index t.generics t.location)
    let fields ← fields.mapM (resolveMember index t.generics t.location)
    return { t with kind := .record parents fields }
  | .typeAlias type =>
    return { t with kind := .typeAlias (← resolve index t.generics t.location type) }
  | .enumeration _ => return t

def resolveFile (index : TypeIndex) : Text × FileDocs → Reporting (Text × FileDocs)
  | (path, docs) => do
    let functions ← docs.functions.mapM (resolveFunction index path)
    let types ← docs.types.mapM (resolveType index)
    return (path, ⟨functions, types⟩)

/-! ### Building -/

/-- The last of several entries with one key, where equal keys stand side by side. -/
def lastOfEach {α : Type} : List (Text × α) → List (Text × α)
  | [] => []
  | [entry] => [entry]
  | first :: second :: rest =>
    if first.1 == second.1 then lastOfEach (second :: rest)
    else first :: lastOfEach (second :: rest)

/-- Entries in the order of their keys; entries with one key keep their order. -/
def sortByKey {α : Type} (entries : List (Text × α)) : List (Text × α) :=
  entries.mergeSort fun a b => Text.notAfter a.1 b.1

/-- The registry of files given in the order of their paths. -/
def ofParsed (parsed : List (Text × ParsedFile)) : Registry :=
  let (index, faults) := indexFiles [] parsed
  let files := (lastOfEach parsed).map fun (path, file) => (path, file.docs)
  let (files, unresolved) := (files.mapM (resolveFile index)).run []
  let winners := fun (t : TypeDoc) => index.lookup t.name == some t.location
  { files
    types := (files.flatMap (·.2.types)).filter winners
    diagnostics := faults ++ unresolved }

/-- The registry of files given by path and content, in any order. -/
def ofSources (sources : List (Text × Text)) : Registry :=
  ofParsed (sortByKey (sources.map fun (path, content) => (path, .ofContent path content)))

/-! ### Looking up -/

def file? (r : Registry) (path : Text) : Option FileDocs :=
  r.files.lookup path

/-- The declaration that a type name stands for. -/
def type? (r : Registry) (name : Text) : Option TypeDoc :=
  r.types.find? (·.name == name)

/-- The functions of a file that are for its users. -/
def exposedFunctions (r : Registry) (path : Text) : List FunctionDoc :=
  match r.file? path with
  | some docs => docs.functions.filter (·.visibility == .exposed)
  | none => []

end Registry

end LuaDocs
