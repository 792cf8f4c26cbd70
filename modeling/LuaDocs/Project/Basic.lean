import LuaDocs.Project.Config
import LuaDocs.Section.Store

/-!
# Projects

A project is a directory with sources, a README and a help file. Where each of them is follows from the
settings of the project file and, where it has none, from the name of the module; that name in turn may
be told by the directory of the sources.
-/

namespace LuaDocs

/-- Why a project cannot be set up. -/
inductive ConfigError where
  /-- The project file cannot be read. -/
  | io (path : Path) (error : IoError)
  /-- The project file is invalid, in the words of the reader of such files. -/
  | parse (path : Path) (fault : Text)
  /-- Nothing tells the name of the module. -/
  | missingModule (sourceDir : Path)
  deriving DecidableEq

namespace ConfigError

def message : ConfigError → Text
  | io path error => "failed to read ".toList ++ path ++ ": ".toList ++ error.message
  | parse path fault => "failed to parse ".toList ++ path ++ ": ".toList ++ fault
  | missingModule dir =>
    "cannot determine the module name under ".toList ++ dir ++
      "; set \x60module\x60 or pass --module".toList

end ConfigError

namespace Config

/-- The project file of a directory, if it has one. -/
def find? (fs : FileSystem) (root : Path) : Option Path :=
  let path := root.join fileName
  if fs.isFile path then some path else none

variable [Toml.Reader]

def parse (path : Path) (s : Text) : Except ConfigError Config :=
  match ofText s with
  | .ok config => .ok config
  | .error fault => .error (.parse path fault)

def load (fs : FileSystem) (path : Path) : Except ConfigError Config :=
  match fs.readText path with
  | .ok s => parse path s
  | .error e => .error (.io path e)

/-- The settings of the project file of a directory, or none at all if it has no such file. -/
def discover (fs : FileSystem) (root : Path) : Except ConfigError Config :=
  match find? fs root with
  | some path => load fs path
  | none => .ok empty

end Config

/-- Where the default options of a module are written. -/
structure OptionsSource where
  file : Path
  markers : Markers
  deriving DecidableEq

/-- A project with all its settings. -/
structure Project where
  root : Path
  moduleName : Text
  sourceDir : Path
  /-- The file that holds the interface, below the source directory. -/
  apiFile : Text
  readme : Path
  helpFile : Path
  options : Option OptionsSource
  exclude : List Text
  denyWarnings : Bool
  layout : Layout
  deriving DecidableEq

namespace Project

def onlyDirectory? (fs : FileSystem) (dir : Path) : Option Text := do
  let position ← fs.directory? dir
  guard (fs.may .read position)
  match (fs.children position).filter (fun name => fs.isDirectory (dir.join name)) with
  | [name] => some name
  | _ => none

/-- Where the default options are: where the settings say, or in the usual file if the module has
it. -/
def optionsSource (fs : FileSystem) (sourceDir : Path) (moduleName : Text) :
    Option OptionsConfig → Option OptionsSource
  | some options => some ⟨sourceDir.join options.file, options.markers⟩
  | none =>
    let file := (sourceDir.join moduleName).join "config.lua".toList
    if fs.isFile file then some ⟨file, OptionsConfig.defaultMarkers⟩ else none

/-- The project in a directory with some settings. The name of the module is `override`, or that of the
settings, or that of the only directory of sources. -/
def resolve (fs : FileSystem) (root : Path) (config : Config) (override : Option Text) :
    Except ConfigError Project :=
  let sourceDir := root.join (config.sourceDir.getD "lua".toList)
  match (override.or config.moduleName).or (onlyDirectory? fs sourceDir) with
  | none => .error (.missingModule sourceDir)
  | some moduleName => .ok {
      root
      moduleName
      sourceDir
      apiFile := config.apiFile.getD (moduleName ++ "/init.lua".toList)
      readme := root.join (config.readme.getD "README.md".toList)
      helpFile :=
        root.join (config.helpFile.getD ("doc/".toList ++ moduleName ++ ".txt".toList))
      options := optionsSource fs sourceDir moduleName config.options
      exclude := config.exclude
      denyWarnings := config.denyWarnings
      layout := config.layout }

/-- The name of the help file, which is also its tag. -/
def helpName (p : Project) : Text :=
  p.helpFile.fileName?.getD (p.moduleName ++ ".txt".toList)

end Project

end LuaDocs
