import MplServer.FileSystem.Basic
import MplServer.Toml.Reader

/-!
Settings in layers: a key is answered by the first layer that gives it a value. The settings of a
user are kept in a TOML file outside all projects.
-/

namespace MplServer

/-- Settings that apply to one directory, highest priority first. Every layer is an object. -/
structure Settings where
  layers : List Json
deriving Repr

namespace Settings

/-- The section that holds the keys below. -/
def sectionName : String := "compiler"

def compilerPathKey : String := "compilerPath"

def includePathKey : String := "includePath"

/-- The compiler that is run when nothing names one. -/
def defaultCompiler : String := "mplc"

/-- Layers that are not objects say nothing and are dropped. -/
def ofLayers (layers : List Json) : Settings :=
  ⟨layers.filter Json.isObject⟩

/-- The first value for a key; null counts as none. -/
def get? (settings : Settings) (key : String) : Option Json :=
  settings.layers.findSome? fun layer => (layer.get? key).filter fun value => !value.isNull

/-- The compiler to run. A value that is no string gives the default. -/
def compilerPath (settings : Settings) : String :=
  match settings.get? compilerPathKey with
  | some (.string path) => path
  | _ => defaultCompiler

/-- The directories to include: the strings of a list, or a single string. -/
def includePaths (settings : Settings) : List String :=
  match settings.get? includePathKey with
  | some (.array items) => items.filterMap Json.text?
  | some (.string path) => [path]
  | _ => []

/-- The section of a payload sent by a client, which may be the section itself or an object around
it. -/
def clientSection (payload : Json) : Json :=
  let bare :=
    if (payload.get? compilerPathKey).isSome || (payload.get? includePathKey).isSome then payload
    else .null
  match payload.get? sectionName with
  | some inner => if inner.isObject then inner else bare
  | none => bare

/-! ## The settings of a user -/

/-- The settings file of a user. A directory for configurations is honoured when it is absolute;
otherwise the one in the home directory is used. -/
def userFile (home : String) (configurations : Option String) : Path :=
  let standard : Path := (Path.mk home).child ".config"
  let directory : Path := match configurations with
    | some text => if (Path.mk text).isAbsolute then ⟨text⟩ else standard
    | none => standard
  (directory.child "mpl").child "settings.toml"

/-- The section of the settings in a text; null when there is none or the text is not TOML. -/
def ofUserText (text : String) : Json :=
  match Toml.parse? text with
  | some document => ((document.get? sectionName).map Toml.toJson).getD .null
  | none => .null

/-- The settings in a user's file. A file that cannot be read holds none. -/
def loadUser (files : FileSystem) (path : Path) : Json :=
  match files.readText path with
  | .ok text => ofUserText text
  | .error _ => .null

end Settings

end MplServer
