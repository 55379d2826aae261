import MplServer.Project.Configuration

/-!
Project discovery: a file belongs to the nearest directory at or above its own that holds an
`mpl.json`. A bounded number of directories is looked at.
-/

namespace MplServer

/-- Why a request on a file is given up. -/
inductive ProjectError where
  /-- No directory within reach holds a configuration. -/
  | noProject (file : Path)
  /-- The project's configuration could not be loaded. -/
  | unloadable (root : Path) (cause : ConfigurationError)
deriving Repr

def ProjectError.message : ProjectError → String
  | .noProject file => "Failed to find project config for " ++ file.text
  | .unloadable root _ => "Failed to parse project config for " ++ root.text

namespace Project

/-- This many directories are looked at, the file's own among them. -/
def maxDirectories : Nat := 10

def configurationPath (directory : Path) : Path :=
  directory.child Configuration.fileName

/-- The first of `count` directories, from the given one upwards, that holds a configuration. -/
def findUpwards (files : FileSystem) : Nat → Path → Option Path
  | 0, _ => none
  | count + 1, directory =>
      if files.has (configurationPath directory) then some directory
      else
        match directory.parent? with
        | some above => if above.text.isEmpty then none else findUpwards files count above
        | none => none

/-- The directory a file lies in; a bare name lies in the working directory. -/
def directoryOf (file : Path) : Path :=
  match file.parent? with
  | some directory => if directory.text.isEmpty then ⟨"."⟩ else directory
  | none => ⟨"."⟩

/-- The root of the project a file belongs to. -/
def findRoot (files : FileSystem) (file : Path) : Except ProjectError Path :=
  match findUpwards files maxDirectories (directoryOf file) with
  | some root => .ok root
  | none => .error (.noProject file)

def loadConfiguration (files : FileSystem) (root : Path) : Except ProjectError Configuration :=
  (Configuration.load files root).mapError (.unloadable root)

end Project

end MplServer
