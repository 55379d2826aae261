import MplServer.FileSystem.Search
import MplServer.Metadata.Artifact
import MplServer.Path.Lexical

/-!
Recorded paths mapped back to files. The compiler records paths relative to wherever it ran, so a
path is tried below the project root, below the output directory and below the other workspace
folders; after that the trees are searched. The definitions of a symbol are the files its recorded
paths stand for.
-/

namespace MplServer

/-- A way of turning a recorded path into a file. -/
inductive Strategy where
  | projectRoot
  | outputDirectory
  | workspaceFolder
  /-- Any file with the same name. -/
  | fileName
  /-- Any file whose path ends with the recorded one. -/
  | pathSuffix
deriving DecidableEq, Repr

def Strategy.order : List Strategy :=
  [.projectRoot, .outputDirectory, .workspaceFolder, .fileName, .pathSuffix]

/-- A symbol's place in a file, counted from zero, and how the file was found. -/
structure Location where
  path : Path
  line : Nat
  column : Nat
  strategy : Strategy
deriving DecidableEq, Repr

/-! ## Recorded paths -/

/-- A text without the slashes and the dots before slashes that it begins with. -/
def stripLeading : List Char → List Char
  | '.' :: '/' :: rest => stripLeading rest
  | '/' :: rest => stripLeading rest
  | rest => rest

/-- A recorded path with either separator, as a relative path. None if nothing is left of it. -/
def normalizeRecorded? (recorded : String) : Option Path :=
  let unified := recorded.toList.map fun c => if c = '\\' then '/' else c
  let pieces := (Text.splitAt '/' (String.ofList (stripLeading unified))).filter (· ≠ "")
  if pieces.isEmpty then none else some ⟨Text.joinWith '/' pieces⟩

/-- The directory the compiler writes to: the one its output lies in if the output has an
extension, else the output itself. -/
def outputDirectory? (output : String) : Option Path :=
  let target : Path := ⟨Text.trim output⟩
  let directory := if target.extension?.isSome then target.parent? else some target
  directory.filter fun path => path.text ≠ ""

/-! ## Resolution -/

/-- What is needed to resolve the recorded paths of one project. -/
structure Resolver where
  root : Path
  outputDirectory : Option Path
  otherFolders : List Path
  searchRoots : List Path
deriving DecidableEq, Repr

namespace Resolver

/-- The resolver of a project. The root does not count as one of the other folders; it is searched
by itself when it lies in none of the folders. -/
def new (root : Path) (output : String) (folders : List Path) : Resolver where
  root
  outputDirectory := outputDirectory? output
  otherFolders := folders.filter fun folder => !folder.sameAs root
  searchRoots := if folders.any root.startsWith then folders else folders ++ [root]

/-- The files a folder may hold a recorded path as: below it, and below its output directory. -/
def inFolder (resolver : Resolver) (folder recorded : Path) : List Path :=
  folder.join recorded :: resolver.outputDirectory.toList.map fun directory =>
    (folder.join directory).join recorded

/-- The paths a strategy looks at before anything is searched. -/
def candidates (resolver : Resolver) (strategy : Strategy) (recorded : Path) : List Path :=
  let paths := match strategy with
    | .projectRoot => [resolver.root.join recorded]
    | .outputDirectory => (resolver.inFolder resolver.root recorded).drop 1
    | .workspaceFolder => resolver.otherFolders.flatMap (resolver.inFolder · recorded)
    | .fileName => []
    | .pathSuffix => []
  paths.map Path.normalize

/-- The file a single strategy finds. -/
def attempt? (resolver : Resolver) (files : FileSystem) (strategy : Strategy) (recorded : Path) :
    Option Path :=
  match strategy with
  | .fileName => do
      let name ← recorded.fileName?
      files.search resolver.searchRoots fun path => path.fileName? == some name
  | .pathSuffix =>
      files.search resolver.searchRoots fun path =>
        Path.endsOnBoundary path.slashed recorded.slashed
  | direct => (resolver.candidates direct recorded).find? files.isFile

/-- The file a recorded path stands for, and the first strategy that finds it. -/
def resolvePath? (resolver : Resolver) (files : FileSystem) (recorded : String) :
    Option (Path × Strategy) := do
  let path ← normalizeRecorded? recorded
  Strategy.order.findSome? fun strategy =>
    (resolver.attempt? files strategy path).map (·, strategy)

def resolve? (resolver : Resolver) (files : FileSystem) (occurrence : Occurrence) :
    Option Location := do
  let (path, strategy) ← resolver.resolvePath? files occurrence.path
  let (line, column) := occurrence.position
  return { path, line, column, strategy }

end Resolver

/-! ## Definitions -/

/-- The resolver of the project at a root. A configuration that cannot be loaded counts as one
without an output. -/
def Resolver.ofProject (files : FileSystem) (root : Path) (folders : List Path) : Resolver :=
  let output := match Project.loadConfiguration files root with
    | .ok configuration => configuration.output
    | .error _ => ""
  .new root output folders

namespace Definition

/-- The places where a symbol is defined, in the order in which they are recorded. Those that match
no file are left out. -/
def lookup (files : FileSystem) (root : Path) (folders : List Path) (symbol : String) :
    List Location :=
  match Metadata.ofProject? files root with
  | none => []
  | some metadata =>
      (metadata.occurrences symbol).filterMap
        ((Resolver.ofProject files root folders).resolve? files)

end Definition

end MplServer
