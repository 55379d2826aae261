import MplServer.Definition.Resolver
import MplServer.Project.Invocation

/-!
The command line: the invocation for the project of a file, and the definitions of a symbol, each
printed line by line.
-/

namespace MplServer

/-- What can be asked for on the command line. -/
inductive Command where
  /-- The compiler invocation for the project that a file belongs to. -/
  | arguments (file : Path)
  /-- The definitions of a symbol in the project that a file belongs to. -/
  | definition (file : Path) (symbol : String)
deriving DecidableEq, Repr

namespace Command

/-- The option that chooses how much is logged. It changes nothing that is printed. -/
def logOption : List Char := ['-', '-', 'l', 'o', 'g', '-', 'l', 'e', 'v', 'e', 'l']

/-- The words that are left when the options are taken away. After a `--` there are no options. -/
def positional : List String → List String
  | [] => []
  | word :: rest =>
      if word = "--" then rest
      else if word.toList = logOption then
        match rest with
        | _ :: more => positional more
        | [] => []
      else if (logOption ++ ['=']).isPrefixOf word.toList then positional rest
      else word :: positional rest

def parse? (words : List String) : Option Command :=
  match positional words with
  | ["args", file] => some (.arguments ⟨file⟩)
  | ["definition", file, symbol] => some (.definition ⟨file⟩ symbol)
  | _ => none

/-- What a command prints, and its exit code. -/
structure Report where
  output : List String
  complaints : List String
  code : Nat
deriving DecidableEq, Repr

def Report.success (output : List String) : Report :=
  ⟨output, [], 0⟩

def Report.failure (complaint : String) : Report :=
  ⟨[], [complaint], 1⟩

/-- The words of the invocation for the project of a file. -/
def listArguments (files : FileSystem) (settings : Settings) (file : Path) :
    Except ProjectError (List String) := do
  let root ← Project.findRoot files file
  let configuration ← Project.loadConfiguration files root
  return (configuration.invocation root settings).words

/-- A number counted from one. The sum has 32 bits and wraps around. -/
def oneBased (number : Nat) : Nat :=
  (number + 1) % Nat.pow 2 32

/-- A place as it is printed, counted from one. -/
def placeText (location : Location) : String :=
  location.path.text ++ ":" ++ toString (oneBased location.line) ++ ":" ++
    toString (oneBased location.column)

/-- The definitions of a symbol. The working directory is the only workspace folder. -/
def listDefinitions (files : FileSystem) (file : Path) (symbol : String) :
    Except ProjectError (List Location) := do
  let root ← Project.findRoot files file
  return Definition.lookup files root [files.currentDirectory] symbol

/-- Carries a command out in the working directory. A file is first made absolute, since the search
for its project goes upwards. -/
def run (files : FileSystem) (settings : Settings) : Command → Report
  | .arguments file =>
      match listArguments files settings (Path.absolute files.currentDirectory file) with
      | .ok words => .success words
      | .error cause => .failure cause.message
  | .definition file symbol =>
      match listDefinitions files (Path.absolute files.currentDirectory file) symbol with
      | .error cause => .failure cause.message
      | .ok [] => .failure ("no definition found for " ++ symbol)
      | .ok locations => .success (locations.map placeText)

end Command

end MplServer
