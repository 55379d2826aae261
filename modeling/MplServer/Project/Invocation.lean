import MplServer.Path.Lexical
import MplServer.Project.Configuration
import MplServer.Project.Settings

/-!
Compiler invocations: the arguments a configuration asks for, in a fixed order.
-/

namespace MplServer

/-- A command line: the program and its arguments. -/
structure Invocation where
  words : List String
deriving DecidableEq, Repr

namespace Invocation

def program (invocation : Invocation) : String :=
  invocation.words.head?.getD ""

def arguments (invocation : Invocation) : List String :=
  invocation.words.drop 1

/-- A word as it is shown: in quotes when there is a blank in it. -/
def shown (word : String) : String :=
  if word.toList.any Text.isBlank then "\"" ++ word ++ "\"" else word

/-- The command line as it is shown, with a space between words. -/
def display (invocation : Invocation) : String :=
  Text.joinWith ' ' (invocation.words.map shown)

end Invocation

/-- The choices behind a command line, with everything that was left open filled in. -/
structure BuildPlan where
  compiler : String
  debug : Bool
  metaInfo : Bool
  includes : List String
  triple : Option String
  output : String
  entryPoint : String
deriving DecidableEq, Repr

namespace BuildPlan

/-- A configuration completed from the settings. What the configuration sets counts, even when it
is empty; an empty target triple is none. -/
def of (configuration : Configuration) (settings : Settings) : BuildPlan where
  compiler := configuration.compilerPath.getD settings.compilerPath
  debug := configuration.debug.getD false
  metaInfo := configuration.metaInfo.getD false
  includes := configuration.includePaths.getD settings.includePaths
  triple := configuration.triple.filter (· ≠ "")
  output := configuration.output
  entryPoint := configuration.entryPoint

/-- The command line for a project at `root`, where the compiler runs: include directories and the
entry point are written relative to it, the output is passed on as it is. -/
def invocation (root : Path) (plan : BuildPlan) : Invocation :=
  ⟨[plan.compiler] ++
    (if plan.debug then [] else ["-ndebug"]) ++
    (if plan.metaInfo then ["-meta-info"] else []) ++
    plan.includes.flatMap (fun directory => ["-I", root.relativeTo directory]) ++
    (match plan.triple with
      | some triple => ["-triple", triple]
      | none => []) ++
    ["-o", plan.output, root.relativeTo plan.entryPoint]⟩

end BuildPlan

def Configuration.invocation (configuration : Configuration) (root : Path) (settings : Settings) :
    Invocation :=
  (BuildPlan.of configuration settings).invocation root

end MplServer
