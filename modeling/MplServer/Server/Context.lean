import MplServer.Definition.Resolver
import MplServer.FileSystem.Update
import MplServer.Project.Invocation
import MplServer.Server.Basic
import MplServer.Text.Basic

/-!
Requests on a file: its project is found first, then a definition is looked up or a build is run.
-/

namespace MplServer

/-- The project a file belongs to and the settings that apply there. -/
structure Context where
  root : Path
  settings : Settings
deriving Repr

/-- A place as a client is told about it. -/
structure ClientLocation where
  uri : Uri
  line : Nat
  column : Nat
deriving DecidableEq, Repr

/-- A place with its path written as a URI, which only an absolute path can be. -/
def Location.forClient? (location : Location) : Option ClientLocation :=
  (Uri.ofPath? location.path).map fun uri => ⟨uri, location.line, location.column⟩

namespace Server

/-- The context of a file, and the messages sent while it is put together. -/
def context (server : Server) (world : World) (file : Path) :
    Except ProjectError Context × List Message :=
  match Project.findRoot world.files file with
  | .error cause => (.error cause, [])
  | .ok root => (.ok ⟨root, server.settingsFor world root⟩, server.configurationRequests root)

def sourceExtension : String := "mpl"

/-- The text of a document: what the client has open, else what its file holds. -/
def textOf? (server : Server) (files : FileSystem) (uri : Uri) (path : Path) : Option String :=
  match server.document? uri.text with
  | some text => some text
  | none => (files.readText path).toOption

/-- The file and the symbol that a position in a document stands for. -/
def symbolAt? (server : Server) (files : FileSystem) (uri : Uri) (line column : Nat) :
    Option (Path × String) := do
  let path ← uri.toPath?
  if path.extension? ≠ some sourceExtension then none
  let text ← server.textOf? files uri path
  let symbol ← Text.identifierAt text line column
  return (path, symbol)

/-- The definitions of the symbol at a position, and the messages sent on the way. There is no
answer when nothing is found. -/
def definition (server : Server) (world : World) (uri : Uri) (line column : Nat) :
    Option (List ClientLocation) × List Message :=
  match server.symbolAt? world.files uri line column with
  | none => (none, [])
  | some (path, symbol) =>
      match server.context world path with
      | (.error _, messages) => (none, messages)
      | (.ok context, messages) =>
          let found := Definition.lookup world.files context.root server.folders symbol
          let locations := found.filterMap Location.forClient?
          (if locations.isEmpty then none else some locations, messages)

/-! ## Builds -/

/-- A build that is ready to run: where, and with what command line. -/
structure Prepared where
  root : Path
  invocation : Invocation
deriving DecidableEq, Repr

/-- Prepares the build of the project a document belongs to; without a document it is the one that
was active last. On failure there is a message. Either way, messages may have been sent. -/
def prepare (server : Server) (world : World) (target : Option Uri) :
    Except String Prepared × List Message :=
  match target.or server.lastActive with
  | none => (.error "No editor", [])
  | some uri =>
      match uri.toPath? with
      | none => (.error (uri.text ++ " is not a file"), [])
      | some path =>
          match server.context world path with
          | (.error cause, messages) => (.error cause.message, messages)
          | (.ok context, messages) =>
              match Project.loadConfiguration world.files context.root with
              | .error cause => (.error cause.message, messages)
              | .ok configuration =>
                  (.ok ⟨context.root, configuration.invocation context.root context.settings⟩,
                    messages)

/-- Starts a prepared build in its root. -/
def start (world : World) (prepared : Prepared) : Except FileError (Run × FileSystem) :=
  let name := prepared.root.text
  if (name :: prepared.invocation.words).any fun word => word.toList.contains '\x00' then
    .error .nulInCommand
  else
    match world.files.enter prepared.root with
    | .error cause => .error cause
    | .ok files =>
        (world.launch files prepared.invocation).map fun (run, files) =>
          (run, { files with workingDirectory := world.files.workingDirectory })

/-- The result of a build: how it ended, what was sent, and the files it left. -/
structure BuildReport where
  outcome : BuildOutcome
  messages : List Message
  files : FileSystem

/-- How a build that could not be started is reported. -/
def notStarted (reason : String) : BuildOutcome × Message :=
  let message := "Failed to run command: " ++ reason
  (.notStarted message, .notice .error message)

/-- How a finished run is reported: a line for the log and a message for the user. -/
def finished (run : Run) : BuildOutcome × List Message :=
  if run.code = 0 then
    (.succeeded,
      [.log .log "Process finished with exit code 0", .notice .info "Build succeeded"])
  else
    let message := "Process exited with code " ++ toString run.code
    (.failed run.code, [.log .log message, .notice .error message])

/-- Builds a project: the command line is announced, the lines of the compiler are passed on, and
the outcome is shown to the user. -/
def build (server : Server) (world : World) (target : Option Uri) : BuildReport :=
  match server.prepare world target with
  | (.error reason, asked) =>
      let (outcome, message) := notStarted reason
      ⟨outcome, asked ++ server.send [message], world.files⟩
  | (.ok prepared, asked) =>
      let announced := .log .log ("Running: " ++ prepared.invocation.display)
      match start world prepared with
      | .error cause =>
          let (outcome, message) := notStarted (launchMessage cause)
          ⟨outcome, asked ++ server.send [announced, .log .log (launchMessage cause), message],
            world.files⟩
      | .ok (run, files) =>
          let (outcome, closing) := finished run
          ⟨outcome, asked ++ server.send ([announced] ++ run.lines.map (.log .log) ++ closing),
            files⟩

end Server

end MplServer
