import MplServer.Server.Context

/-!
Sessions: what a client may send, and what a server does about it.
-/

namespace MplServer

/-- What a client says about itself when a session begins. -/
structure Greeting where
  /-- The workspace folders, if the client has such a list. -/
  folders : Option (List Uri)
  root : Option Uri
  options : Option Json
  answersConfiguration : Bool
deriving Repr

inductive Event where
  | greeting (greeting : Greeting)
  | initialized
  | opened (uri : Uri) (text : String)
  /-- The texts a document had one after the other. -/
  | changed (uri : Uri) (texts : List String)
  | closed (uri : Uri)
  | foldersChanged (added removed : List Uri)
  | settingsChanged (payload : Json)
  | definition (uri : Uri) (line column : Nat)
  | command (name : String) (arguments : List Json)
  | shutdown
deriving Repr

inductive Refusal where
  | notInitialized
  | invalidRequest
  | unknownCommand (name : String)
deriving DecidableEq, Repr

def Refusal.code : Refusal → Int
  | .notInitialized => -32002
  | .invalidRequest => -32600
  | .unknownCommand _ => -32602

def Refusal.message : Refusal → String
  | .notInitialized => "Server not initialized"
  | .invalidRequest => "Invalid request"
  | .unknownCommand name => "unknown command: " ++ name

inductive Answer where
  | nothing
  | greeted
  | locations (locations : List ClientLocation)
  | refused (refusal : Refusal)
deriving DecidableEq, Repr

/-- What an event leads to: the server afterwards, its answer, what it sent meanwhile, and the
files. -/
structure Response where
  server : Server
  answer : Answer
  messages : List Message
  files : FileSystem

namespace Server

/-- The folders a greeting names: its list, or its root when there is no list or an empty one.
Those that are no files are left out. -/
def greetedFolders (greeting : Greeting) : List Path :=
  match greeting.folders with
  | some (first :: rest) => (first :: rest).filterMap Uri.toPath?
  | _ => (greeting.root.bind Uri.toPath?).toList

/-- The folders after some were added and removed: those not removed stay in their order, and the
added ones follow unless they are there already. -/
def updatedFolders (folders added removed : List Path) : List Path :=
  added.foldl
    (fun folders folder => if folders.any folder.sameAs then folders else folders ++ [folder])
    (folders.filter fun folder => !removed.any folder.sameAs)

def greet (server : Server) (greeting : Greeting) : Server :=
  { server with
    phase := .ready
    folders := greetedFolders greeting
    clientSettings := match greeting.options with
      | some options => Settings.clientSection options
      | none => server.clientSettings
    answersConfiguration := greeting.answersConfiguration }

/-- The answer to a request outside a session. -/
def refusal (phase : Phase) : Refusal :=
  match phase with
  | .fresh => .notInitialized
  | _ => .invalidRequest

/-- The document a command names, if its first argument is a URI. -/
def commandTarget? (arguments : List Json) : Option Uri := do
  let text ← (← arguments.head?).text?
  Uri.parse? text

/-- What a ready server does about an event. -/
def handleReady (server : Server) (world : World) : Event → Response
  | .greeting _ => ⟨server, .refused .invalidRequest, [], world.files⟩
  | .initialized =>
      let text := name ++ " initialized! " ++ toString server.folders.length ++
        " workspace folder(s)"
      ⟨server, .nothing, server.send [.log .info text], world.files⟩
  | .opened uri text =>
      ⟨{ server with documents := bind uri.text text server.documents, lastActive := some uri },
        .nothing, server.send [.log .info ("Opened file: " ++ uri.text)], world.files⟩
  | .changed uri texts =>
      let documents := match texts.getLast? with
        | some text => bind uri.text text server.documents
        | none => server.documents
      ⟨{ server with documents, lastActive := some uri }, .nothing, [], world.files⟩
  | .closed uri =>
      ⟨{ server with documents := unbind uri.text server.documents }, .nothing,
        server.send [.log .info ("Closed file: " ++ uri.text)], world.files⟩
  | .foldersChanged added removed =>
      let folders := updatedFolders server.folders (added.filterMap Uri.toPath?)
        (removed.filterMap Uri.toPath?)
      ⟨{ server with folders }, .nothing, [], world.files⟩
  | .settingsChanged payload =>
      ⟨{ server with clientSettings := Settings.clientSection payload }, .nothing, [], world.files⟩
  | .definition uri line column =>
      match server.definition world uri line column with
      | (some locations, messages) => ⟨server, .locations locations, messages, world.files⟩
      | (none, messages) => ⟨server, .nothing, messages, world.files⟩
  | .command command arguments =>
      if command = buildCommand then
        let report := server.build world (commandTarget? arguments)
        ⟨server, .nothing, report.messages, report.files⟩
      else ⟨server, .refused (.unknownCommand command), [], world.files⟩
  | .shutdown => ⟨{ server with phase := .stopped }, .nothing, [], world.files⟩

/-- What a server does about an event. One that is not ready refuses requests and drops everything
else; only a fresh one can be greeted. -/
def handle (server : Server) (world : World) (event : Event) : Response :=
  if server.phase = .ready then server.handleReady world event
  else
    match event with
    | .greeting greeting =>
        if server.phase = .fresh then ⟨server.greet greeting, .greeted, [], world.files⟩
        else ⟨server, .refused .invalidRequest, [], world.files⟩
    | .definition .. => ⟨server, .refused (refusal server.phase), [], world.files⟩
    | .command .. => ⟨server, .refused (refusal server.phase), [], world.files⟩
    | .shutdown => ⟨server, .refused (refusal server.phase), [], world.files⟩
    | _ => ⟨server, .nothing, [], world.files⟩

end Server

end MplServer
