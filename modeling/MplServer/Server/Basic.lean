import MplServer.Json.Basic
import MplServer.Path.Basic
import MplServer.Project.Settings
import MplServer.Uri.File
import MplServer.Build.Run

/-!
The state of a language server, what surrounds it, and what it says to its client.
-/

namespace MplServer

inductive Severity where
  | error
  | info
  | log
deriving DecidableEq, Repr

/-- What a server sends to its client of its own accord. -/
inductive Message where
  | log (severity : Severity) (text : String)
  /-- A message for the user. -/
  | notice (severity : Severity) (text : String)
  /-- A request for the settings that apply to a directory. -/
  | configuration (scope : Uri)
deriving DecidableEq, Repr

/-- What surrounds a server: the file system, the client's answer to requests for settings, where
none is an error, and the way processes are started. -/
structure World where
  files : FileSystem
  reply : Option (List Json)
  launch : Launcher

/-- How far a server has come. Requests are answered only while it is ready. -/
inductive Phase where
  | fresh
  | ready
  | stopped
deriving DecidableEq, Repr

structure Server where
  /-- A client listens. -/
  connected : Bool
  phase : Phase
  /-- The texts of the open documents by their URIs. -/
  documents : List (String × String)
  /-- The workspace folders in the order in which the client named them. -/
  folders : List Path
  /-- The settings the client has sent for the whole workspace. -/
  clientSettings : Json
  /-- The settings of the user's own file, as it was when the server was made. -/
  userSettings : Json
  /-- The document opened or changed last. -/
  lastActive : Option Uri
  /-- The client answers requests for settings. -/
  answersConfiguration : Bool
deriving Repr

namespace Server

def name : String := "MPL Language Server"

def version : String := "0.3.0"

/-- The command that builds the project a document belongs to. -/
def buildCommand : String := "mpl.buildProject"

def forClient (userSettings : Json) : Server where
  connected := true
  phase := .fresh
  documents := []
  folders := []
  clientSettings := .null
  userSettings
  lastActive := none
  answersConfiguration := false

/-- A server without a client, with its folders already open. -/
def detached (folders : List Path) : Server where
  connected := false
  phase := .fresh
  documents := []
  folders
  clientSettings := .null
  userSettings := .null
  lastActive := none
  answersConfiguration := false

/-- Messages reach a client only if there is one. -/
def send (server : Server) (messages : List Message) : List Message :=
  if server.connected then messages else []

def document? (server : Server) (uri : String) : Option String :=
  server.documents.lookup uri

def bind (name text : String) (documents : List (String × String)) : List (String × String) :=
  (name, text) :: documents.filter fun entry => entry.1 ≠ name

def unbind (name : String) (documents : List (String × String)) : List (String × String) :=
  documents.filter fun entry => entry.1 ≠ name

/-- The directory for which the client is asked for settings, if it is asked at all. -/
def configurationScope? (server : Server) (root : Path) : Option Uri :=
  if server.connected && server.answersConfiguration then Uri.ofDirectory? root else none

/-- The first item of the client's answer, when it was asked and its answer is a list with one. -/
def scopedLayer? (server : Server) (world : World) (root : Path) : Option Json := do
  let _ ← server.configurationScope? root
  let values ← world.reply
  values.head?

/-- The settings for a project root: the client's for its directory, the client's for the whole
workspace, the user's. -/
def settingsFor (server : Server) (world : World) (root : Path) : Settings :=
  .ofLayers ((server.scopedLayer? world root).toList ++
    [server.clientSettings, server.userSettings])

/-- The request for settings that goes out when the settings of a root are put together. -/
def configurationRequests (server : Server) (root : Path) : List Message :=
  (server.configurationScope? root).toList.map .configuration

end Server

end MplServer
