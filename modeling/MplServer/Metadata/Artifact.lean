import MplServer.Metadata.Basic
import MplServer.Project.Discovery

/-!
The metadata file of a project, which the compiler writes next to its output.
-/

namespace MplServer

/-- Why there is no metadata. -/
inductive MetadataError where
  | missing (path : Path)
  | unreadable (cause : FileError)
  /-- The text that is no metadata, and its fault. -/
  | malformed (text : String) (fault : Json.Fault)
deriving Repr

def MetadataError.message : MetadataError → String
  | .missing path => "metadata file " ++ path.text ++ " does not exist"
  | .unreadable cause => "failed to read metadata file: " ++ cause.message
  | .malformed text fault => "malformed metadata file: " ++ fault.message text.toList

namespace Metadata

/-- What is appended to the output of a build to name its metadata. -/
def nameEnding : String := ".meta.json"

/-- Where the metadata of a build lies: beside its output, taken from the project root unless it is
absolute. A blank output is named after the entry point. -/
def artifactPath (root : Path) (output entryBase : String) : Path :=
  let name := Text.trim output
  if name.isEmpty then root.child (entryBase ++ nameEnding)
  else if (Path.mk name).isAbsolute then ⟨name ++ nameEnding⟩
  else root.child (name ++ nameEnding)

def load (files : FileSystem) (path : Path) : Except MetadataError Metadata :=
  if files.has path then
    match files.readText path with
    | .error cause => .error (.unreadable cause)
    | .ok text => (parse text).mapError (.malformed text)
  else .error (.missing path)

/-- The metadata of the project at a root. Any failure on the way means that there is none. -/
def ofProject? (files : FileSystem) (root : Path) : Option Metadata := do
  let configuration ← (Project.loadConfiguration files root).toOption
  let path := artifactPath root configuration.output configuration.entryBase
  (load files path).toOption

end Metadata

end MplServer
