import MplServer.FileSystem.Update
import MplServer.Json.Basic
import MplServer.Text.Utf8

/-!
Trees described entry by entry. Entries are placed in their order, each together with the
directories above it. An entry may be written as a JSON object: the field `path` says where; `text`,
`hex`, `link`, `dir` and `remove` say what, and `exec` marks a file that can be run.
-/

namespace MplServer

/-- What is to be at a path. -/
inductive Content where
  | file (contents : Bytes) (executable : Bool)
  | link (target : String)
  | directory
  | nothing
deriving Repr

/-- One line of the description of a tree. -/
structure Entry where
  path : Path
  content : Content
deriving Repr

namespace FileSystem

/-- The file system with the directories above a path. -/
def makeAncestors (files : FileSystem) (path : Path) : Except FileError FileSystem :=
  match path.parent? with
  | some above => if above.text.isEmpty then .ok files else files.makeDirectories above
  | none => .ok files

def place (files : FileSystem) (entry : Entry) : Except FileError FileSystem :=
  match entry.content with
  | .nothing => files.remove entry.path
  | .directory => files.makeDirectories entry.path
  | .link target => do (← files.makeAncestors entry.path).makeLink entry.path target
  | .file contents executable => do
      (← files.makeAncestors entry.path).write entry.path contents (some executable)

/-- The file system with entries placed one after the other. An entry that cannot be placed changes
nothing. -/
def placeAll (files : FileSystem) (entries : List Entry) : FileSystem :=
  entries.foldl (fun files entry => (files.place entry).toOption.getD files) files

end FileSystem

/-! ## Entries as JSON -/

namespace Json

/-- The text of a member; one that is missing or no text is empty. -/
def textAt (value : Json) (name : String) : String :=
  ((value.get? name).bind text?).getD ""

/-- A member is the value true. -/
def holds (value : Json) (name : String) : Bool :=
  match value.get? name with
  | some (.boolean flag) => flag
  | _ => false

end Json

def hexValue (c : Char) : UInt8 :=
  if c.isDigit then (c.toNat - 48).toUInt8 else (c.toLower.toNat - 87).toUInt8

def bytesOfHex : List Char → Bytes
  | high :: low :: rest => (hexValue high * 16 + hexValue low) :: bytesOfHex rest
  | _ => []

/-- The entry a JSON object describes. Without a content it is an empty file. -/
def Entry.ofJson (value : Json) : Entry where
  path := ⟨value.textAt "path"⟩
  content :=
    if value.holds "remove" then .nothing
    else if value.holds "dir" then .directory
    else
      match (value.get? "link").bind Json.text?, (value.get? "hex").bind Json.text? with
      | some target, _ => .link target
      | none, some digits => .file (bytesOfHex digits.toList) (value.holds "exec")
      | none, none => .file (Text.encode (value.textAt "text")) (value.holds "exec")

end MplServer
