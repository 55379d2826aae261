import MplServer.FileSystem.Basic

/-!
Changes to a file system: files are written, directories and links made, entries removed.
-/

namespace MplServer

/-- The entries with one name bound anew; a new name comes last. -/
def setEntry (name : String) (node : Node) : List (String × Node) → List (String × Node)
  | [] => [(name, node)]
  | (other, old) :: rest =>
      if other = name then (name, node) :: rest else (other, old) :: setEntry name node rest

namespace Node

/-- The tree with `node` at a place. Directories missing on the way are made; a place below a file
or a link cannot be reached and changes nothing. -/
def put (node : Node) : Node → Place → Node
  | _, [] => node
  | .directory entries, name :: rest =>
      let below := (entries.lookup name).getD (.directory [])
      .directory (setEntry name (node.put below rest) entries)
  | other, _ :: _ => other

def remove : Node → Place → Node
  | .directory entries, [name] => .directory (entries.filter fun entry => entry.1 ≠ name)
  | .directory entries, name :: rest =>
      match entries.lookup name with
      | some node => .directory (setEntry name (node.remove rest) entries)
      | none => .directory entries
  | other, _ => other

end Node

namespace FileSystem

def put (files : FileSystem) (place : Place) (node : Node) : FileSystem :=
  { files with root := node.put files.root place }

/-- A file with new contents. Its directory must exist; a file that is there keeps its permission
to run unless a new one is given. -/
def write (files : FileSystem) (path : Path) (contents : Bytes)
    (executable : Option Bool := none) : Except FileError FileSystem := do
  let place ← files.locate path false true
  match files.root.at? place with
  | some (.directory _) => throw .isADirectory
  | some (.file _ old) => return files.put place (.file contents (executable.getD old))
  | _ => return files.put place (.file contents (executable.getD false))

/-- A directory at a path, together with the directories above it that are missing. -/
def makeDirectories (files : FileSystem) (path : Path) : Except FileError FileSystem :=
  (List.range path.components.length).foldlM (fun (files : FileSystem) count => do
    let place ← files.locate (Path.ofComponents (path.components.take (count + 1))) false true
    match files.root.at? place with
    | some (.directory _) => return files
    | some _ => throw .notADirectory
    | none => return files.put place (.directory [])) files

/-- A symbolic link in place of whatever the path names. Its target is a text that a path could
have. -/
def makeLink (files : FileSystem) (path : Path) (target : String) :
    Except FileError FileSystem :=
  if target.toList.contains '\x00' then .error .embeddedNul
  else if target.isEmpty then .error .notFound
  else do
    let place ← files.locate path true true
    return files.put place (.symlink target)

/-- The entry a path names is taken away, with everything below it. -/
def remove (files : FileSystem) (path : Path) : Except FileError FileSystem := do
  let place ← files.locate path true
  return { files with root := files.root.remove place }

/-- The file system as seen after a change of the working directory. -/
def enter (files : FileSystem) (path : Path) : Except FileError FileSystem := do
  let place ← files.locate path
  match files.root.at? place with
  | some (.directory _) => return { files with workingDirectory := place }
  | some _ => throw .notADirectory
  | none => throw .notFound

end FileSystem

end MplServer
