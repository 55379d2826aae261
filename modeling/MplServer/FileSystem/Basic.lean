import MplServer.Path.Basic

/-!
File systems as values: a tree of files, links and directories, and the directory relative paths
start from. A path is followed step by step, links included.
-/

namespace MplServer

abbrev Bytes := List UInt8

inductive FileError where
  | notFound
  /-- A file that cannot be run as a program. -/
  | badFormat
  | permissionDenied
  | notADirectory
  | isADirectory
  | nameTooLong
  | tooManyLinks
  | notUtf8
  | embeddedNul
  | nulInCommand
deriving DecidableEq, Repr

namespace FileError

def reason : FileError → String
  | .notFound => "No such file or directory"
  | .badFormat => "Exec format error"
  | .permissionDenied => "Permission denied"
  | .notADirectory => "Not a directory"
  | .isADirectory => "Is a directory"
  | .nameTooLong => "File name too long"
  | .tooManyLinks => "Too many levels of symbolic links"
  | .notUtf8 => "stream did not contain valid UTF-8"
  | .embeddedNul => "file name contained an unexpected NUL byte"
  | .nulInCommand => "nul byte found in provided data"

/-- The number of an error that the operating system reports. -/
def number? : FileError → Option Nat
  | .notFound => some 2
  | .badFormat => some 8
  | .permissionDenied => some 13
  | .notADirectory => some 20
  | .isADirectory => some 21
  | .nameTooLong => some 36
  | .tooManyLinks => some 40
  | .notUtf8 => none
  | .embeddedNul => none
  | .nulInCommand => none

/-- The wording of an error, with its number if it has one. -/
def message (cause : FileError) : String :=
  match cause.number? with
  | some number => cause.reason ++ " (os error " ++ toString number ++ ")"
  | none => cause.reason

end FileError

/-- A file, a link or a directory. Of the permissions only the one to run a file is kept: everything
may be read, listed and written. There are no sockets, pipes or devices. -/
inductive Node where
  | file (contents : Bytes) (executable : Bool)
  /-- A symbolic link with the text of its target. -/
  | symlink (target : String)
  | directory (entries : List (String × Node))
deriving Repr, Inhabited

/-- The names from the root of the tree to one of its nodes. -/
abbrev Place := List String

namespace Node

/-- The node a list of names leads to; links are not followed. -/
def at? : Node → Place → Option Node
  | node, [] => some node
  | .directory entries, name :: rest =>
      match entries.lookup name with
      | some node => node.at? rest
      | none => none
  | _, _ :: _ => none

/-- Takes steps from a place, which must be a directory as long as steps are left. A link on the
way hands its target and the steps behind it to `expand`; a link in the last step does so unless
`keepLink` is set. With `allowFresh` the last step may name an entry that does not exist. -/
def travel (root : Node) (keepLink allowFresh : Bool)
    (expand : Place → String → List String → Except FileError Place) :
    Place → List String → Except FileError Place
  | place, [] => .ok place
  | place, step :: rest =>
      match root.at? place with
      | none => .error .notFound
      | some (.directory entries) =>
          if step = "." then root.travel keepLink allowFresh expand place rest
          else if step = ".." then root.travel keepLink allowFresh expand place.dropLast rest
          else
            match entries.lookup step with
            | some (.symlink target) =>
                if keepLink && rest.isEmpty then .ok (place ++ [step])
                else expand place target rest
            | some _ => root.travel keepLink allowFresh expand (place ++ [step]) rest
            | none =>
                if 255 < step.utf8ByteSize then .error .nameTooLong
                else if allowFresh && rest.isEmpty then .ok (place ++ [step])
                else .error .notFound
      | some _ => .error .notADirectory

end Node

/-- The steps a path text asks for. A slash at the end asks for a directory, as a dot does. -/
def stepsOf (text : String) : List String :=
  let named := (Text.splitAt '/' text).filter (· ≠ "")
  if text.toList.getLast? == some '/' then named ++ ["."] else named

/-- Takes steps from a place and follows at most `links` links. A link's own steps start at the
root if its target is absolute, else in the directory that holds it. -/
def Node.follow (root : Node) (keepLink allowFresh : Bool) :
    Nat → Place → List String → Except FileError Place
  | 0 => root.travel keepLink allowFresh fun _ _ _ => .error .tooManyLinks
  | links + 1 =>
      root.travel keepLink allowFresh fun place target rest =>
        root.follow keepLink allowFresh links
          (if (Path.mk target).isAbsolute then [] else place) (stepsOf target ++ rest)

/-- A tree and the directory in it that relative paths start from. -/
structure FileSystem where
  root : Node
  workingDirectory : Place
deriving Repr, Inhabited

namespace FileSystem

/-- At most this many links are followed on one path. -/
def maxLinks : Nat := 40

/-- A path is at most this many bytes long. -/
def maxPathSize : Nat := 4095

/-- The place a path leads to. -/
def locate (files : FileSystem) (path : Path) (keepLink allowFresh : Bool := false) :
    Except FileError Place :=
  if path.text.toList.contains '\x00' then .error .embeddedNul
  else if path.text.isEmpty then .error .notFound
  else if maxPathSize < path.text.utf8ByteSize then .error .nameTooLong
  else
    files.root.follow keepLink allowFresh maxLinks
      (if path.isAbsolute then [] else files.workingDirectory) (stepsOf path.text)

/-- The node a path leads to, links followed. -/
def find (files : FileSystem) (path : Path) : Except FileError Node := do
  let place ← files.locate path
  match files.root.at? place with
  | some node => return node
  | none => throw .notFound

/-- Something is there. A path that cannot be followed counts as missing. -/
def has (files : FileSystem) (path : Path) : Bool :=
  match files.find path with
  | .ok _ => true
  | .error _ => false

def isFile (files : FileSystem) (path : Path) : Bool :=
  match files.find path with
  | .ok (.file _ _) => true
  | _ => false

def read (files : FileSystem) (path : Path) : Except FileError Bytes := do
  match ← files.find path with
  | .file contents _ => return contents
  | .directory _ => throw .isADirectory
  | .symlink _ => throw .tooManyLinks

/-- The text a byte sequence encodes. -/
def textOf? (contents : Bytes) : Option String :=
  String.fromUTF8? ⟨contents.toArray⟩

def readText (files : FileSystem) (path : Path) : Except FileError String := do
  match textOf? (← files.read path) with
  | some text => return text
  | none => throw .notUtf8

def currentDirectory (files : FileSystem) : Path :=
  ⟨"/" ++ Text.joinWith '/' files.workingDirectory⟩

end FileSystem

end MplServer
