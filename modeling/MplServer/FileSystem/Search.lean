import MplServer.FileSystem.Basic

/-!
The search for a file in directory trees: every tree is walked in the order of its file names, and
the first file that is accepted wins.
-/

namespace MplServer

/-- A name is hidden if it begins with a dot, whatever it ends with. -/
def isHidden (name : String) : Bool :=
  name.toList.head? == some '.'

namespace Node

mutual

/-- The names that lead to the visible files at or below a node. Entries come in the order of their
names, the contents of a directory at its place; hidden entries and links are left out. -/
def visibleFiles : Node → List Place
  | .file _ _ => [[]]
  | .symlink _ => []
  | .directory entries =>
      ((visibleEntries entries).mergeSort fun left right => decide (left.1 ≤ right.1)).flatMap
        fun entry => entry.2.map (entry.1 :: ·)

/-- The visible entries of a directory, each with its own visible files. -/
def visibleEntries : List (String × Node) → List (String × List Place)
  | [] => []
  | (name, node) :: rest =>
      if isHidden name then visibleEntries rest
      else (name, node.visibleFiles) :: visibleEntries rest

end

end Node

namespace FileSystem

/-- The directory in which the last of the names stands can be listed: its path is not too long. -/
def listed (root : Path) (names : Place) : Bool :=
  (names.dropLast.foldl Path.child root).text.utf8ByteSize ≤ maxPathSize

/-- The visible files under a search root, each as the root's path followed by names. The root
itself may be hidden or a link. The path `-` stands for standard input and holds no files. -/
def filesUnder (files : FileSystem) (root : Path) : List Path :=
  if root.sameAs ⟨"-"⟩ then []
  else
    match files.find root with
    | .ok node =>
        (node.visibleFiles.filter (listed root)).map fun names => names.foldl Path.child root
    | .error _ => []

/-- The first visible file that is accepted, from the first root that has one. -/
def search (files : FileSystem) (roots : List Path) (accepts : Path → Bool) : Option Path :=
  roots.findSome? fun root => (files.filesUnder root).find? accepts

end FileSystem

end MplServer
