import MplServer.FileSystem.Search

/-!
# Outlines

The outline of a tree is what is left of it when the contents of its files are forgotten. Where
paths lead, which files there are and what a search meets depend on the outline alone.
-/

namespace MplServer

namespace Node

mutual

/-- The tree with every file emptied. -/
def outline : Node → Node
  | .file _ _ => .file [] false
  | .symlink target => .symlink target
  | .directory entries => .directory (outlineEntries entries)

/-- The entries of a directory with every file emptied. -/
def outlineEntries : List (String × Node) → List (String × Node)
  | [] => []
  | (name, node) :: rest => (name, node.outline) :: outlineEntries rest

end

theorem lookup_outlineEntries (entries : List (String × Node)) (name : String) :
    (outlineEntries entries).lookup name = (entries.lookup name).map outline := by
  induction entries with
  | nil => rfl
  | cons entry others inductionHypothesis =>
      rw [outlineEntries, List.lookup_cons, List.lookup_cons, inductionHypothesis]
      cases name == entry.1 <;> rfl

theorem at?_outline (node : Node) (names : Place) :
    node.outline.at? names = (node.at? names).map outline := by
  induction names generalizing node with
  | nil => cases node <;> rfl
  | cons name rest inductionHypothesis =>
      cases node with
      | file contents executable => rfl
      | symlink target => rfl
      | directory entries =>
          rw [outline, at?, at?, lookup_outlineEntries]
          cases entries.lookup name with
          | none => rfl
          | some next => exact inductionHypothesis next

theorem travel_outline
    (root : Node) (keepLink allowFresh : Bool)
    (expand : Place → String → List String → Except FileError Place)
    (place : Place) (steps : List String) :
    root.outline.travel keepLink allowFresh expand place steps =
      root.travel keepLink allowFresh expand place steps := by
  induction steps generalizing place with
  | nil => rfl
  | cons step rest inductionHypothesis =>
      rw [travel, travel, at?_outline]
      cases root.at? place with
      | none => rfl
      | some node =>
          cases node with
          | file contents executable => rfl
          | symlink target => rfl
          | directory entries =>
              simp only [Option.map_some, outline, lookup_outlineEntries,
                inductionHypothesis]
              cases entries.lookup step with
              | none => rfl
              | some next => cases next <;> rfl

theorem follow_outline
    (root : Node) (keepLink allowFresh : Bool)
    (links : Nat) (place : Place) (steps : List String) :
    root.outline.follow keepLink allowFresh links place steps =
      root.follow keepLink allowFresh links place steps := by
  induction links generalizing place steps with
  | zero => exact travel_outline ..
  | succ fewer inductionHypothesis =>
      rw [follow, follow, travel_outline]
      simp only [inductionHypothesis]

mutual

theorem visibleFiles_outline : ∀ node : Node, node.outline.visibleFiles = node.visibleFiles
  | .file _ _ => rfl
  | .symlink _ => rfl
  | .directory entries => by
      rw [outline, visibleFiles, visibleFiles, visibleEntries_outlineEntries entries]

theorem visibleEntries_outlineEntries :
    ∀ entries : List (String × Node),
      visibleEntries (outlineEntries entries) = visibleEntries entries
  | [] => rfl
  | (name, node) :: rest => by
      rw [outlineEntries, visibleEntries, visibleEntries, visibleFiles_outline node,
        visibleEntries_outlineEntries rest]

end

end Node

namespace FileSystem

/-- The file system with every file emptied. -/
def outline (files : FileSystem) : FileSystem :=
  { files with root := files.root.outline }

theorem locate_outline (files : FileSystem) (path : Path) :
    files.outline.locate path = files.locate path := by
  unfold locate
  simp only [outline, Node.follow_outline]

theorem find_outline (files : FileSystem) (path : Path) :
    files.outline.find path = (files.find path).map Node.outline := by
  unfold find
  rw [locate_outline]
  cases files.locate path with
  | error cause => rfl
  | ok place =>
      simp only [bind, Except.bind, outline, Node.at?_outline]
      cases files.root.at? place <;> rfl

theorem isFile_outline (files : FileSystem) (path : Path) :
    files.outline.isFile path = files.isFile path := by
  unfold isFile
  rw [find_outline]
  cases files.find path with
  | error cause => rfl
  | ok node => cases node <;> rfl

theorem filesUnder_outline (files : FileSystem) (root : Path) :
    files.outline.filesUnder root = files.filesUnder root := by
  unfold filesUnder
  rw [find_outline]
  cases files.find root with
  | error cause => rfl
  | ok node => simp only [Except.map, Node.visibleFiles_outline]

theorem search_outline
    (files : FileSystem) (roots : List Path) (accepts : Path → Bool) :
    files.outline.search roots accepts = files.search roots accepts := by
  simp only [search, filesUnder_outline]

end FileSystem

end MplServer
