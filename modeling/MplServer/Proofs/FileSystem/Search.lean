import MplServer.FileSystem.Search
import MplServer.Proofs.FileSystem.Located

/-!
# What a search meets

A walk meets the files to which names lead that are not hidden. A link is followed only at the root
of the walk, so every file that is met lies where its path leads.
-/

namespace MplServer

namespace Node

theorem mem_visibleEntries_iff
    (entries : List (String × Node)) (visible : String × List Place) :
    visible ∈ visibleEntries entries ↔
      isHidden visible.1 = false ∧
        ∃ node, (visible.1, node) ∈ entries ∧ visible.2 = node.visibleFiles := by
  induction entries with
  | nil => simp [visibleEntries]
  | cons entry others inductionHypothesis =>
      obtain ⟨name, node⟩ := entry
      rw [visibleEntries]
      by_cases hidden : isHidden name = true
      · rw [if_pos hidden, inductionHypothesis]
        constructor
        · rintro ⟨shown, inner, member, files_eq⟩
          exact ⟨shown, inner, List.mem_cons_of_mem _ member, files_eq⟩
        · rintro ⟨shown, inner, member, files_eq⟩
          rcases List.mem_cons.mp member with same | later
          · rw [(Prod.mk.inj same).1, hidden] at shown
            cases shown
          · exact ⟨shown, inner, later, files_eq⟩
      · rw [if_neg hidden, List.mem_cons, inductionHypothesis]
        constructor
        · rintro (rfl | ⟨shown, inner, member, files_eq⟩)
          · exact ⟨by simpa using hidden, node, List.mem_cons_self, rfl⟩
          · exact ⟨shown, inner, List.mem_cons_of_mem _ member, files_eq⟩
        · rintro ⟨shown, inner, member, files_eq⟩
          rcases List.mem_cons.mp member with same | later
          · obtain ⟨sameName, rfl⟩ := Prod.mk.inj same
            exact Or.inl (Prod.ext sameName files_eq)
          · exact Or.inr ⟨shown, inner, later, files_eq⟩

theorem cons_mem_visibleFiles_iff
    (entries : List (String × Node)) (name : String) (rest : Place) :
    name :: rest ∈ (Node.directory entries).visibleFiles ↔
      isHidden name = false ∧
        ∃ node, (name, node) ∈ entries ∧ rest ∈ node.visibleFiles := by
  simp only [visibleFiles, List.mem_flatMap, List.mem_mergeSort, List.mem_map,
    List.cons.injEq, mem_visibleEntries_iff]
  constructor
  · rintro ⟨⟨_, below⟩, ⟨shown, node, member, rfl⟩, _, inBelow, rfl, rfl⟩
    exact ⟨shown, node, member, inBelow⟩
  · rintro ⟨shown, node, member, inBelow⟩
    exact ⟨⟨name, node.visibleFiles⟩, ⟨shown, node, member, rfl⟩, rest, inBelow, rfl, rfl⟩

/-- The names that lead to visible files, read off the tree. -/
theorem mem_visibleFiles_iff
    {node : Node} {names : Place}
    (lawful : node.Lawful) :
    names ∈ node.visibleFiles ↔
      (∀ name ∈ names, isHidden name = false) ∧
        ∃ contents executable, node.at? names = some (.file contents executable) := by
  induction names generalizing node with
  | nil =>
      cases node with
      | file contents executable => simp [visibleFiles, at?]
      | symlink target => simp [visibleFiles, at?]
      | directory entries => simp [visibleFiles, at?]
  | cons name rest inductionHypothesis =>
      cases lawful with
      | file contents executable => simp [visibleFiles, at?]
      | symlink noNul => simp [visibleFiles, at?]
      | @directory entries distinct named below =>
          rw [cons_mem_visibleFiles_iff, List.forall_mem_cons, and_assoc]
          refine and_congr_right fun _ => ⟨?_, ?_⟩
          · rintro ⟨next, member, inNext⟩
            have found := lookup_eq_some_of_mem distinct member
            rw [at?_cons_of_lookup found]
            exact (inductionHypothesis (below _ member)).mp inNext
          · rintro ⟨shown, contents, executable, reached⟩
            obtain ⟨_, next, same, found, onward⟩ := exists_lookup_of_at?_cons reached
            cases same
            have member := mem_of_lookup_eq_some found
            exact ⟨next, member,
              (inductionHypothesis (below _ member)).mpr
                ⟨shown, contents, executable, onward⟩⟩

end Node

namespace FileSystem

/-- Names that are not hidden lead from a root to a regular file. Only the root may be a link. -/
def VisibleAt (files : FileSystem) (root : Path) (names : Place) : Prop :=
  (∀ name ∈ names, isHidden name = false) ∧
    ∃ place contents executable,
      files.locate root = .ok place ∧
        files.root.at? (place ++ names) = some (.file contents executable)

/-- A visible file below a root, by its path. -/
def Visible (files : FileSystem) (root path : Path) : Prop :=
  ∃ names, files.VisibleAt root names ∧ path = names.foldl Path.child root

/-- A search that starts at a root meets a visible file, unless the root stands for standard input
or the directory that holds the file has too long a path. -/
def Meets (files : FileSystem) (root path : Path) : Prop :=
  root.sameAs ⟨"-"⟩ = false ∧
    ∃ names,
      files.VisibleAt root names ∧ listed root names = true ∧
        path = names.foldl Path.child root

/-- Names lead a search that starts at a root to a file that it meets. -/
structure MeetsAt (files : FileSystem) (root : Path) (names : Place) : Prop where
  notStandardInput : root.sameAs ⟨"-"⟩ = false
  visible : files.VisibleAt root names
  inList : listed root names = true

/-- The names of the files that a search meets when it starts at a root, in its order. -/
def namesUnder (files : FileSystem) (root : Path) : List Place :=
  if root.sameAs ⟨"-"⟩ then []
  else
    match files.find root with
    | .ok node => node.visibleFiles.filter (listed root)
    | .error _ => []

variable {files : FileSystem} {root path : Path} {names : Place}

theorem meets_iff_exists_meetsAt :
    files.Meets root path ↔
      ∃ names, files.MeetsAt root names ∧ path = names.foldl Path.child root := by
  constructor
  · rintro ⟨notStandardInput, names, visible, inList, rfl⟩
    exact ⟨names, ⟨notStandardInput, visible, inList⟩, rfl⟩
  · rintro ⟨names, ⟨notStandardInput, visible, inList⟩, rfl⟩
    exact ⟨notStandardInput, names, visible, inList, rfl⟩

theorem filesUnder_eq_map_namesUnder (files : FileSystem) (root : Path) :
    files.filesUnder root =
      (files.namesUnder root).map fun names => names.foldl Path.child root := by
  unfold filesUnder namesUnder
  split
  · rfl
  · cases files.find root with
    | ok node => rfl
    | error cause => rfl

theorem find_of_locate
    {place : Place} (located : files.locate root = .ok place) :
    files.find root =
      match files.root.at? place with
      | some node => .ok node
      | none => .error .notFound := by
  unfold find
  rw [located]
  rfl

theorem mem_namesUnder_iff
    (lawful : files.root.Lawful) :
    names ∈ files.namesUnder root ↔ files.MeetsAt root names := by
  unfold namesUnder
  by_cases standardInput : root.sameAs ⟨"-"⟩ = true
  · rw [if_pos standardInput]
    refine iff_of_false List.not_mem_nil fun meetsAt => ?_
    rw [meetsAt.notStandardInput] at standardInput
    cases standardInput
  rw [if_neg standardInput]
  rw [Bool.not_eq_true] at standardInput
  cases found : files.find root with
  | error cause =>
      refine iff_of_false List.not_mem_nil fun meetsAt => ?_
      obtain ⟨_, place, contents, executable, located, reached⟩ := meetsAt.visible
      rw [find_of_locate located] at found
      rw [Node.at?_append] at reached
      cases there : files.root.at? place with
      | none => simp [there] at reached
      | some node => simp [there] at found
  | ok node =>
      obtain ⟨place, located, there⟩ := find_eq_ok_iff.mp found
      rw [List.mem_filter, Node.mem_visibleFiles_iff (lawful.at? there).1]
      constructor
      · rintro ⟨⟨shown, contents, executable, reached⟩, inList⟩
        refine ⟨standardInput, ⟨shown, place, contents, executable, located, ?_⟩, inList⟩
        rw [Node.at?_append, there, Option.bind_some, reached]
      · rintro ⟨_, ⟨shown, other, contents, executable, located', reached⟩, inList⟩
        obtain rfl : place = other := Except.ok.inj (located.symm.trans located')
        rw [Node.at?_append, there, Option.bind_some] at reached
        exact ⟨⟨shown, contents, executable, reached⟩, inList⟩

theorem mem_filesUnder_iff
    (lawful : files.root.Lawful) :
    path ∈ files.filesUnder root ↔ files.Meets root path := by
  rw [filesUnder_eq_map_namesUnder, List.mem_map, meets_iff_exists_meetsAt]
  simp only [mem_namesUnder_iff lawful, eq_comm]

theorem VisibleAt.legal
    (lawful : files.root.Lawful)
    (visible : files.VisibleAt root names) :
    ∀ name ∈ names, LegalName name := by
  obtain ⟨_, place, contents, executable, _, reached⟩ := visible
  rw [Node.at?_append] at reached
  cases there : files.root.at? place with
  | none => simp [there] at reached
  | some node =>
      rw [there, Option.bind_some] at reached
      exact ((lawful.at? there).1.at? reached).2

/-- Visible files are where their paths lead. -/
theorem VisibleAt.holdsFile
    (lawful : files.root.Lawful)
    (visible : files.VisibleAt root names) :
    '\x00' ∉ (names.foldl Path.child root).text.toList ∧
      files.HoldsFile (names.foldl Path.child root) := by
  have legal := visible.legal lawful
  obtain ⟨shown, place, contents, executable, located, reached⟩ := visible
  obtain ⟨noNul, short, leads⟩ := locate_eq_ok_iff.mp located
  have parts := reached
  rw [Node.at?_append] at parts
  cases there : files.root.at? place with
  | none => simp [there] at parts
  | some node =>
      rw [there, Option.bind_some] at parts
      exact ⟨noNul_foldl_child noNul legal, place ++ names, contents, executable,
        leads.foldl_child there parts legal, reached⟩

/-- What a search meets is a file, also for a check of its path unless that is too long. -/
theorem Meets.isFile
    (lawful : files.root.Lawful)
    (meets : files.Meets root path) :
    files.HoldsFile path ∧
      (path.text.utf8ByteSize ≤ maxPathSize → files.isFile path = true) := by
  obtain ⟨_, names, visible, _, rfl⟩ := meets
  obtain ⟨noNul, holds⟩ := visible.holdsFile lawful
  exact ⟨holds, fun short => isFile_eq_true_iff.mpr ⟨noNul, short, holds⟩⟩

/-- A search takes the first accepted file of the walks, one root after the other. -/
theorem search_eq_find?
    (files : FileSystem) (roots : List Path) (accepts : Path → Bool) :
    files.search roots accepts = (roots.flatMap files.filesUnder).find? accepts := by
  induction roots with
  | nil => rfl
  | cons root others inductionHypothesis =>
      rw [search, List.findSome?_cons, List.flatMap_cons, List.find?_append]
      cases (files.filesUnder root).find? accepts with
      | some path => rfl
      | none => exact inductionHypothesis

end FileSystem

end MplServer
