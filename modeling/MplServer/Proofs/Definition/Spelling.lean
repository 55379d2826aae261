import Mathlib.Data.List.Find
import MplServer.Proofs.Definition.Coverage
import MplServer.Proofs.Definition.Lookup
import MplServer.Proofs.Project.Spelling

/-!
# Lookups however a root is spelled

A lookup from two spellings of a project's root finds the same places, spelled in two ways. All the
paths that it finds are absolute.
-/

namespace MplServer

namespace Path

theorem fileName?_eq_of_components_eq
    {left right : Path} (same : left.components = right.components) :
    left.fileName? = right.fileName? := by
  rw [fileName?, fileName?, same]

theorem slashed_eq_of_components_eq
    {left right : Path} (same : left.components = right.components) :
    left.slashed = right.slashed := by
  rw [slashed, slashed, same]

theorem isAbsolute_foldl_child
    {path : Path} (absolute : path.isAbsolute = true) (names : List String) :
    (names.foldl child path).isAbsolute = true := by
  induction names generalizing path with
  | nil => exact absolute
  | cons name others inductionHypothesis =>
      rw [List.foldl_cons]
      exact inductionHypothesis (isAbsolute_join_of_isAbsolute absolute ⟨name⟩)

end Path

theorem FileSystem.isAbsolute_of_mem_filesUnder
    {files : FileSystem} {root path : Path}
    (absolute : root.isAbsolute = true) (member : path ∈ files.filesUnder root) :
    path.isAbsolute = true := by
  unfold FileSystem.filesUnder at member
  split at member
  · cases member
  · split at member
    · obtain ⟨names, _, rfl⟩ := List.mem_map.mp member
      exact Path.isAbsolute_foldl_child absolute names
    · cases member

namespace Resolver

variable {files others : FileSystem} {left right : Path} {folders : List Path}
variable {resolver : Resolver} {strategy : Strategy} {recorded found : Path}

/-! ## Absolute paths -/

/-- The root and the folders of a resolver are absolute. -/
structure FromRoot (resolver : Resolver) : Prop where
  root : resolver.root.isAbsolute = true
  folders : ∀ folder ∈ resolver.otherFolders, folder.isAbsolute = true
  searchRoots : ∀ folder ∈ resolver.searchRoots, folder.isAbsolute = true

theorem fromRoot_new
    (rootAbsolute : left.isAbsolute = true)
    (foldersAbsolute : ∀ folder ∈ folders, folder.isAbsolute = true) (output : String) :
    (Resolver.new left output folders).FromRoot where
  root := rootAbsolute
  folders := fun folder member => foldersAbsolute folder (List.mem_of_mem_filter member)
  searchRoots := by
    intro folder member
    rcases mem_searchRoots_cases member with isFolder | ⟨rfl, _⟩
    · exact foldersAbsolute folder isFolder
    · exact rootAbsolute

theorem isAbsolute_of_mem_inFolder
    {folder path : Path}
    (absolute : folder.isAbsolute = true)
    (member : path ∈ resolver.inFolder folder recorded) :
    path.isAbsolute = true := by
  rcases List.mem_cons.mp member with rfl | below
  · exact Path.isAbsolute_join_of_isAbsolute absolute recorded
  · obtain ⟨directory, _, rfl⟩ := List.mem_map.mp below
    apply Path.isAbsolute_join_of_isAbsolute
    exact Path.isAbsolute_join_of_isAbsolute absolute directory

namespace FromRoot

theorem isAbsolute_of_mem_candidates
    {candidate : Path}
    (fromRoot : resolver.FromRoot)
    (member : candidate ∈ resolver.candidates strategy recorded) :
    candidate.isAbsolute = true := by
  obtain ⟨path, inPaths, rfl⟩ := List.mem_map.mp member
  rw [Path.isAbsolute_normalize]
  cases strategy with
  | projectRoot =>
      rw [List.mem_singleton.mp inPaths]
      exact Path.isAbsolute_join_of_isAbsolute fromRoot.root recorded
  | outputDirectory =>
      exact isAbsolute_of_mem_inFolder fromRoot.root (List.mem_of_mem_drop inPaths)
  | workspaceFolder =>
      obtain ⟨folder, isFolder, inFolder⟩ := List.mem_flatMap.mp inPaths
      exact isAbsolute_of_mem_inFolder (fromRoot.folders folder isFolder) inFolder
  | fileName => cases inPaths
  | pathSuffix => cases inPaths

theorem isAbsolute_of_mem_inspected
    (fromRoot : resolver.FromRoot)
    (member : found ∈ resolver.inspected files strategy recorded) :
    found.isAbsolute = true := by
  have ofSearch
      (inTrees : found ∈ resolver.searchRoots.flatMap files.filesUnder) :
      found.isAbsolute = true := by
    obtain ⟨root, isRoot, underRoot⟩ := List.mem_flatMap.mp inTrees
    exact FileSystem.isAbsolute_of_mem_filesUnder (fromRoot.searchRoots root isRoot) underRoot
  have ofCandidates
      (direct : Strategy) (candidate : found ∈ resolver.candidates direct recorded) :
      found.isAbsolute = true :=
    fromRoot.isAbsolute_of_mem_candidates candidate
  cases strategy with
  | projectRoot => exact ofCandidates .projectRoot member
  | outputDirectory => exact ofCandidates .outputDirectory member
  | workspaceFolder => exact ofCandidates .workspaceFolder member
  | fileName => exact ofSearch member
  | pathSuffix => exact ofSearch member

theorem isAbsolute_of_resolvePath?
    {text : String}
    (fromRoot : resolver.FromRoot)
    (resolved : resolver.resolvePath? files text = some (found, strategy)) :
    found.isAbsolute = true := by
  obtain ⟨path, normalized, taken, _⟩ := (resolvePath?_eq_some_iff text).mp resolved
  obtain ⟨_, before, behind, order, _⟩ :=
    (attempt?_eq_some_iff (isRecorded_of_normalizeRecorded? normalized)).mp taken
  have inspected : found ∈ resolver.inspected files strategy path := by
    rw [order]
    exact List.mem_append_right before List.mem_cons_self
  exact fromRoot.isAbsolute_of_mem_inspected inspected

end FromRoot

end Resolver

/-- What a lookup finds are resolved occurrences. -/
theorem exists_resolve?_of_mem_lookup
    {files : FileSystem} {root : Path} {folders : List Path} {symbol : String}
    {location : Location}
    (member : location ∈ Definition.lookup files root folders symbol) :
    ∃ occurrence,
      (Resolver.ofProject files root folders).resolve? files occurrence = some location := by
  unfold Definition.lookup at member
  split at member
  · cases member
  · obtain ⟨occurrence, _, resolved⟩ := List.mem_filterMap.mp member
    exact ⟨occurrence, resolved⟩

theorem Resolver.resolve?_eq_some
    {resolver : Resolver} {files : FileSystem} {occurrence : Occurrence} {location : Location}
    (resolved : resolver.resolve? files occurrence = some location) :
    resolver.resolvePath? files occurrence.path = some (location.path, location.strategy) ∧
      location.line = Occurrence.zeroBased occurrence.line ∧
      location.column = Occurrence.zeroBased occurrence.column := by
  unfold Resolver.resolve? at resolved
  rw [Option.bind_eq_bind, Option.bind_eq_some_iff] at resolved
  obtain ⟨⟨path, strategy⟩, pathResolved, found⟩ := resolved
  obtain rfl := Option.some.inj found
  exact ⟨pathResolved, rfl, rfl⟩

/-- Every path a lookup finds is absolute, if its root and its folders are. -/
theorem isAbsolute_of_mem_lookup
    {files : FileSystem} {root : Path} {folders : List Path} {symbol : String}
    {location : Location}
    (rootAbsolute : root.isAbsolute = true)
    (foldersAbsolute : ∀ folder ∈ folders, folder.isAbsolute = true)
    (member : location ∈ Definition.lookup files root folders symbol) :
    location.path.isAbsolute = true := by
  obtain ⟨occurrence, resolved⟩ := exists_resolve?_of_mem_lookup member
  have fromRoot := Resolver.fromRoot_new rootAbsolute foldersAbsolute
  exact (fromRoot _).isAbsolute_of_resolvePath? (Resolver.resolve?_eq_some resolved).1

theorem Occurrence.zeroBased_le (recorded : Option Int) :
    zeroBased recorded ≤ maxPosition :=
  Nat.min_le_right _ _

/-- Lines and columns that a lookup finds have 32 bits. -/
theorem position_le_of_mem_lookup
    {files : FileSystem} {root : Path} {folders : List Path} {symbol : String}
    {location : Location}
    (member : location ∈ Definition.lookup files root folders symbol) :
    location.line ≤ Occurrence.maxPosition ∧ location.column ≤ Occurrence.maxPosition := by
  obtain ⟨occurrence, resolved⟩ := exists_resolve?_of_mem_lookup member
  obtain ⟨_, line_eq, column_eq⟩ := Resolver.resolve?_eq_some resolved
  rw [line_eq, column_eq]
  exact ⟨Occurrence.zeroBased_le _, Occurrence.zeroBased_le _⟩

/-! ## Two spellings of a root -/

/-- The first item that is accepted, if what is accepted shows in the image. -/
theorem find?_map_eq
    {alpha beta : Type} {f : alpha → beta} {accepts : alpha → Bool}
    (shows : ∀ left right, f left = f right → accepts left = accepts right)
    {left right : List alpha} (same : left.map f = right.map f) :
    (left.find? accepts).map f = (right.find? accepts).map f := by
  induction left generalizing right with
  | nil =>
      rw [List.map_nil, eq_comm, List.map_eq_nil_iff] at same
      rw [same]
  | cons first others inductionHypothesis =>
      cases right with
      | nil => simp at same
      | cons second rest =>
          rw [List.map_cons, List.map_cons, List.cons.injEq] at same
          rw [List.find?_cons, List.find?_cons, shows first second same.1]
          cases accepts second with
          | true => exact congrArg some same.1
          | false => exact inductionHypothesis same.2

/-- Two spellings of a project's root. The artifact of the build is the same for both, and the same
files are listed below both. -/
structure SameProject (files others : FileSystem) (left right : Path) : Prop
    extends Project.SameRoot files others left right where
  absolute : left.isAbsolute = true
  artifact :
    ∀ configuration,
      (Project.loadConfiguration files left).toOption = some configuration →
        (others.find
            (Metadata.artifactPath right configuration.output
              configuration.entryBase)).toOption =
          (files.find
            (Metadata.artifactPath left configuration.output
              configuration.entryBase)).toOption
  listing :
    (files.filesUnder left).map Path.components = (others.filesUnder right).map Path.components

theorem FileSystem.isFile_of_isAbsolute
    {files others : FileSystem} {path : Path}
    (sameTree : others.root = files.root) (absolute : path.isAbsolute = true) :
    others.isFile path = files.isFile path := by
  rw [isFile, isFile, find_of_isAbsolute sameTree absolute]

theorem FileSystem.filesUnder_of_isAbsolute
    {files others : FileSystem} {path : Path}
    (sameTree : others.root = files.root) (absolute : path.isAbsolute = true) :
    others.filesUnder path = files.filesUnder path := by
  rw [filesUnder, filesUnder, find_of_isAbsolute sameTree absolute]

namespace SameProject

variable {files others : FileSystem} {left right : Path} {folders : List Path}
variable {output : String} {strategy : Strategy} {recorded : Path}

theorem rightAbsolute
    (sameProject : SameProject files others left right) : right.isAbsolute = true := by
  rw [← Path.isAbsolute_eq_of_components_eq sameProject.same, sameProject.absolute]

theorem normalize_join_join
    (sameProject : SameProject files others left right) (directory next : Path) :
    ((left.join directory).join next).normalize =
      ((right.join directory).join next).normalize := by
  have leftBelow := Path.isAbsolute_join_of_isAbsolute sameProject.absolute directory
  have rightBelow := Path.isAbsolute_join_of_isAbsolute sameProject.rightAbsolute directory
  apply Path.normalize_join_eq
  · exact Path.components_join_eq sameProject.same sameProject.leftNonempty
      sameProject.rightNonempty directory
  · exact Path.text_ne_empty_of_isAbsolute leftBelow
  · exact Path.text_ne_empty_of_isAbsolute rightBelow

/-- Candidates are looked at in normal form, so they are the same for both spellings. -/
theorem candidates_eq
    (sameProject : SameProject files others left right) :
    (Resolver.new left output folders).candidates strategy recorded =
      (Resolver.new right output folders).candidates strategy recorded := by
  have sameFolders :
      (Resolver.new left output folders).otherFolders =
        (Resolver.new right output folders).otherFolders := by
    apply List.filter_congr
    intro folder _
    rw [Path.sameAs, Path.sameAs, sameProject.same]
  unfold Resolver.candidates
  cases strategy with
  | projectRoot =>
      have direct :=
        Path.normalize_join_eq sameProject.same sameProject.leftNonempty
          sameProject.rightNonempty recorded
      exact congrArg (fun path => [path]) direct
  | outputDirectory =>
      simp [Resolver.inFolder, Resolver.new, sameProject.normalize_join_join]
  | workspaceFolder =>
      dsimp only
      rw [sameFolders]
      rfl
  | fileName => rfl
  | pathSuffix => rfl

/-- A search lists the same files for both spellings. -/
theorem map_search
    {accepts : Path → Bool}
    (sameTree : others.root = files.root)
    (sameProject : SameProject files others left right)
    (foldersAbsolute : ∀ folder ∈ folders, folder.isAbsolute = true)
    (shows : ∀ path other, path.components = other.components → accepts path = accepts other) :
    (files.search (Resolver.new left output folders).searchRoots accepts).map Path.components =
      (others.search (Resolver.new right output folders).searchRoots accepts).map
        Path.components := by
  have sameAbove : ∀ folder, left.startsWith folder = right.startsWith folder := by
    intro folder
    rw [Path.startsWith, Path.startsWith, sameProject.same]
  have sameFolders : folders.flatMap files.filesUnder = folders.flatMap others.filesUnder := by
    apply List.flatMap_congr
    intro folder member
    rw [FileSystem.filesUnder_of_isAbsolute sameTree (foldersAbsolute folder member)]
  rw [FileSystem.search_eq_find?, FileSystem.search_eq_find?]
  apply find?_map_eq shows
  unfold Resolver.new
  dsimp only
  rw [List.any_congr rfl sameAbove]
  split
  · rw [sameFolders]
  · rw [List.flatMap_append, List.flatMap_append, List.map_append, List.map_append,
      List.flatMap_singleton, List.flatMap_singleton, sameFolders, sameProject.listing]

theorem map_attempt?
    (sameTree : others.root = files.root)
    (sameProject : SameProject files others left right)
    (foldersAbsolute : ∀ folder ∈ folders, folder.isAbsolute = true) :
    ((Resolver.new left output folders).attempt? files strategy recorded).map
        Path.components =
      ((Resolver.new right output folders).attempt? others strategy recorded).map
        Path.components := by
  have fromRoot := Resolver.fromRoot_new sameProject.absolute foldersAbsolute output
  have ofCandidates (direct : Strategy) :
      ((Resolver.new left output folders).candidates direct recorded).find? files.isFile =
        ((Resolver.new right output folders).candidates direct recorded).find?
          others.isFile := by
    rw [← sameProject.candidates_eq]
    apply List.find?_congr
    intro candidate member
    rw [FileSystem.isFile_of_isAbsolute sameTree
      (fromRoot.isAbsolute_of_mem_candidates member)]
  cases strategy with
  | projectRoot => exact congrArg (Option.map Path.components) (ofCandidates .projectRoot)
  | outputDirectory =>
      exact congrArg (Option.map Path.components) (ofCandidates .outputDirectory)
  | workspaceFolder =>
      exact congrArg (Option.map Path.components) (ofCandidates .workspaceFolder)
  | fileName =>
      unfold Resolver.attempt?
      cases recorded.fileName? with
      | none => rfl
      | some name =>
          apply sameProject.map_search sameTree foldersAbsolute
          intro path other same
          rw [Path.fileName?_eq_of_components_eq same]
  | pathSuffix =>
      apply sameProject.map_search sameTree foldersAbsolute
      intro path other same
      rw [Path.slashed_eq_of_components_eq same]

theorem map_resolvePath?
    (sameTree : others.root = files.root)
    (sameProject : SameProject files others left right)
    (foldersAbsolute : ∀ folder ∈ folders, folder.isAbsolute = true)
    (output text : String) :
    ((Resolver.new left output folders).resolvePath? files text).map
        (fun found => found.1.components) =
      ((Resolver.new right output folders).resolvePath? others text).map
        (fun found => found.1.components) := by
  unfold Resolver.resolvePath?
  cases normalizeRecorded? text with
  | none => simp only [Option.bind_eq_bind, Option.bind_none]
  | some path =>
      rw [Option.bind_eq_bind, Option.bind_some, Option.bind_some, List.map_findSome?,
        List.map_findSome?]
      congr 1
      funext strategy
      have same :=
        @map_attempt? files others left right folders output strategy path sameTree
          sameProject foldersAbsolute
      simpa [Function.comp_def] using same

end SameProject

/-- Where a location is, however its path is spelled. -/
def Location.whereabouts (location : Location) : List Path.Component × Nat × Nat :=
  (location.path.components, location.line, location.column)

variable {files others : FileSystem} {left right : Path} {folders : List Path}

theorem SameProject.map_located?
    (sameTree : others.root = files.root)
    (sameProject : SameProject files others left right)
    (foldersAbsolute : ∀ folder ∈ folders, folder.isAbsolute = true)
    (output : String) (item : Json) :
    (located? files (.new left output folders) item).map Location.whereabouts =
      (located? others (.new right output folders) item).map Location.whereabouts := by
  unfold located?
  cases Occurrence.ofJson? item with
  | none => simp only [Option.bind_eq_bind, Option.bind_none]
  | some occurrence =>
      have same :=
        sameProject.map_resolvePath? sameTree foldersAbsolute output occurrence.path
      cases resolved : (Resolver.new left output folders).resolvePath? files occurrence.path with
      | none =>
          rw [resolved, Option.map_none, eq_comm, Option.map_eq_none_iff] at same
          simp [resolved, same]
      | some found =>
          rw [resolved, Option.map_some, eq_comm, Option.map_eq_some_iff] at same
          obtain ⟨other, alsoResolved, sameComponents⟩ := same
          simp [resolved, alsoResolved, Location.whereabouts, sameComponents]

theorem lookup_eq_getD
    (files : FileSystem) (root : Path) (folders : List Path) (symbol : String) :
    Definition.lookup files root folders symbol =
      ((Project.loadConfiguration files root).toOption.bind fun configuration =>
        (files.readText
            (Metadata.artifactPath root configuration.output
              configuration.entryBase)).toOption.bind fun text =>
          (Metadata.parse text).toOption.map fun metadata =>
            (itemsOf symbol metadata.globals).filterMap
              (located? files (.new root configuration.output folders))).getD [] := by
  rw [lookup_eq]
  cases Project.loadConfiguration files root with
  | error cause => rfl
  | ok configuration =>
      dsimp only [Except.toOption, Option.bind_some]
      cases files.readText
          (Metadata.artifactPath root configuration.output configuration.entryBase) with
      | error cause => rfl
      | ok text =>
          dsimp only [Option.bind_some]
          cases Metadata.parse text <;> rfl

theorem lookup_of_document
    {root : Path} {configuration : Configuration} {text : String} {metadata : Metadata}
    (loaded : (Project.loadConfiguration files root).toOption = some configuration)
    (read :
      files.readText
          (Metadata.artifactPath root configuration.output configuration.entryBase) = .ok text)
    (parsed : Metadata.parse text = .ok metadata) (symbol : String) :
    Definition.lookup files root folders symbol =
      (itemsOf symbol metadata.globals).filterMap
        (located? files (.new root configuration.output folders)) := by
  rw [lookup_eq_getD, loaded, Option.bind_some, read, Except.toOption, Option.bind_some, parsed,
    Except.toOption, Option.map_some, Option.getD_some]

/-- A lookup from two spellings of a root finds the same places. -/
theorem SameProject.map_lookup
    (sameTree : others.root = files.root)
    (sameProject : SameProject files others left right)
    (foldersAbsolute : ∀ folder ∈ folders, folder.isAbsolute = true) (symbol : String) :
    (Definition.lookup files left folders symbol).map Location.whereabouts =
      (Definition.lookup others right folders symbol).map Location.whereabouts := by
  rw [lookup_eq_getD, lookup_eq_getD, sameProject.toSameRoot.toOption_loadConfiguration]
  cases loaded : (Project.loadConfiguration files left).toOption with
  | none => rw [Option.bind_none, Option.bind_none]
  | some configuration =>
      have sameText :
          (others.readText
              (Metadata.artifactPath right configuration.output
                configuration.entryBase)).toOption =
            (files.readText
              (Metadata.artifactPath left configuration.output
                configuration.entryBase)).toOption := by
        rw [FileSystem.toOption_readText, FileSystem.toOption_readText,
          sameProject.artifact configuration loaded]
      rw [Option.bind_some, Option.bind_some, sameText]
      cases (files.readText
          (Metadata.artifactPath left configuration.output
            configuration.entryBase)).toOption with
      | none => rw [Option.bind_none, Option.bind_none]
      | some text =>
          rw [Option.bind_some, Option.bind_some]
          cases (Metadata.parse text).toOption with
          | none => rw [Option.map_none, Option.map_none]
          | some metadata =>
              rw [Option.map_some, Option.map_some, Option.getD_some, Option.getD_some,
                List.map_filterMap, List.map_filterMap]
              apply List.filterMap_congr
              intro item _
              exact sameProject.map_located? sameTree foldersAbsolute configuration.output item

end MplServer
