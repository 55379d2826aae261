import MplServer.Proofs.Definition.Spelling
import MplServer.Proofs.Metadata.Artifact

/-!
# Room for the paths of a project

From two spellings of a file one comes to two spellings of its project's root, if each path that is
looked at on the way to a definition is short enough to be followed in both.
-/

namespace MplServer

namespace Path

theorem components_foldl_child_eq
    {left right : Path}
    (same : left.components = right.components)
    (absolute : left.isAbsolute = true) (names : List String) :
    (names.foldl child left).components = (names.foldl child right).components := by
  induction names generalizing left right with
  | nil => exact same
  | cons name others inductionHypothesis =>
      have rightAbsolute := absolute
      rw [isAbsolute_eq_of_components_eq same] at rightAbsolute
      rw [List.foldl_cons, List.foldl_cons]
      apply inductionHypothesis
      · exact components_join_eq same (text_ne_empty_of_isAbsolute absolute)
          (text_ne_empty_of_isAbsolute rightAbsolute) ⟨name⟩
      · exact isAbsolute_join_of_isAbsolute absolute ⟨name⟩

theorem sameAs_dash_of_isAbsolute
    {path : Path} (absolute : path.isAbsolute = true) : path.sameAs ⟨"-"⟩ = false := by
  rw [sameAs, decide_eq_false_iff_not, components_of_isAbsolute absolute]
  intro same
  have dash : (⟨"-"⟩ : Path).components = [.name "-"] := by
    decide
  rw [dash] at same
  cases same

end Path

/-- Below two spellings of a directory the same files are listed, if all of them are. -/
theorem FileSystem.map_components_filesUnder
    {files others : FileSystem} {left right : Path} {node : Node}
    (absolute : left.isAbsolute = true)
    (same : left.components = right.components)
    (found : files.find left = .ok node) (alsoFound : others.find right = .ok node)
    (allListed : ∀ names ∈ node.visibleFiles, listed left names = true)
    (alsoListed : ∀ names ∈ node.visibleFiles, listed right names = true) :
    (files.filesUnder left).map Path.components =
      (others.filesUnder right).map Path.components := by
  have rightAbsolute := absolute
  rw [Path.isAbsolute_eq_of_components_eq same] at rightAbsolute
  have leftNotDash := Path.sameAs_dash_of_isAbsolute absolute
  have rightNotDash := Path.sameAs_dash_of_isAbsolute rightAbsolute
  unfold filesUnder
  rw [leftNotDash, rightNotDash, found, alsoFound, if_neg Bool.false_ne_true,
    if_neg Bool.false_ne_true]
  dsimp only
  rw [List.filter_eq_self.mpr allListed, List.filter_eq_self.mpr alsoListed, List.map_map,
    List.map_map]
  apply List.map_congr_left
  intro names _
  exact Path.components_foldl_child_eq same absolute names

/-- The artifact lies where its name leads from the root, and its name ends plainly. -/
theorem Metadata.exists_artifactPath_eq_join (output entryBase : String) :
    ∃ name : String, EndsPlainly ⟨name⟩ ∧
      ∀ root, artifactPath root output entryBase = root.join ⟨name⟩ := by
  have plain : EndsPlainly ⟨nameEnding⟩ :=
    ⟨'n', by decide, by decide, by decide⟩
  by_cases named : Text.trim output = ""
  · refine ⟨entryBase ++ nameEnding, plain.append entryBase, ?_⟩
    intro root
    unfold artifactPath
    rw [named]
    rfl
  · exact ⟨Text.trim output ++ nameEnding, plain.append (Text.trim output),
      fun root => artifactPath_eq_join_of_named root entryBase named⟩

namespace Project

/-- Each path that is looked at for the project of a file is short enough to be followed: those of
the configurations beside and above the file, that of the artifact, and those of the directories
listed below the root. -/
structure HasRoomThroughout (files : FileSystem) (file : Path) : Prop where
  configuration : HasRoom file
  artifact :
    ∀ root configuration,
      findRoot files file = .ok root →
        (loadConfiguration files root).toOption = some configuration →
          (Metadata.artifactPath root configuration.output
              configuration.entryBase).text.utf8ByteSize ≤ FileSystem.maxPathSize
  listing :
    ∀ root node,
      findRoot files file = .ok root → files.find root = .ok node →
        ∀ names ∈ node.visibleFiles, FileSystem.listed root names = true

variable {files others : FileSystem} {left right root other : Path}

theorem HasRoomThroughout.of_found
    {file : Path} {configuration : Configuration} {node : Node}
    (room : HasRoom file)
    (found : findRoot files file = .ok root)
    (loaded : (loadConfiguration files root).toOption = some configuration)
    (artifactShort :
      (Metadata.artifactPath root configuration.output
          configuration.entryBase).text.utf8ByteSize ≤ FileSystem.maxPathSize)
    (isNode : files.find root = .ok node)
    (allListed : ∀ names ∈ node.visibleFiles, FileSystem.listed root names = true) :
    HasRoomThroughout files file where
  configuration := room
  artifact := by
    intro other otherConfiguration alsoFound alsoLoaded
    rw [found] at alsoFound
    cases alsoFound
    rw [loaded] at alsoLoaded
    cases alsoLoaded
    exact artifactShort
  listing := by
    intro other otherNode alsoFound alsoNode
    rw [found] at alsoFound
    cases alsoFound
    rw [isNode] at alsoNode
    cases alsoNode
    exact allListed

theorem sameProject_self
    (sameTree : others.root = files.root) (absolute : root.isAbsolute = true)
    (sameRoot : SameRoot files others root root) :
    SameProject files others root root where
  toSameRoot := sameRoot
  absolute := absolute
  artifact := by
    intro configuration _
    obtain ⟨name, _, artifact_eq⟩ :=
      Metadata.exists_artifactPath_eq_join configuration.output configuration.entryBase
    rw [artifact_eq, FileSystem.find_of_isAbsolute sameTree
      (Path.isAbsolute_join_of_isAbsolute absolute ⟨name⟩)]
  listing := by
    rw [FileSystem.filesUnder_of_isAbsolute sameTree absolute]

theorem sameProject_of_room
    (sameTree : others.root = files.root)
    (sameFile : SameFile left right)
    (named : left.steps ≠ [])
    (found : findRoot files left = .ok root) (alsoFound : findRoot others right = .ok other)
    (sameRoot : SameRoot files others root other)
    (room : HasRoomThroughout files left) (alsoRoom : HasRoomThroughout others right) :
    SameProject files others root other := by
  have rightNamed := named
  rw [sameFile.steps_eq] at rightNamed
  have absolute := isAbsolute_of_findRoot sameFile.absolute named found
  have otherAbsolute := isAbsolute_of_findRoot sameFile.symm.absolute rightNamed alsoFound
  have isName := legalName_fileName.toIsName
  obtain ⟨entries, isDirectory⟩ :=
    FileSystem.exists_directory_of_has_child absolute isName
      (has_configuration_of_findRoot sameFile.absolute named found)
  obtain ⟨_, alsoDirectory⟩ :=
    FileSystem.exists_directory_of_has_child otherAbsolute isName
      (has_configuration_of_findRoot sameFile.symm.absolute rightNamed alsoFound)
  have respelled : Respelled root other :=
    ⟨absolute, sameRoot.same,
      .inr ⟨FileSystem.size_le_of_find isDirectory, FileSystem.size_le_of_find alsoDirectory⟩⟩
  have sameDirectory : others.find other = .ok (.directory entries) :=
    FileSystem.find_of_respelled sameTree respelled (.inl ⟨entries, rfl⟩) isDirectory
  refine ⟨sameRoot, absolute, ?_, ?_⟩
  · intro configuration loaded
    have alsoLoaded := sameRoot.toOption_loadConfiguration
    rw [loaded] at alsoLoaded
    have short := room.artifact root configuration found loaded
    have alsoShort := alsoRoom.artifact other configuration alsoFound alsoLoaded
    obtain ⟨name, plain, artifact_eq⟩ :=
      Metadata.exists_artifactPath_eq_join configuration.output configuration.entryBase
    rw [artifact_eq] at short alsoShort ⊢
    rw [artifact_eq]
    have sameArtifact : Respelled (root.join ⟨name⟩) (other.join ⟨name⟩) :=
      ⟨Path.isAbsolute_join_of_isAbsolute absolute ⟨name⟩,
        Path.components_join_eq sameRoot.same sameRoot.leftNonempty sameRoot.rightNonempty
          ⟨name⟩,
        .inr ⟨short, alsoShort⟩⟩
    exact FileSystem.toOption_find_of_respelled sameTree sameArtifact (plain.join root)
      (plain.join other)
  · exact FileSystem.map_components_filesUnder absolute sameRoot.same isDirectory sameDirectory
      (room.listing root _ found isDirectory) (alsoRoom.listing other _ alsoFound sameDirectory)

/-- Two spellings of a file belong to one project, or to none. -/
theorem findRoot_sameProject_cases
    (sameTree : others.root = files.root)
    (absolute : left.isAbsolute = true)
    (same : left.components = right.components)
    (named : left.steps ≠ [])
    (room : left = right ∨ HasRoomThroughout files left ∧ HasRoomThroughout others right) :
    (∃ root other, findRoot files left = .ok root ∧ findRoot others right = .ok other ∧
        SameProject files others root other) ∨
      ∃ cause otherCause,
        findRoot files left = .error cause ∧ findRoot others right = .error otherCause := by
  have sameFile : SameFile left right :=
    ⟨absolute, same, fun _ =>
      room.imp_right fun rooms => ⟨rooms.1.configuration, rooms.2.configuration⟩⟩
  rcases sameFile.findRoot_cases sameTree fun noSteps => absurd noSteps named with
    ⟨root, other, found, alsoFound, sameRoot⟩ | missing
  · refine .inl ⟨root, other, found, alsoFound, ?_⟩
    rcases room with rfl | ⟨leftRoom, rightRoom⟩
    · obtain ⟨levels, _, _, root_eq, alike⟩ :=
        sameFile.exists_findRoot_eq sameTree named found
      have sameText : other = root := by
        rw [alike, Except.ok.injEq] at alsoFound
        rw [root_eq, alsoFound]
      subst sameText
      exact sameProject_self sameTree (isAbsolute_of_findRoot absolute named found) sameRoot
    · exact sameProject_of_room sameTree sameFile named found alsoFound sameRoot leftRoom
        rightRoom
  · exact .inr missing

end Project

end MplServer
