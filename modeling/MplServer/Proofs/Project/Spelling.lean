import MplServer.Proofs.FileSystem.Spelling
import MplServer.Proofs.Project.Enclosure
import MplServer.Proofs.Project.Settings

/-!
# Projects of a file however it is spelled

Two spellings of one file belong to one project, if there is room for the name of a configuration
behind either of them. From any working directory the same configuration is loaded, and it asks
for the same command line.
-/

namespace MplServer

/-! ## Endings -/

theorem EndsPlainly.append
    {ending : String} (plain : EndsPlainly ⟨ending⟩) (start : String) :
    EndsPlainly ⟨start ++ ending⟩ := by
  obtain ⟨letter, last, notSlash, notDot⟩ := plain
  refine ⟨letter, ?_, notSlash, notDot⟩
  rw [String.toList_append, List.getLast?_append, last, Option.some_or]

theorem EndsPlainly.join
    {next : Path} (plain : EndsPlainly next) (path : Path) : EndsPlainly (path.join next) := by
  unfold Path.join
  split
  · exact plain
  · split
    · exact plain.append path.text
    · exact plain.append (path.text ++ "/")

namespace Project

theorem endsPlainly_configurationPath (directory : Path) :
    EndsPlainly (configurationPath directory) :=
  EndsPlainly.join ⟨'n', by decide, by decide, by decide⟩ directory

/-- A configuration beside the file can have a name that is short enough to be followed. -/
def HasRoom (file : Path) : Prop :=
  ((file.above 1).text ++ "/" ++ Configuration.fileName).utf8ByteSize ≤ FileSystem.maxPathSize

instance decidableHasRoom (file : Path) : Decidable (HasRoom file) :=
  inferInstanceAs (Decidable (_ ≤ _))

/-- Two spellings of a file. Unless they are the same, both have room for a configuration; for the
root directory room does not matter. -/
structure SameFile (left right : Path) : Prop where
  absolute : left.isAbsolute = true
  same : left.components = right.components
  room : left.steps ≠ [] → left = right ∨ HasRoom left ∧ HasRoom right

variable {files others : FileSystem} {left right : Path} {levels : Nat}

namespace SameFile

theorem steps_eq (sameFile : SameFile left right) : left.steps = right.steps :=
  Path.steps_eq_of_components_eq sameFile.same

theorem symm (sameFile : SameFile left right) : SameFile right left := by
  refine ⟨?_, sameFile.same.symm, ?_⟩
  · rw [← Path.isAbsolute_eq_of_components_eq sameFile.same, sameFile.absolute]
  · intro named
    rw [← sameFile.steps_eq] at named
    rcases sameFile.room named with equal | ⟨leftRoom, rightRoom⟩
    · exact .inl equal.symm
    · exact .inr ⟨rightRoom, leftRoom⟩

/-- Going up from two spellings, one meets two spellings of the same directories. -/
theorem components_above
    (sameFile : SameFile left right) (within : levels ≤ left.steps.length) :
    (left.above levels).components = (right.above levels).components := by
  have leftAbove := Path.isAbove_above sameFile.absolute within
  rw [sameFile.steps_eq] at within
  have rightAbove := Path.isAbove_above sameFile.symm.absolute within
  rw [Path.components_of_isAbsolute leftAbove.absolute,
    Path.components_of_isAbsolute rightAbove.absolute, leftAbove.steps, rightAbove.steps,
    sameFile.steps_eq]

theorem respelled_configurationPath
    (sameFile : SameFile left right)
    (above : 1 ≤ levels) (within : levels ≤ left.steps.length) :
    Respelled (configurationPath (left.above levels))
      (configurationPath (right.above levels)) := by
  have leftAbsolute := (Path.isAbove_above sameFile.absolute within).absolute
  have rightWithin := within
  rw [sameFile.steps_eq] at rightWithin
  have rightAbsolute := (Path.isAbove_above sameFile.symm.absolute rightWithin).absolute
  refine ⟨?_, ?_, ?_⟩
  · rw [configurationPath, Path.child,
      Path.isAbsolute_join (Path.isAbsolute_of_isName legalName_fileName.toIsName)]
    simp [leftAbsolute]
  · exact Path.components_join_eq (sameFile.components_above within)
      (Path.text_ne_empty_of_isAbsolute leftAbsolute)
      (Path.text_ne_empty_of_isAbsolute rightAbsolute) _
  · have named : left.steps ≠ [] := by
      intro noSteps
      rw [noSteps, List.length_nil] at within
      omega
    rcases sameFile.room named with equal | ⟨leftRoom, rightRoom⟩
    · exact .inl (by rw [equal])
    · exact .inr
        ⟨size_configurationPath_above sameFile.absolute above within leftRoom,
          size_configurationPath_above sameFile.symm.absolute above rightWithin rightRoom⟩

theorem find_configurationPath
    (sameTree : others.root = files.root)
    (sameFile : SameFile left right)
    (above : 1 ≤ levels) (within : levels ≤ left.steps.length) :
    (others.find (configurationPath (right.above levels))).toOption =
      (files.find (configurationPath (left.above levels))).toOption :=
  FileSystem.toOption_find_of_respelled sameTree
    (sameFile.respelled_configurationPath above within)
    (endsPlainly_configurationPath _) (endsPlainly_configurationPath _)

theorem isNearestRoot
    {root : Path}
    (sameTree : others.root = files.root)
    (sameFile : SameFile left right)
    (nearest : IsNearestRoot files left levels root) :
    IsNearestRoot others right levels (right.above levels) := by
  have within := nearest.within
  have sameHas :
      ∀ lower, 1 ≤ lower → lower ≤ levels →
        others.has (configurationPath (right.above lower)) =
          files.has (configurationPath (left.above lower)) := by
    intro lower positive below
    rw [FileSystem.has_eq_isSome, FileSystem.has_eq_isSome,
      sameFile.find_configurationPath sameTree positive (by omega)]
  refine ⟨nearest.above, nearest.bounded, ?_, rfl, ?_, ?_⟩
  · rwa [← sameFile.steps_eq]
  · rw [sameHas levels nearest.above (Nat.le_refl levels), ← nearest.root_eq]
    exact nearest.holds
  · intro lower positive below
    rw [sameHas lower positive (Nat.le_of_lt below)]
    exact nearest.nearest lower positive below

/-- The roots of two spellings lie as many levels above them. -/
theorem exists_findRoot_eq
    {root : Path}
    (sameTree : others.root = files.root)
    (sameFile : SameFile left right)
    (named : left.steps ≠ [])
    (found : findRoot files left = .ok root) :
    ∃ levels, 1 ≤ levels ∧ levels ≤ left.steps.length ∧ root = left.above levels ∧
      findRoot others right = .ok (right.above levels) := by
  obtain ⟨levels, nearest⟩ := (findRoot_eq_ok_iff sameFile.absolute named).mp found
  have rightNamed := named
  rw [sameFile.steps_eq] at rightNamed
  have alike := sameFile.isNearestRoot sameTree nearest
  exact ⟨levels, nearest.above, nearest.within, nearest.root_eq,
    (findRoot_eq_ok_iff sameFile.symm.absolute rightNamed).mpr ⟨levels, alike⟩⟩

end SameFile

/-! ## Roots -/

/-- Two spellings of a root, with one configuration for both. -/
structure SameRoot (files others : FileSystem) (left right : Path) : Prop where
  same : left.components = right.components
  leftNonempty : left.text ≠ ""
  rightNonempty : right.text ≠ ""
  configuration :
    (others.find (configurationPath right)).toOption =
      (files.find (configurationPath left)).toOption

theorem SameFile.sameRoot_above
    (sameTree : others.root = files.root)
    (sameFile : SameFile left right)
    (above : 1 ≤ levels) (within : levels ≤ left.steps.length) :
    SameRoot files others (left.above levels) (right.above levels) := by
  have rightWithin := within
  rw [sameFile.steps_eq] at rightWithin
  exact
    { same := sameFile.components_above within
      leftNonempty :=
        Path.text_ne_empty_of_isAbsolute (Path.isAbove_above sameFile.absolute within).absolute
      rightNonempty :=
        Path.text_ne_empty_of_isAbsolute
          (Path.isAbove_above sameFile.symm.absolute rightWithin).absolute
      configuration := sameFile.find_configurationPath sameTree above within }

/-- Nothing lies above the root directory, so the search starts in the working directory. -/
theorem directoryOf_of_steps_eq_nil
    (absolute : left.isAbsolute = true) (noSteps : left.steps = []) :
    directoryOf left = ⟨"."⟩ := by
  unfold directoryOf
  rw [Path.parent?_of_steps_eq_nil absolute noSteps]

/-- Nothing is looked at above the working directory when the search starts there. -/
theorem eq_dot_of_findUpwards_dot
    {count : Nat} {root : Path} (found : findUpwards files count ⟨"."⟩ = some root) :
    root = ⟨"."⟩ := by
  cases count with
  | zero => cases found
  | succ fewer =>
      have parent : (⟨"."⟩ : Path).parent? = some ⟨""⟩ := by decide
      unfold findUpwards at found
      rw [parent] at found
      by_cases holds : files.has (configurationPath ⟨"."⟩) = true
      · rw [if_pos holds, Option.some.injEq] at found
        exact found.symm
      · rw [if_neg holds] at found
        cases found

/-- Two spellings of a file have two spellings of one root, or neither has one. The root directory
must be looked at from one working directory. -/
theorem SameFile.findRoot_cases
    (sameTree : others.root = files.root)
    (sameFile : SameFile left right)
    (sameStart : left.steps = [] → others.workingDirectory = files.workingDirectory) :
    (∃ root other, findRoot files left = .ok root ∧ findRoot others right = .ok other ∧
        SameRoot files others root other) ∨
      ∃ cause otherCause,
        findRoot files left = .error cause ∧ findRoot others right = .error otherCause := by
  by_cases noSteps : left.steps = []
  · have sameFiles : others = files := by
      obtain ⟨root, workingDirectory⟩ := others
      obtain rfl : root = files.root := sameTree
      obtain rfl : workingDirectory = files.workingDirectory := sameStart noSteps
      rfl
    have rightNoSteps := noSteps
    rw [sameFile.steps_eq] at rightNoSteps
    rw [sameFiles]
    unfold findRoot
    rw [directoryOf_of_steps_eq_nil sameFile.absolute noSteps,
      directoryOf_of_steps_eq_nil sameFile.symm.absolute rightNoSteps]
    cases found : findUpwards files maxDirectories ⟨"."⟩ with
    | none => exact .inr ⟨_, _, rfl, rfl⟩
    | some root =>
        obtain rfl := eq_dot_of_findUpwards_dot found
        exact .inl ⟨_, _, rfl, rfl, ⟨rfl, by decide, by decide, rfl⟩⟩
  · cases found : findRoot files left with
    | ok root =>
        obtain ⟨levels, above, within, rfl, alike⟩ :=
          sameFile.exists_findRoot_eq sameTree noSteps found
        exact .inl ⟨_, _, rfl, alike, sameFile.sameRoot_above sameTree above within⟩
    | error cause =>
        cases rightFound : findRoot others right with
        | error otherCause => exact .inr ⟨cause, otherCause, rfl, rfl⟩
        | ok other =>
            have rightNamed := noSteps
            rw [sameFile.steps_eq] at rightNamed
            obtain ⟨levels, _, _, _, alike⟩ :=
              sameFile.symm.exists_findRoot_eq sameTree.symm rightNamed rightFound
            rw [found] at alike
            cases alike

/-! ## Configurations -/

theorem toOption_loadConfiguration (files : FileSystem) (root : Path) :
    (loadConfiguration files root).toOption =
      ((files.find (configurationPath root)).toOption.bind FileSystem.nodeText?).bind
        fun text => (Configuration.parse text).toOption := by
  rw [← FileSystem.toOption_readText, configurationPath, loadConfiguration, Configuration.load]
  cases files.readText (root.child Configuration.fileName) with
  | error cause => rfl
  | ok text =>
      change (Except.mapError _ (Configuration.parse text)).toOption =
        (Configuration.parse text).toOption
      cases Configuration.parse text <;> rfl

theorem SameRoot.toOption_loadConfiguration
    (sameRoot : SameRoot files others left right) :
    (loadConfiguration others right).toOption = (loadConfiguration files left).toOption := by
  rw [Project.toOption_loadConfiguration, Project.toOption_loadConfiguration,
    sameRoot.configuration]

theorem relativeTo_eq
    (same : left.components = right.components)
    (leftNonempty : left.text ≠ "") (rightNonempty : right.text ≠ "") (target : String) :
    left.relativeTo target = right.relativeTo target := by
  have sameGoal :=
    Path.normalize_join_eq same leftNonempty rightNonempty ⟨target⟩
  have sameBase : left.normalize = right.normalize := by
    rw [Path.normalize, Path.normalize, same]
  unfold Path.relativeTo
  rw [sameGoal, sameBase]

/-- The command line is the same for both spellings of a root. -/
theorem SameRoot.invocation_eq
    (sameRoot : SameRoot files others left right)
    (configuration : Configuration) (settings : Settings) :
    configuration.invocation left settings = configuration.invocation right settings := by
  have sameWay : left.relativeTo = right.relativeTo :=
    funext (relativeTo_eq sameRoot.same sameRoot.leftNonempty sameRoot.rightNonempty)
  unfold Configuration.invocation BuildPlan.invocation
  rw [sameWay]

/-! ## A spelling without room -/

/-- The path of a file, with a number of slashes before its directory. -/
def spread (count : Nat) : Path :=
  ⟨"/" ++ Text.joinWith '/' (["proj"] ++ List.replicate count "" ++ ["sub", "main.mpl"])⟩

/-- The directory of a spread path. -/
def spreadDirectory (count : Nat) : Path :=
  ⟨"/" ++ Text.joinWith '/' (["proj"] ++ List.replicate count "" ++ ["sub"])⟩

variable {count : Nat}

theorem pieces_slash_joinWith
    {parts : List String}
    (nonempty : parts ≠ []) (apart : ∀ part ∈ parts, '/' ∉ part.toList) :
    Path.pieces ⟨"/" ++ Text.joinWith '/' parts⟩ = "" :: parts := by
  have cut := Path.pieces_append_slash "" (Text.joinWith '/' parts)
  rw [String.empty_append] at cut
  rw [cut, Path.pieces, Path.pieces, Text.splitAt_empty, Text.splitAt_joinWith nonempty apart]
  rfl

theorem pieces_spread :
    (spread count).pieces =
      "" :: (["proj"] ++ List.replicate count "" ++ ["sub", "main.mpl"]) := by
  apply pieces_slash_joinWith
  · simp
  · intro part member
    simp only [List.mem_append, List.mem_cons, List.mem_replicate, List.not_mem_nil,
      or_false] at member
    rcases member with (rfl | ⟨_, rfl⟩) | rfl | rfl <;> decide

theorem pieces_spreadDirectory :
    (spreadDirectory count).pieces = "" :: (["proj"] ++ List.replicate count "" ++ ["sub"]) := by
  apply pieces_slash_joinWith
  · simp
  · intro part member
    simp only [List.mem_append, List.mem_cons, List.mem_replicate, List.not_mem_nil,
      or_false] at member
    rcases member with (rfl | ⟨_, rfl⟩) | rfl <;> decide

theorem isAbsolute_spread : (spread count).isAbsolute = true := by
  simp [spread, Path.isAbsolute]

theorem isAbsolute_spreadDirectory : (spreadDirectory count).isAbsolute = true := by
  simp [spreadDirectory, Path.isAbsolute]

theorem filterMap_replicate_empty :
    (List.replicate count "").filterMap Path.Component.ofPiece? = [] :=
  List.filterMap_replicate_of_none (by decide)

theorem steps_spread :
    (spread count).steps = [.name "proj", .name "sub", .name "main.mpl"] := by
  rw [Path.steps, pieces_spread, List.filterMap_cons_none (by decide), List.filterMap_append,
    List.filterMap_append, filterMap_replicate_empty]
  decide

theorem steps_spreadDirectory :
    (spreadDirectory count).steps = [.name "proj", .name "sub"] := by
  rw [Path.steps, pieces_spreadDirectory, List.filterMap_cons_none (by decide),
    List.filterMap_append, List.filterMap_append, filterMap_replicate_empty]
  decide

theorem parent?_of_pieces
    {path : Path} {parts shorter : List String}
    (absolute : path.isAbsolute = true) (pieces_eq : path.pieces = "" :: parts)
    (named : path.steps ≠ []) (cut : Path.withoutLast parts = shorter) :
    path.parent? = some ⟨"/" ++ Text.joinWith '/' shorter⟩ := by
  have hasName := (Path.any_pieces_iff path).mpr named
  rw [pieces_eq] at hasName
  simp only [Path.parent?, absolute, if_true, pieces_eq, List.tail_cons, cut, hasName]

theorem parent?_spread : (spread count).parent? = some (spreadDirectory count) := by
  apply parent?_of_pieces isAbsolute_spread pieces_spread
  · simp [steps_spread]
  · simp [Path.withoutLast, Path.Component.ofPiece?]

theorem parent?_spreadDirectory : (spreadDirectory count).parent? = some ⟨"/proj"⟩ := by
  have named : (spreadDirectory count).steps ≠ [] := by
    simp [steps_spreadDirectory]
  have cut :
      Path.withoutLast (["proj"] ++ List.replicate count "" ++ ["sub"]) = ["proj"] := by
    have turned :
        (["proj"] ++ List.replicate count "" ++ ["sub"]).reverse =
          "sub" :: (List.replicate count "" ++ ["proj"]) := by
      simp
    unfold Path.withoutLast
    dsimp only
    rw [turned, List.dropWhile_cons_of_neg (by decide), List.drop_one, List.tail_cons,
      List.dropWhile_append_of_pos]
    · decide
    · intro piece member
      rw [(List.mem_replicate.mp member).2]
      decide
  exact (parent?_of_pieces isAbsolute_spreadDirectory pieces_spreadDirectory named cut).trans
    (by decide)

theorem le_size_joinWith_replicate (last : String) :
    count ≤ (Text.joinWith '/' (List.replicate count "" ++ [last])).utf8ByteSize := by
  induction count with
  | zero => exact Nat.zero_le _
  | succ fewer inductionHypothesis =>
      have parts :
          Text.joinWith '/' ([""] ++ (List.replicate fewer "" ++ [last])) =
            Text.joinWith '/' [""] ++ "/" ++
              Text.joinWith '/' (List.replicate fewer "" ++ [last]) :=
        Text.joinWith_append_slash (by simp) (by simp)
      have oneByte : "/".utf8ByteSize = 1 := by decide
      rw [List.replicate_succ, List.cons_append, ← List.singleton_append, parts]
      simp only [String.utf8ByteSize_append, oneByte]
      omega

/-- Each of the slashes is a byte. -/
theorem le_size_spreadDirectory : count ≤ (spreadDirectory count).text.utf8ByteSize := by
  have slashes := @le_size_joinWith_replicate count "sub"
  unfold spreadDirectory
  rw [List.append_assoc, Text.joinWith_append_slash (by simp) (by simp)]
  simp only [String.utf8ByteSize_append]
  omega

/-- What cannot be followed for its length is not there. -/
theorem has_eq_false_of_long
    {path : Path} (long : FileSystem.maxPathSize < path.text.utf8ByteSize) :
    files.has path = false := by
  rw [Bool.eq_false_iff]
  intro there
  obtain ⟨place, _, located, _⟩ := FileSystem.has_eq_true_iff.mp there
  have short := (FileSystem.locate_eq_ok_iff.mp located).2.1
  omega

/-- A configuration behind so many slashes is not found. -/
theorem findRoot_spread
    (long : FileSystem.maxPathSize ≤ count)
    (noOuter : files.has (configurationPath ⟨"/proj"⟩) = false)
    (noOutermost : files.has (configurationPath ⟨"/"⟩) = false) :
    findRoot files (spread count) = .error (.noProject (spread count)) := by
  have lies : directoryOf (spread count) = spreadDirectory count := by
    unfold directoryOf
    rw [parent?_spread]
    exact if_neg (by simp [spreadDirectory])
  have misses : files.has (configurationPath (spreadDirectory count)) = false := by
    apply has_eq_false_of_long
    have slashes := @le_size_spreadDirectory count
    have nameSize : Configuration.fileName.utf8ByteSize = 8 := by decide
    rcases configurationPath_text (spreadDirectory count) with text_eq | text_eq
    · rw [text_eq, String.utf8ByteSize_append]
      omega
    · rw [text_eq, String.utf8ByteSize_append, String.utf8ByteSize_append]
      omega
  have outer : (⟨"/proj"⟩ : Path).parent? = some ⟨"/"⟩ := by decide
  have limit : maxDirectories = 10 := rfl
  unfold findRoot
  rw [lies, limit, findUpwards_of_above misses parent?_spreadDirectory (by decide),
    findUpwards_of_above noOuter outer (by decide), findUpwards_of_top noOutermost (by decide)]

theorem exists_text_spread_eq :
    ∃ middle, (spread count).text.toList = '/' :: 'p' :: (middle ++ "main.mpl".toList) := by
  unfold spread
  rw [Text.slash_append_joinWith (by simp)]
  refine ⟨"roj".toList ++ (List.replicate count "").flatMap (fun piece => '/' :: piece.toList) ++
    "/sub/".toList, ?_⟩
  simp

/-- Made absolute, the path has none of the slashes left. -/
theorem absolute_spread (directory : Path) :
    Path.absolute directory (spread count) = ⟨"/proj/sub/main.mpl"⟩ := by
  obtain ⟨middle, shape⟩ := @exists_text_spread_eq count
  have nonempty : ¬ (spread count).text.isEmpty = true := by
    rw [String.isEmpty_iff]
    exact Path.text_ne_empty_of_isAbsolute isAbsolute_spread
  have unclosed : ((spread count).text.toList.getLast? == some '/') = false := by
    rw [shape, ← List.cons_append, ← List.cons_append, List.getLast?_append]
    rfl
  unfold Path.absolute
  rw [if_neg nonempty, Path.filter_components, steps_spread, if_pos isAbsolute_spread]
  dsimp only
  rw [unclosed, if_neg Bool.false_ne_true, if_neg (by simp)]
  split
  · rename_i begun
    simp [shape] at begun
  · rename_i begun
    simp [shape] at begun
  · decide

theorem absolute_spread_eq (directory : Path) (count : Nat) :
    Path.absolute directory (spread count) =
      Path.absolute directory ⟨"/proj/sub/main.mpl"⟩ := by
  have plain : spread 0 = ⟨"/proj/sub/main.mpl"⟩ := by
    decide
  rw [← plain, absolute_spread, absolute_spread]

end Project

end MplServer
