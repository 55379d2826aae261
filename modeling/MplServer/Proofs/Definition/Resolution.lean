import MplServer.Proofs.Definition.Recorded
import MplServer.Proofs.FileSystem.Search
import MplServer.Proofs.Path.Suffix

/-!
# How recorded paths are resolved

Each strategy looks at paths in an order and takes the first that it accepts. A recorded path is
resolved by the first strategy that takes one, and left unresolved just when no strategy has a path
to take.
-/

namespace MplServer

namespace Path

/-- A path ends with the file name of another. -/
def SharesName (path recorded : Path) : Prop :=
  ∃ name, recorded.fileName? = some name ∧ path.fileName? = some name

/-- A path ends with the components of another. -/
def EndsWith (path recorded : Path) : Prop :=
  recorded.components <:+ path.components

theorem EndsWith.fileName?_eq
    {path recorded : Path}
    (nonempty : recorded.components ≠ [])
    (endsWith : path.EndsWith recorded) :
    path.fileName? = recorded.fileName? := by
  rw [fileName?, fileName?, List.getLast?_eq_some_getLast (endsWith.ne_nil nonempty),
    List.getLast?_eq_some_getLast nonempty, endsWith.getLast nonempty]

end Path

namespace Strategy

theorem mem_order (strategy : Strategy) : strategy ∈ order := by
  cases strategy <;> decide

/-- The strategies that are tried before one. -/
def earlier (strategy : Strategy) : List Strategy :=
  order.takeWhile (· ≠ strategy)

/-- The first strategy to yield something is one before which none does. -/
theorem findSome?_map_eq_some_iff
    {attempts : List Strategy} {attempt? : Strategy → Option Path}
    {found : Path} {strategy : Strategy} :
    attempts.findSome? (fun each => (attempt? each).map (·, each)) =
        some (found, strategy) ↔
      strategy ∈ attempts ∧ attempt? strategy = some found ∧
        ∀ before ∈ attempts.takeWhile (· ≠ strategy), attempt? before = none := by
  induction attempts with
  | nil => simp
  | cons first others inductionHypothesis =>
      rw [List.findSome?_cons]
      by_cases same : first = strategy
      · subst same
        cases outcome : attempt? first with
        | none =>
            rw [Option.map_none, inductionHypothesis]
            simp [outcome]
        | some path => simp
      · cases outcome : attempt? first with
        | none =>
            rw [Option.map_none, inductionHypothesis]
            simp [same, Ne.symm same, outcome]
        | some path => simp [same, outcome]

end Strategy

namespace Resolver

variable {resolver : Resolver} {files : FileSystem} {strategy : Strategy}
variable {recorded found : Path}

/-! ## One strategy -/

/-- The paths a strategy looks at, in its order. -/
def inspected (resolver : Resolver) (files : FileSystem) (strategy : Strategy)
    (recorded : Path) : List Path :=
  match strategy with
  | .fileName => resolver.searchRoots.flatMap files.filesUnder
  | .pathSuffix => resolver.searchRoots.flatMap files.filesUnder
  | direct => resolver.candidates direct recorded

/-- What a strategy asks of a path. -/
def Accepts (files : FileSystem) (strategy : Strategy) (recorded path : Path) : Prop :=
  match strategy with
  | .fileName => path.SharesName recorded
  | .pathSuffix => path.EndsWith recorded
  | _ => files.isFile path = true

theorem exists_attempt?_eq_find?
    (isRecorded : IsRecorded recorded) :
    ∃ accepts : Path → Bool,
      resolver.attempt? files strategy recorded =
          (resolver.inspected files strategy recorded).find? accepts ∧
        ∀ path, accepts path = true ↔ Accepts files strategy recorded path := by
  cases strategy with
  | projectRoot => exact ⟨files.isFile, rfl, fun _ => Iff.rfl⟩
  | outputDirectory => exact ⟨files.isFile, rfl, fun _ => Iff.rfl⟩
  | workspaceFolder => exact ⟨files.isFile, rfl, fun _ => Iff.rfl⟩
  | fileName =>
      cases named : recorded.fileName? with
      | none =>
          refine ⟨fun _ => false, ?_, fun path => ?_⟩
          · have nothing :
                (resolver.searchRoots.flatMap files.filesUnder).find? (fun _ => false) =
                  none := by
              simp
            simp only [attempt?, inspected, named, nothing]
            rfl
          · simp [Accepts, Path.SharesName, named]
      | some name =>
          refine ⟨fun path => path.fileName? == some name, ?_, fun path => ?_⟩
          · simp only [attempt?, inspected, named, ← FileSystem.search_eq_find?]
            rfl
          · simp [Accepts, Path.SharesName, named]
  | pathSuffix =>
      refine ⟨fun path => Path.endsOnBoundary path.slashed recorded.slashed,
        FileSystem.search_eq_find? .., fun path => ?_⟩
      exact Path.endsOnBoundary_slashed_iff_of_relative
        isRecorded.relative isRecorded.nonempty

theorem attempt?_eq_none_iff
    (isRecorded : IsRecorded recorded) :
    resolver.attempt? files strategy recorded = none ↔
      ∀ path ∈ resolver.inspected files strategy recorded,
        ¬ Accepts files strategy recorded path := by
  obtain ⟨accepts, attempt_eq, asks⟩ :=
    @exists_attempt?_eq_find? resolver files strategy recorded isRecorded
  simp only [attempt_eq, List.find?_eq_none, asks]

theorem attempt?_eq_some_iff
    (isRecorded : IsRecorded recorded) :
    resolver.attempt? files strategy recorded = some found ↔
      Accepts files strategy recorded found ∧
        ∃ before behind,
          resolver.inspected files strategy recorded = before ++ found :: behind ∧
            ∀ path ∈ before, ¬ Accepts files strategy recorded path := by
  obtain ⟨accepts, attempt_eq, asks⟩ :=
    @exists_attempt?_eq_find? resolver files strategy recorded isRecorded
  simp only [attempt_eq, List.find?_eq_some_iff_append, asks, ← Bool.not_eq_true,
    Bool.not_eq_eq_eq_not, Bool.not_true]

theorem exists_base_of_mem_candidates
    {candidate : Path}
    (member : candidate ∈ resolver.candidates strategy recorded) :
    ∃ base : Path, candidate = (base.join recorded).normalize := by
  have inFolder_base
      {folder path : Path} (inFolder : path ∈ resolver.inFolder folder recorded) :
      ∃ base : Path, path = base.join recorded := by
    rcases List.mem_cons.mp inFolder with rfl | below
    · exact ⟨folder, rfl⟩
    · obtain ⟨directory, _, rfl⟩ := List.mem_map.mp below
      exact ⟨folder.join directory, rfl⟩
  obtain ⟨path, inPaths, rfl⟩ := List.mem_map.mp member
  suffices base : ∃ base : Path, path = base.join recorded by
    obtain ⟨base, rfl⟩ := base
    exact ⟨base, rfl⟩
  cases strategy with
  | projectRoot => exact ⟨resolver.root, List.mem_singleton.mp inPaths⟩
  | outputDirectory => exact inFolder_base (List.mem_of_mem_drop inPaths)
  | workspaceFolder =>
      obtain ⟨folder, _, inFolder⟩ := List.mem_flatMap.mp inPaths
      exact inFolder_base inFolder
  | fileName => cases inPaths
  | pathSuffix => cases inPaths

/-- Whatever a strategy takes is a file. -/
theorem isFile_of_accepted
    (lawful : files.root.Lawful)
    (looked : found ∈ resolver.inspected files strategy recorded)
    (accepted : Accepts files strategy recorded found) :
    files.HoldsFile found ∧
      (found.text.utf8ByteSize ≤ FileSystem.maxPathSize → files.isFile found = true) := by
  have ofSearch
      (inTrees : found ∈ resolver.searchRoots.flatMap files.filesUnder) :
      files.HoldsFile found ∧
        (found.text.utf8ByteSize ≤ FileSystem.maxPathSize →
          files.isFile found = true) := by
    obtain ⟨root, _, underRoot⟩ := List.mem_flatMap.mp inTrees
    exact ((FileSystem.mem_filesUnder_iff lawful).mp underRoot).isFile lawful
  have ofCheck (isFile : files.isFile found = true) :
      files.HoldsFile found ∧
        (found.text.utf8ByteSize ≤ FileSystem.maxPathSize →
          files.isFile found = true) :=
    ⟨(FileSystem.isFile_eq_true_iff.mp isFile).2.2, fun _ => isFile⟩
  cases strategy with
  | projectRoot => exact ofCheck accepted
  | outputDirectory => exact ofCheck accepted
  | workspaceFolder => exact ofCheck accepted
  | fileName => exact ofSearch looked
  | pathSuffix => exact ofSearch looked

/-- Whatever a strategy takes has the recorded file name, if there is one. -/
theorem fileName?_of_accepted
    {name : String}
    (isRecorded : IsRecorded recorded)
    (looked : found ∈ resolver.inspected files strategy recorded)
    (accepted : Accepts files strategy recorded found)
    (named : recorded.fileName? = some name) :
    found.fileName? = some name := by
  have ofCandidate
      (direct : Strategy) (member : found ∈ resolver.candidates direct recorded) :
      found.fileName? = some name := by
    obtain ⟨base, rfl⟩ := exists_base_of_mem_candidates member
    exact fileName?_normalize_join isRecorded.relative named
  cases strategy with
  | projectRoot => exact ofCandidate .projectRoot looked
  | outputDirectory => exact ofCandidate .outputDirectory looked
  | workspaceFolder => exact ofCandidate .workspaceFolder looked
  | fileName =>
      obtain ⟨same, recordedName, foundName⟩ := accepted
      rw [foundName, ← recordedName, named]
  | pathSuffix =>
      rw [Path.EndsWith.fileName?_eq isRecorded.nonempty accepted, named]

/-! ## All strategies -/

theorem resolvePath?_of_normalized
    {text : String} {path : Path}
    (normalized : normalizeRecorded? text = some path) :
    resolver.resolvePath? files text =
      Strategy.order.findSome? fun strategy =>
        (resolver.attempt? files strategy path).map (·, strategy) := by
  simp [resolvePath?, normalized]

theorem resolvePath?_eq_none_iff (recorded : String) :
    resolver.resolvePath? files recorded = none ↔
      ∀ path, normalizeRecorded? recorded = some path →
        ∀ strategy, resolver.attempt? files strategy path = none := by
  cases normalized : normalizeRecorded? recorded with
  | none => simp [resolvePath?, normalized]
  | some path =>
      rw [resolvePath?_of_normalized normalized]
      constructor
      · intro nothing other same strategy
        cases same
        rw [List.findSome?_eq_none_iff] at nothing
        exact Option.map_eq_none_iff.mp (nothing strategy (Strategy.mem_order strategy))
      · intro nothing
        rw [List.findSome?_eq_none_iff]
        intro strategy _
        rw [nothing path rfl strategy]
        rfl

theorem resolvePath?_eq_some_iff (recorded : String) :
    resolver.resolvePath? files recorded = some (found, strategy) ↔
      ∃ path, normalizeRecorded? recorded = some path ∧
        resolver.attempt? files strategy path = some found ∧
          ∀ earlier ∈ strategy.earlier, resolver.attempt? files earlier path = none := by
  cases normalized : normalizeRecorded? recorded with
  | none => simp [resolvePath?, normalized]
  | some path =>
      simp only [resolvePath?_of_normalized normalized, Option.some.injEq, exists_eq_left',
        Strategy.findSome?_map_eq_some_iff, Strategy.mem_order, true_and]
      rfl

/-! ## The outcome -/

/-- No candidate for a recorded path is a file, and no file that is `seen` below a search root ends
with its file name or with its components. -/
structure Unmatched (resolver : Resolver) (files : FileSystem) (seen : Path → Path → Prop)
    (recorded : Path) : Prop where
  candidates :
    ∀ candidate ∈
      resolver.candidates .projectRoot recorded ++
        resolver.candidates .outputDirectory recorded ++
          resolver.candidates .workspaceFolder recorded,
      files.isFile candidate = false
  trees :
    ∀ root ∈ resolver.searchRoots, ∀ path, seen root path →
      ¬ path.SharesName recorded ∧ ¬ path.EndsWith recorded

/-- A file is found by a strategy, and nothing that is looked at before it would do. -/
structure FirstMatch (resolver : Resolver) (files : FileSystem) (recorded found : Path)
    (strategy : Strategy) : Prop where
  holdsFile : files.HoldsFile found
  isFile : found.text.utf8ByteSize ≤ FileSystem.maxPathSize → files.isFile found = true
  earlierStrategies :
    ∀ earlier ∈ strategy.earlier, resolver.attempt? files earlier recorded = none
  earlierPaths :
    ∃ before behind,
      resolver.inspected files strategy recorded = before ++ found :: behind ∧
        ∀ path ∈ before, ¬ Accepts files strategy recorded path
  fileName : ∀ name, recorded.fileName? = some name → found.fileName? = some name

theorem attempts_eq_none_iff_unmatched
    (lawful : files.root.Lawful)
    (isRecorded : IsRecorded recorded) :
    (∀ strategy, resolver.attempt? files strategy recorded = none) ↔
      resolver.Unmatched files files.Meets recorded := by
  have inTrees_iff (path : Path) :
      path ∈ resolver.searchRoots.flatMap files.filesUnder ↔
        ∃ root ∈ resolver.searchRoots, files.Meets root path := by
    simp only [List.mem_flatMap, FileSystem.mem_filesUnder_iff lawful]
  simp only [attempt?_eq_none_iff isRecorded]
  constructor
  · intro rejected
    constructor
    · intro candidate member
      rw [Bool.eq_false_iff]
      rcases List.mem_append.mp member with early | inFolders
      · rcases List.mem_append.mp early with below | inOutput
        · exact rejected .projectRoot candidate below
        · exact rejected .outputDirectory candidate inOutput
      · exact rejected .workspaceFolder candidate inFolders
    · intro root isRoot path meets
      have inTrees := (inTrees_iff path).mpr ⟨root, isRoot, meets⟩
      exact ⟨rejected .fileName path inTrees, rejected .pathSuffix path inTrees⟩
  · intro unmatched strategy path looked
    have noFile
        (member : path ∈
          resolver.candidates .projectRoot recorded ++
            resolver.candidates .outputDirectory recorded ++
              resolver.candidates .workspaceFolder recorded) :
        ¬ files.isFile path = true := by
      rw [Bool.not_eq_true]
      exact unmatched.candidates path member
    cases strategy with
    | projectRoot =>
        exact noFile (List.mem_append_left _ (List.mem_append_left _ looked))
    | outputDirectory =>
        exact noFile (List.mem_append_left _ (List.mem_append_right _ looked))
    | workspaceFolder => exact noFile (List.mem_append_right _ looked)
    | fileName =>
        obtain ⟨root, isRoot, meets⟩ := (inTrees_iff path).mp looked
        exact (unmatched.trees root isRoot path meets).1
    | pathSuffix =>
        obtain ⟨root, isRoot, meets⟩ := (inTrees_iff path).mp looked
        exact (unmatched.trees root isRoot path meets).2

theorem firstMatch_of_attempts
    (lawful : files.root.Lawful)
    (isRecorded : IsRecorded recorded)
    (taken : resolver.attempt? files strategy recorded = some found)
    (earlierStrategies :
      ∀ earlier ∈ strategy.earlier, resolver.attempt? files earlier recorded = none) :
    resolver.FirstMatch files recorded found strategy := by
  obtain ⟨accepted, before, behind, order, rejected⟩ :=
    (attempt?_eq_some_iff isRecorded).mp taken
  have looked : found ∈ resolver.inspected files strategy recorded := by
    rw [order]
    exact List.mem_append_right before List.mem_cons_self
  obtain ⟨holdsFile, isFile⟩ := isFile_of_accepted lawful looked accepted
  exact
    { holdsFile, isFile, earlierStrategies
      earlierPaths := ⟨before, behind, order, rejected⟩
      fileName := fun _ named => fileName?_of_accepted isRecorded looked accepted named }

/-- A file beside a directory whose name is a dash. -/
def dashTree : FileSystem where
  root := .directory
    [("main.mpl", .file [] false),
      ("-", .directory [("lib", .directory [("note.mpl", .file [] false)])])]
  workingDirectory := []

theorem dashTree_lawful : dashTree.root.Lawful := by
  have libLawful : (Node.directory [("note.mpl", .file [] false)]).Lawful :=
    .directory (by decide) (by decide) (by simp [Node.Lawful.file])
  have dashLawful :
      (Node.directory [("lib", .directory [("note.mpl", .file [] false)])]).Lawful :=
    .directory (by decide) (by decide) (by simpa using libLawful)
  exact .directory (by decide) (by decide) (by simpa [Node.Lawful.file] using dashLawful)

/-- A directory below which a file lies `depth` directories deep. -/
def burrow : Nat → Node
  | 0 => .directory [("note.mpl", .file [] false)]
  | depth + 1 => .directory [("d", burrow depth)]

theorem visibleFiles_burrow (depth : Nat) :
    (burrow depth).visibleFiles = [List.replicate depth "d" ++ ["note.mpl"]] := by
  induction depth with
  | zero =>
      simp [burrow, Node.visibleFiles, Node.visibleEntries, isHidden]
  | succ smaller inductionHypothesis =>
      simp [burrow, Node.visibleFiles, Node.visibleEntries, isHidden,
        inductionHypothesis, List.replicate_succ]

theorem at?_burrow (depth : Nat) :
    (burrow depth).at? (List.replicate depth "d" ++ ["note.mpl"]) =
      some (.file [] false) := by
  induction depth with
  | zero => rfl
  | succ smaller inductionHypothesis => exact inductionHypothesis

theorem size_foldl_child_burrow (depth : Nat) (path : Path) :
    path.text.utf8ByteSize + depth ≤
      ((List.replicate depth "d").foldl Path.child path).text.utf8ByteSize := by
  induction depth generalizing path with
  | zero => exact Nat.le_refl _
  | succ smaller inductionHypothesis =>
      have longer :
          path.text.utf8ByteSize + 1 ≤ (path.child "d").text.utf8ByteSize := by
        have oneByte : "d".utf8ByteSize = 1 := by decide
        unfold Path.child Path.join
        rw [if_neg (by decide)]
        split <;> simp only [String.utf8ByteSize_append] <;> omega
      have rest := inductionHypothesis (path.child "d")
      rw [List.replicate_succ, List.foldl_cons]
      omega

/-- So deep a file that the path of its directory is too long. -/
def deepTree : FileSystem where
  root := burrow FileSystem.maxPathSize
  workingDirectory := []

theorem filesUnder_deepTree : deepTree.filesUnder ⟨"/"⟩ = [] := by
  have found : deepTree.find ⟨"/"⟩ = .ok (burrow FileSystem.maxPathSize) := rfl
  have tooLong :
      FileSystem.listed ⟨"/"⟩
        (List.replicate FileSystem.maxPathSize "d" ++ ["note.mpl"]) = false := by
    have size := size_foldl_child_burrow FileSystem.maxPathSize ⟨"/"⟩
    have oneByte : "/".utf8ByteSize = 1 := by decide
    rw [FileSystem.listed, List.dropLast_concat, decide_eq_false_iff_not]
    simp only [oneByte] at size
    omega
  rw [FileSystem.filesUnder, if_neg (by decide), found]
  simp [visibleFiles_burrow, tooLong]

theorem visibleAt_deepTree :
    deepTree.VisibleAt ⟨"/"⟩
      (List.replicate FileSystem.maxPathSize "d" ++ ["note.mpl"]) := by
  refine ⟨?_, [], [], false, rfl, at?_burrow _⟩
  intro name member
  rw [List.mem_append, List.mem_replicate, List.mem_singleton] at member
  rcases member with ⟨_, rfl⟩ | rfl <;> decide

theorem fileName?_note_deepTree :
    ((List.replicate FileSystem.maxPathSize "d" ++ ["note.mpl"]).foldl
      Path.child ⟨"/"⟩).fileName? = some "note.mpl" := by
  rw [List.foldl_append, List.foldl_cons, List.foldl_nil]
  exact Path.fileName?_child _ (by constructor <;> decide)

theorem resolvePath?_deepTree :
    (Resolver.new ⟨"/"⟩ "" []).resolvePath? deepTree "note.mpl" = none := by
  have normalized : normalizeRecorded? "note.mpl" = some ⟨"note.mpl"⟩ := by
    decide
  rw [resolvePath?_eq_none_iff]
  intro path same strategy
  rw [normalized, Option.some.injEq] at same
  subst same
  have searched (accepts : Path → Bool) :
      deepTree.search (Resolver.new ⟨"/"⟩ "" []).searchRoots accepts = none := by
    have rootOnly : (Resolver.new ⟨"/"⟩ "" []).searchRoots = [⟨"/"⟩] := rfl
    rw [FileSystem.search_eq_find?, rootOnly]
    simp [filesUnder_deepTree]
  cases strategy with
  | projectRoot => decide
  | outputDirectory => decide
  | workspaceFolder => decide
  | fileName =>
      simp [attempt?, searched]
  | pathSuffix => exact searched _

/-- A file with the recorded components has the recorded file name, so the search for components
never finds what the search for the name has missed. -/
theorem pathSuffix_never_decides
    (lawful : files.root.Lawful)
    (resolver : Resolver) :
    (∀ recorded path found, normalizeRecorded? recorded = some path →
      resolver.attempt? files .pathSuffix path = some found →
        ∃ sameName, resolver.attempt? files .fileName path = some sameName) ∧
      ∀ recorded found, resolver.resolvePath? files recorded ≠ some (found, .pathSuffix) := by
  have nameFinds
      (recorded : String) (path found : Path)
      (normalized : normalizeRecorded? recorded = some path)
      (taken : resolver.attempt? files .pathSuffix path = some found) :
      ∃ sameName, resolver.attempt? files .fileName path = some sameName := by
    have isRecorded := isRecorded_of_normalizeRecorded? normalized
    obtain ⟨endsWith, before, behind, order, _⟩ :=
      (attempt?_eq_some_iff isRecorded).mp taken
    have looked : found ∈ resolver.inspected files .pathSuffix path := by
      rw [order]
      exact List.mem_append_right before List.mem_cons_self
    obtain ⟨name, foundName⟩ :=
      (isFile_of_accepted lawful looked endsWith).1.exists_fileName
    have pathName : path.fileName? = some name := by
      rw [← Path.EndsWith.fileName?_eq isRecorded.nonempty endsWith, foundName]
    rw [← Option.ne_none_iff_exists']
    intro missed
    exact (attempt?_eq_none_iff isRecorded).mp missed found looked
      ⟨name, pathName, foundName⟩
  refine ⟨nameFinds, fun recorded found resolved => ?_⟩
  obtain ⟨path, normalized, taken, earlierStrategies⟩ :=
    (resolvePath?_eq_some_iff recorded).mp resolved
  obtain ⟨sameName, nameTaken⟩ := nameFinds recorded path found normalized taken
  have nameTried : Strategy.fileName ∈ Strategy.pathSuffix.earlier := by
    decide
  rw [earlierStrategies .fileName nameTried] at nameTaken
  cases nameTaken

theorem filesUnder_dashTree :
    dashTree.filesUnder ⟨"/-"⟩ = [⟨"/-/lib/note.mpl"⟩] := by
  have found :
      dashTree.find ⟨"/-"⟩ =
        .ok (.directory [("lib", .directory [("note.mpl", .file [] false)])]) := rfl
  have listed : FileSystem.listed ⟨"/-"⟩ ["lib", "note.mpl"] = true := by
    decide
  have path_eq : (Path.child ⟨"/-"⟩ "lib").child "note.mpl" = ⟨"/-/lib/note.mpl"⟩ := by
    decide
  rw [FileSystem.filesUnder, if_neg (by decide), found]
  simp [Node.visibleFiles, Node.visibleEntries, isHidden, listed, path_eq]

theorem attempt?_pathSuffix_dashTree :
    (Resolver.new ⟨"/-"⟩ "" []).attempt? dashTree .pathSuffix ⟨"note.mpl"⟩ =
      some ⟨"/-/lib/note.mpl"⟩ := by
  have rootOnly : (Resolver.new ⟨"/-"⟩ "" []).searchRoots = [⟨"/-"⟩] := rfl
  rw [attempt?, FileSystem.search_eq_find?, rootOnly, List.flatMap_singleton,
    filesUnder_dashTree]
  decide

theorem fileName_finds_in_dashTree :
    (∃ sameName,
      (Resolver.new ⟨"/-"⟩ "" []).attempt? dashTree .fileName ⟨"note.mpl"⟩ =
        some sameName) ∧
      (Resolver.new ⟨"/-"⟩ "" []).resolvePath? dashTree "note.mpl" ≠
        some (⟨"/-/lib/note.mpl"⟩, .pathSuffix) :=
  have decides := pathSuffix_never_decides dashTree_lawful (.new ⟨"/-"⟩ "" [])
  ⟨decides.1 "note.mpl" ⟨"note.mpl"⟩ _ (by decide) attempt?_pathSuffix_dashTree,
    decides.2 "note.mpl" _⟩

end Resolver

end MplServer
