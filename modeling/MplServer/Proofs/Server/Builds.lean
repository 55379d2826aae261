import MplServer.CommandLine
import MplServer.Proofs.Definition.Lookup
import MplServer.Proofs.Project.Spelling
import MplServer.Proofs.Server.Settings
import MplServer.Proofs.Uri.File

/-!
# Builds and listed arguments

What a server launches to build a file is what the command line lists for it, as long as the client
has no settings of its own and the file's name leaves room for that of a configuration.
-/

namespace MplServer

/-! ## Layers that make no difference -/

namespace Configuration

theorem invocation_insert_of_neutral
    {layer : Json} (neutral : Settings.IsNeutral layer)
    (configuration : Configuration) (root : Path) (upper lower : List Json) :
    configuration.invocation root (.ofLayers (upper ++ layer :: lower)) =
      configuration.invocation root (.ofLayers (upper ++ lower)) :=
  invocation_eq_of_firstValue?_eq
    (Settings.firstValue?_insert neutral (by simp) upper lower)
    (Settings.firstValue?_insert neutral (by simp) upper lower) configuration root

end Configuration

namespace Server

variable {server : Server} {world : World} {files : FileSystem}

/-- The client has nothing to say about either key. -/
structure ClientNeutral (server : Server) (world : World) : Prop where
  answer :
    ∀ root layer, server.scopedLayer? world root = some layer → Settings.IsNeutral layer
  workspace : Settings.IsNeutral server.clientSettings

theorem ClientNeutral.invocation_eq
    (neutral : ClientNeutral server world) (configuration : Configuration) (root : Path) :
    configuration.invocation root (server.settingsFor world root) =
      configuration.invocation root (.ofLayers [server.userSettings]) := by
  have withoutSection :
      configuration.invocation root (.ofLayers [server.clientSettings, server.userSettings]) =
        configuration.invocation root (.ofLayers [server.userSettings]) :=
    configuration.invocation_insert_of_neutral neutral.workspace root [] _
  rw [settingsFor, ← withoutSection]
  cases answered : server.scopedLayer? world root with
  | none => rfl
  | some layer =>
      exact configuration.invocation_insert_of_neutral (neutral.answer root layer answered) root
        [] _

/-! ## Two ways to a command line -/

/-- A build launches what a command prints, one word on a line; or both fail, for want of a project
or of its configuration. -/
inductive LaunchesListed : Except String Prepared → Command.Report → Prop where
  | launched (prepared : Prepared) :
      LaunchesListed (.ok prepared) (.success prepared.invocation.words)
  | noProject (file other : Path) :
      LaunchesListed (.error (ProjectError.noProject file).message)
        (.failure (ProjectError.noProject other).message)
  | unloadable (root other : Path) (cause otherCause : ConfigurationError) :
      LaunchesListed (.error (ProjectError.unloadable root cause).message)
        (.failure (ProjectError.unloadable other otherCause).message)

theorem findRoot_error
    {file : Path} {cause : ProjectError} (missing : Project.findRoot files file = .error cause) :
    cause = .noProject file := by
  unfold Project.findRoot at missing
  split at missing
  · cases missing
  · exact (Except.error.inj missing).symm

theorem loadConfiguration_error
    {root : Path} {cause : ProjectError}
    (failed : Project.loadConfiguration files root = .error cause) :
    ∃ reason, cause = .unloadable root reason := by
  unfold Project.loadConfiguration at failed
  cases loaded : Configuration.load files root with
  | ok configuration =>
      rw [loaded] at failed
      cases failed
  | error reason =>
      rw [loaded] at failed
      exact ⟨reason, (Except.error.inj failed).symm⟩

theorem prepare_some_of_missing
    {uri : Uri} {path : Path} {cause : ProjectError}
    (names : uri.toPath? = some path)
    (missing : Project.findRoot world.files path = .error cause) :
    (server.prepare world (some uri)).1 = .error cause.message := by
  unfold prepare
  simp only [Option.some_or, names, context_of_missing missing]

theorem prepare_some_of_found
    {uri : Uri} {path root : Path}
    (names : uri.toPath? = some path)
    (found : Project.findRoot world.files path = .ok root) :
    (server.prepare world (some uri)).1 =
      match Project.loadConfiguration world.files root with
      | .error cause => .error cause.message
      | .ok configuration =>
          .ok ⟨root, configuration.invocation root (server.settingsFor world root)⟩ := by
  unfold prepare
  simp only [Option.some_or, names, context_of_found found]
  cases Project.loadConfiguration world.files root <;> rfl

theorem run_arguments_of_missing
    {settings : Settings} {file : Path} {cause : ProjectError}
    (missing :
      Project.findRoot files (Path.absolute files.currentDirectory file) = .error cause) :
    Command.run files settings (.arguments file) = .failure cause.message := by
  unfold Command.run Command.listArguments
  dsimp only
  rw [missing]
  rfl

theorem run_arguments_of_found
    {settings : Settings} {file root : Path}
    (found : Project.findRoot files (Path.absolute files.currentDirectory file) = .ok root) :
    Command.run files settings (.arguments file) =
      match Project.loadConfiguration files root with
      | .error cause => .failure cause.message
      | .ok configuration => .success (configuration.invocation root settings).words := by
  unfold Command.run Command.listArguments
  dsimp only
  rw [found]
  simp only [Bind.bind, Except.bind]
  cases Project.loadConfiguration files root <;> rfl

/-- From two spellings of a file, a build launches what the command line lists. -/
theorem launchesListed_of_sameFile
    {uri : Uri} {path file : Path}
    (sameTree : world.files.root = files.root)
    (names : uri.toPath? = some path)
    (sameFile : Project.SameFile path (Path.absolute files.currentDirectory file))
    (sameStart :
      path.steps = [] → world.files.workingDirectory = files.workingDirectory)
    (neutral : ClientNeutral server world) :
    LaunchesListed (server.prepare world (some uri)).1
      (Command.run files (.ofLayers [server.userSettings]) (.arguments file)) := by
  rcases sameFile.findRoot_cases sameTree.symm fun noSteps => (sameStart noSteps).symm with
    ⟨root, other, found, alsoFound, sameRoot⟩ | ⟨cause, otherCause, missing, alsoMissing⟩
  · have sameLoad := sameRoot.toOption_loadConfiguration
    rw [prepare_some_of_found names found, run_arguments_of_found alsoFound]
    cases loaded : Project.loadConfiguration world.files root with
    | ok configuration =>
        rw [loaded] at sameLoad
        cases alsoLoaded : Project.loadConfiguration files other with
        | error otherCause =>
            rw [alsoLoaded] at sameLoad
            cases sameLoad
        | ok otherConfiguration =>
            rw [alsoLoaded] at sameLoad
            obtain rfl : otherConfiguration = configuration := Option.some.inj sameLoad
            dsimp only
            rw [neutral.invocation_eq, ← sameRoot.invocation_eq]
            exact .launched ⟨root, _⟩
    | error cause =>
        rw [loaded] at sameLoad
        obtain ⟨reason, rfl⟩ := loadConfiguration_error loaded
        cases alsoLoaded : Project.loadConfiguration files other with
        | ok otherConfiguration =>
            rw [alsoLoaded] at sameLoad
            cases sameLoad
        | error otherCause =>
            obtain ⟨otherReason, rfl⟩ := loadConfiguration_error alsoLoaded
            exact .unloadable root other reason otherReason
  · rw [prepare_some_of_missing names missing, run_arguments_of_missing alsoMissing,
      findRoot_error missing, findRoot_error alsoMissing]
    exact .noProject path _

/-- A layer without a value for either key makes no difference to a command line, wherever it
stands, and layers count only through the first values they have. So what a server launches for a
file is what the command line lists, if the client has nothing to say and both go by the same
user's file: for two texts of one path, unless one of them has no room for a configuration, and in
any working directory, unless the file is the root directory. -/
theorem builds_launch_what_is_listed :
    (∀ (configuration : Configuration) (root : Path) (layer : Json) (upper lower : List Json),
      Settings.IsNeutral layer →
        configuration.invocation root (.ofLayers (upper ++ layer :: lower)) =
          configuration.invocation root (.ofLayers (upper ++ lower))) ∧
    (∀ (configuration : Configuration) (root : Path) (layers others : List Json),
      (∀ key ∈ [Settings.compilerPathKey, Settings.includePathKey],
        Settings.firstValue? key layers = Settings.firstValue? key others) →
          configuration.invocation root (.ofLayers layers) =
            configuration.invocation root (.ofLayers others)) ∧
    ∀ (server : Server) (world : World) (files : FileSystem) (uri : Uri) (path file : Path),
      world.files.root = files.root →
      uri.toPath? = some path →
      path.sameAs (Path.absolute files.currentDirectory file) = true →
      (path.steps = [] → world.files.workingDirectory = files.workingDirectory) →
      (path.steps ≠ [] →
        path = Path.absolute files.currentDirectory file ∨
          Project.HasRoom path ∧
            Project.HasRoom (Path.absolute files.currentDirectory file)) →
      ClientNeutral server world →
        LaunchesListed (server.prepare world (some uri)).1
          (Command.run files (.ofLayers [server.userSettings]) (.arguments file)) := by
  refine ⟨?_, ?_, ?_⟩
  · intro configuration root layer upper lower neutral
    exact configuration.invocation_insert_of_neutral neutral root upper lower
  · intro configuration root layers others same
    exact configuration.invocation_eq_of_firstValue?_eq (same _ (by simp)) (same _ (by simp)) root
  · intro server world files uri path file sameTree names same sameStart room neutral
    have components_eq := of_decide_eq_true same
    exact launchesListed_of_sameFile sameTree names
      ⟨Uri.isAbsolute_of_toPath? names, components_eq, room⟩ sameStart neutral

/-- A project in a directory of its own, two levels down. -/
def drawer : Node :=
  .directory [("proj", .directory [("sub", (notebook (tableWith .null)).root)])]

/-- A server beside the drawer, whose client knows no settings. -/
def besideDrawer : World where
  files := ⟨drawer, []⟩
  reply := none
  launch := fun _ _ => .error .notFound

theorem clientNeutral_detached (world : World) : ClientNeutral (.detached []) world where
  answer := fun _ _ answered => by cases answered
  workspace := .inl rfl

theorem drawer_launches_what_is_listed :
    LaunchesListed
      ((detached []).prepare besideDrawer (some (Uri.ofText "/proj/./sub/main.mpl"))).1
      (Command.run ⟨drawer, ["proj"]⟩ (.ofLayers [.null]) (.arguments ⟨"sub/main.mpl"⟩)) ∧
    Command.run ⟨drawer, ["proj"]⟩ (.ofLayers [.null]) (.arguments ⟨"sub/main.mpl"⟩) =
      .success ["mplc", "-ndebug", "-o", "app", "main.mpl"] := by
  constructor
  · exact builds_launch_what_is_listed.2.2 (detached []) besideDrawer ⟨drawer, ["proj"]⟩
      (Uri.ofText "/proj/./sub/main.mpl") ⟨"/proj/./sub/main.mpl"⟩ ⟨"sub/main.mpl"⟩ rfl
      (by decide) (by decide) (by decide) (fun _ => .inr ⟨by decide, by decide⟩)
      (clientNeutral_detached besideDrawer)
  · decide +kernel

/-- The URI of a file that is written with so many slashes. -/
def spreadUri (count : Nat) : Uri :=
  Uri.ofText (Project.spread count).text

theorem toPath?_spreadUri (count : Nat) :
    (spreadUri count).toPath? = some (Project.spread count) := by
  apply Uri.toPath?_ofText
  · simp
  · intro piece member
    simp only [List.mem_append, List.mem_cons, List.mem_replicate, List.not_mem_nil,
      or_false] at member
    rcases member with (rfl | ⟨_, rfl⟩) | rfl | rfl <;> decide
  · obtain ⟨middle, shape⟩ := @Project.exists_text_spread_eq count
    change Uri.isDrive ((Project.spread count).text.toList.drop
      ((Project.spread count).text.toList.length - 2)) = false
    have ending :
        (Project.spread count).text.toList =
          ('/' :: 'p' :: (middle ++ "main.m".toList)) ++ "pl".toList := by
      rw [shape]
      simp
    have lastTwo :
        (Project.spread count).text.toList.length - 2 =
          ('/' :: 'p' :: (middle ++ "main.m".toList)).length := by
      rw [ending, List.length_append]
      rfl
    rw [lastTwo, ending, List.drop_left]
    decide

theorem findRoot_spread_besideDrawer :
    Project.findRoot besideDrawer.files (Project.spread 4200) =
      .error (.noProject (Project.spread 4200)) :=
  Project.findRoot_spread (by decide) (by decide) (by decide)

theorem run_arguments_spread (files : FileSystem) (settings : Settings) (count : Nat) :
    Command.run files settings (.arguments (Project.spread count)) =
      Command.run files settings (.arguments ⟨"/proj/sub/main.mpl"⟩) := by
  unfold Command.run
  dsimp only
  rw [Project.absolute_spread_eq]

/-- The directory of a project, with its configuration, and one without. -/
def shelf : Node :=
  .directory
    [("mpl.json", .file (Text.encode notebookConfiguration) false), ("sub", .directory [])]

def besideShelf : World where
  files := ⟨shelf, []⟩
  reply := none
  launch := fun _ _ => .error .notFound

/-- A command is printed for a file with many slashes in its name, but none is launched. For the
root directory one is launched from there, but none is printed in another directory. -/
theorem listed_but_not_launched :
    (ClientNeutral (.detached []) besideDrawer ∧
      (spreadUri 4200).toPath? = some (Project.spread 4200) ∧
      Command.run besideDrawer.files (.ofLayers [.null]) (.arguments (Project.spread 4200)) =
        .success ["mplc", "-ndebug", "-o", "app", "main.mpl"] ∧
      ∃ reason,
        ((detached []).prepare besideDrawer (some (spreadUri 4200))).1 = .error reason) ∧
    ClientNeutral (.detached []) besideShelf ∧
      (Uri.ofText "/").toPath? = some ⟨"/"⟩ ∧
      (((detached []).prepare besideShelf (some (Uri.ofText "/"))).1.toOption.map
        fun prepared => prepared.invocation.words) =
          some ["mplc", "-ndebug", "-o", "app", "main.mpl"] ∧
      (Command.run ⟨shelf, ["sub"]⟩ (.ofLayers [.null]) (.arguments ⟨"/"⟩)).code = 1 := by
  refine ⟨⟨clientNeutral_detached besideDrawer, toPath?_spreadUri 4200, ?_, ?_⟩,
    clientNeutral_detached besideShelf, by decide, by decide +kernel, by decide +kernel⟩
  · rw [run_arguments_spread]
    decide +kernel
  · exact ⟨_,
      prepare_some_of_missing (toPath?_spreadUri 4200) findRoot_spread_besideDrawer⟩

end Server

end MplServer
