import MplServer.Proofs.CommandLine
import MplServer.Proofs.Definition.Room
import MplServer.Proofs.Server.Builds

/-!
# Definitions and printed places

What a server answers when it is asked for a definition is what the command line prints for the
file and the symbol, place by place, as long as the paths that are looked at are short enough to be
followed.
-/

namespace MplServer

theorem FileSystem.isAbsolute_currentDirectory (files : FileSystem) :
    files.currentDirectory.isAbsolute = true := by
  simp [currentDirectory, Path.isAbsolute]

namespace Server

variable {server : Server} {world : World} {files : FileSystem}

/-! ## One place -/

/-- A line is printed for a location: it shows a path with the location's URI, the location's line
and its column. The URI tells the path up to its spelling. The greatest line and the greatest column
have no successor of 32 bits, so nothing is said of them. -/
structure IsPrintedAs (location : ClientLocation) (line : String) : Prop where
  written : ∃ path, Uri.ofPath? path = some location.uri
  places :
    ∀ path row column,
      row < Occurrence.maxPosition →
        column < Occurrence.maxPosition →
          ((Uri.ofPath? path = some location.uri ∧ location.line = row ∧
              location.column = column) ↔
            ∃ spelled : Path, spelled.sameAs path = true ∧
              line =
                spelled.text ++ ":" ++ toString (row + 1) ++ ":" ++ toString (column + 1))

theorem isPrintedAs_of_whereabouts_eq
    {location other : Location} {client : ClientLocation}
    (same : location.whereabouts = other.whereabouts)
    (inRange :
      location.line ≤ Occurrence.maxPosition ∧ location.column ≤ Occurrence.maxPosition)
    (told : location.forClient? = some client) :
    IsPrintedAs client (Command.placeText other) := by
  obtain ⟨uri, written, rfl⟩ := Option.map_eq_some_iff.mp told
  obtain ⟨sameComponents, sameLine, sameColumn⟩ :
      location.path.components = other.path.components ∧ location.line = other.line ∧
        location.column = other.column := by
    simpa [Location.whereabouts] using same
  refine ⟨⟨location.path, written⟩, ?_⟩
  intro path row column rowBelow columnBelow
  rw [sameLine, sameColumn] at inRange
  have printedFrom (spelled : Path) :=
    @Command.placeText_eq_printed_succ_iff other spelled row column inRange.1 inRange.2 rowBelow
      columnBelow
  constructor
  · rintro ⟨alsoWritten, line_eq, column_eq⟩
    have spelled := Uri.components_eq_of_ofPath?_eq written alsoWritten
    refine ⟨other.path, ?_, ?_⟩
    · rw [Path.sameAs, decide_eq_true_iff, ← sameComponents, spelled]
    · apply (printedFrom other.path).mpr
      exact ⟨rfl, sameLine.symm.trans line_eq, sameColumn.symm.trans column_eq⟩
  · rintro ⟨spelled, sameAs, line_eq⟩
    obtain ⟨rfl, rfl, rfl⟩ := (printedFrom spelled).mp line_eq
    have sameSpelled := of_decide_eq_true sameAs
    refine ⟨?_, sameLine, sameColumn⟩
    rw [← written]
    apply Uri.ofPath?_eq_of_components_eq
    rw [sameComponents, sameSpelled]

/-! ## All places -/

/-- No location is lost on its way to the client, and for each a line is printed. -/
theorem forall₂_isPrintedAs
    {found alike : List Location}
    (same : found.map Location.whereabouts = alike.map Location.whereabouts)
    (absolute : ∀ location ∈ found, location.path.isAbsolute = true)
    (inRange :
      ∀ location ∈ found,
        location.line ≤ Occurrence.maxPosition ∧ location.column ≤ Occurrence.maxPosition) :
    List.Forall₂ IsPrintedAs (found.filterMap Location.forClient?)
      (alike.map Command.placeText) := by
  induction found generalizing alike with
  | nil =>
      rw [List.map_nil, eq_comm, List.map_eq_nil_iff] at same
      rw [same]
      exact .nil
  | cons first others inductionHypothesis =>
      cases alike with
      | nil => simp at same
      | cons second rest =>
          rw [List.map_cons, List.map_cons, List.cons.injEq] at same
          rw [List.forall_mem_cons] at absolute inRange
          obtain ⟨uri, written⟩ := Option.isSome_iff_exists.mp (Uri.isSome_ofPath? absolute.1)
          have told :
              first.forClient? = some ⟨uri, first.line, first.column⟩ := by
            rw [Location.forClient?, written]
            rfl
          rw [List.filterMap_cons_some told, List.map_cons]
          exact .cons (isPrintedAs_of_whereabouts_eq same.1 inRange.1 told)
            (inductionHypothesis same.2 absolute.2 inRange.2)

/-- What a request for a definition is answered with is what a command prints: nothing and exit
code 1, or a line for each location. -/
structure AnswersPrinted
    (answer : Option (List ClientLocation)) (report : Command.Report) : Prop where
  nothing : answer = none ↔ report.code = 1 ∧ report.output = []
  found :
    ∀ locations, answer = some locations →
      locations ≠ [] ∧ report.code = 0 ∧ List.Forall₂ IsPrintedAs locations report.output

theorem answersPrinted_failure (complaint : String) :
    AnswersPrinted none (.failure complaint) where
  nothing := by simp [Command.Report.failure]
  found := by simp

theorem answersPrinted_success
    {locations : List ClientLocation} {lines : List String}
    (nonempty : locations ≠ []) (each : List.Forall₂ IsPrintedAs locations lines) :
    AnswersPrinted (some locations) (.success lines) where
  nothing := by simp [Command.Report.success]
  found := by
    rintro _ ⟨⟩
    exact ⟨nonempty, rfl, each⟩

/-! ## Two ways to a lookup -/

theorem symbolAt?_eq_some
    {uri : Uri} {path : Path} {text symbol : String} {line column : Nat}
    (names : uri.toPath? = some path)
    (isSource : path.extension? = some sourceExtension)
    (reads : server.textOf? files uri path = some text)
    (identified : Text.identifierAt text line column = some symbol) :
    server.symbolAt? files uri line column = some (path, symbol) := by
  simp [symbolAt?, names, isSource, reads, identified]

theorem definition_of_missing
    {uri : Uri} {path : Path} {symbol : String} {line column : Nat} {cause : ProjectError}
    (asked : server.symbolAt? world.files uri line column = some (path, symbol))
    (missing : Project.findRoot world.files path = .error cause) :
    (server.definition world uri line column).1 = none := by
  unfold definition
  rw [asked]
  dsimp only
  rw [context_of_missing missing]

theorem definition_of_found
    {uri : Uri} {path root : Path} {symbol : String} {line column : Nat}
    (asked : server.symbolAt? world.files uri line column = some (path, symbol))
    (found : Project.findRoot world.files path = .ok root) :
    (server.definition world uri line column).1 =
      if ((Definition.lookup world.files root server.folders symbol).filterMap
          Location.forClient?).isEmpty then none
      else some ((Definition.lookup world.files root server.folders symbol).filterMap
          Location.forClient?) := by
  unfold definition
  rw [asked]
  dsimp only
  rw [context_of_found found]

theorem run_definition_of_missing
    {settings : Settings} {file : Path} {symbol : String} {cause : ProjectError}
    (missing :
      Project.findRoot files (Path.absolute files.currentDirectory file) = .error cause) :
    Command.run files settings (.definition file symbol) = .failure cause.message := by
  unfold Command.run Command.listDefinitions
  dsimp only
  rw [missing]
  rfl

theorem run_definition_of_found
    {settings : Settings} {file root : Path} {symbol : String}
    (found : Project.findRoot files (Path.absolute files.currentDirectory file) = .ok root) :
    Command.run files settings (.definition file symbol) =
      if (Definition.lookup files root [files.currentDirectory] symbol).isEmpty then
        .failure ("no definition found for " ++ symbol)
      else
        .success ((Definition.lookup files root [files.currentDirectory] symbol).map
          Command.placeText) := by
  unfold Command.run Command.listDefinitions
  dsimp only
  rw [found]
  simp only [Bind.bind, Except.bind, pure, Except.pure]
  cases Definition.lookup files root [files.currentDirectory] symbol <;> rfl

/-- From two spellings of a file, a request for a definition is answered with what the command line
prints for the symbol. -/
theorem answersPrinted_of_room
    {uri : Uri} {path file : Path} {symbol : String} {line column : Nat}
    (sameTree : world.files.root = files.root)
    (sameFolders : server.folders = [files.currentDirectory])
    (names : uri.toPath? = some path)
    (named : path.steps ≠ [])
    (same : path.components = (Path.absolute files.currentDirectory file).components)
    (room :
      path = Path.absolute files.currentDirectory file ∨
        Project.HasRoomThroughout world.files path ∧
          Project.HasRoomThroughout files (Path.absolute files.currentDirectory file))
    (asked : server.symbolAt? world.files uri line column = some (path, symbol))
    (settings : Settings) :
    AnswersPrinted (server.definition world uri line column).1
      (Command.run files settings (.definition file symbol)) := by
  rcases Project.findRoot_sameProject_cases sameTree.symm (Uri.isAbsolute_of_toPath? names) same
      named room with
    ⟨root, other, found, alsoFound, sameProject⟩ | ⟨cause, otherCause, missing, alsoMissing⟩
  · have foldersAbsolute :
        ∀ folder ∈ [files.currentDirectory], folder.isAbsolute = true := by
      intro folder member
      rw [List.mem_singleton.mp member]
      exact files.isAbsolute_currentDirectory
    have sameLookup := sameProject.map_lookup sameTree.symm foldersAbsolute symbol
    have each :=
      forall₂_isPrintedAs sameLookup
        (fun _ member => isAbsolute_of_mem_lookup sameProject.absolute foldersAbsolute member)
        (fun _ member => position_le_of_mem_lookup member)
    rw [definition_of_found asked found, run_definition_of_found alsoFound, sameFolders]
    by_cases none : Definition.lookup files other [files.currentDirectory] symbol = []
    · rw [none, List.map_nil, List.forall₂_nil_right_iff] at each
      rw [each, none]
      exact answersPrinted_failure _
    · have someLocation :
          (Definition.lookup world.files root [files.currentDirectory] symbol).filterMap
            Location.forClient? ≠ [] := by
        intro noLocation
        rw [noLocation, List.forall₂_nil_left_iff, List.map_eq_nil_iff] at each
        exact none each
      rw [if_neg (by simpa using someLocation), if_neg (by simpa using none)]
      exact answersPrinted_success someLocation each
  · rw [definition_of_missing asked missing, run_definition_of_missing alsoMissing]
    exact answersPrinted_failure _

/-- When a server whose only folder is the working directory is asked for the definition of a
symbol, it answers with what is printed there for the file and the symbol: with nothing when nothing
is printed, and else with one location for each line. The document's path may be spelled otherwise
than the file's, if there is room for the paths that are looked at. -/
theorem definitions_are_what_is_printed
    (server : Server) (world : World) (files : FileSystem) (settings : Settings)
    (uri : Uri) (path file : Path) (text symbol : String) (line column : Nat)
    (sameTree : world.files.root = files.root)
    (sameFolders : server.folders = [files.currentDirectory])
    (absolute : file.isAbsolute = true)
    (isSource : file.extension? = some sourceExtension)
    (names : uri.toPath? = some path)
    (sameFile : path.sameAs file = true)
    (room :
      path = Path.absolute files.currentDirectory file ∨
        Project.HasRoomThroughout world.files path ∧
          Project.HasRoomThroughout files (Path.absolute files.currentDirectory file))
    (reads : server.textOf? world.files uri path = some text)
    (identified : Text.identifierAt text line column = some symbol) :
    ∃ command,
      Command.parse? ["definition", file.text, symbol] = some command ∧
        AnswersPrinted (server.definition world uri line column).1
          (command.run files settings) := by
  have sameComponents : path.components = file.components :=
    of_decide_eq_true sameFile
  have pathIsSource : path.extension? = some sourceExtension := by
    rw [Path.extension?, Path.fileName?_eq_of_components_eq sameComponents]
    exact isSource
  have named : path.steps ≠ [] := by
    intro noSteps
    obtain ⟨name, fileName, _⟩ := Option.bind_eq_some_iff.mp pathIsSource
    rw [Path.fileName?_eq_some_iff, noSteps] at fileName
    cases fileName
  have madeAbsolute :
      (Path.absolute files.currentDirectory file).components = file.components :=
    Path.components_absolute files.isAbsolute_currentDirectory absolute
  have asked := symbolAt?_eq_some names pathIsSource reads identified
  refine ⟨.definition file symbol, Command.parse?_definition absolute identified, ?_⟩
  apply answersPrinted_of_room sameTree sameFolders names named _ room asked
  rw [madeAbsolute, sameComponents]

/-! ## Open documents -/

/-- A server with one folder and one open document, which mentions `main`. -/
def reading (folder : Path) (uri : Uri) : Server :=
  { detached [folder] with documents := [(uri.text, "main")] }

theorem textOf?_reading (folder path : Path) (uri : Uri) (files : FileSystem) :
    (reading folder uri).textOf? files uri path = some "main" := by
  have isOpen : (reading folder uri).document? uri.text = some "main" := by
    simp [reading, document?]
  rw [textOf?, isOpen]

theorem identifierAt_main : Text.identifierAt "main" 0 0 = some "main" := by
  decide

theorem listed_notebook
    {metadata : Json} {root : Path} {names : Place}
    (short : root.text.utf8ByteSize ≤ FileSystem.maxPathSize)
    (member : names ∈ (notebook metadata).root.visibleFiles) :
    FileSystem.listed root names = true := by
  have noDirectory : names.dropLast = [] := by
    simp only [notebook, Node.visibleFiles, List.mem_flatMap, List.mem_mergeSort,
      Node.mem_visibleEntries_iff] at member
    obtain ⟨entry, ⟨_, node, isEntry, below⟩, inEntry⟩ := member
    simp only [List.mem_cons, Prod.mk.injEq, List.not_mem_nil, or_false] at isEntry
    have isFile : node.visibleFiles = [[]] := by
      rcases isEntry with ⟨_, rfl⟩ | ⟨_, rfl⟩ | ⟨_, rfl⟩ <;> simp [Node.visibleFiles]
    rw [below, isFile] at inEntry
    simp only [List.map_cons, List.map_nil, List.mem_singleton] at inEntry
    rw [inEntry]
    rfl
  rw [FileSystem.listed, noDirectory]
  exact decide_eq_true short

theorem toOption_loadConfiguration_of_parse
    {root : Path} {text : String} {configuration : Configuration}
    (read : files.readText (root.child Configuration.fileName) = .ok text)
    (parsed : (Configuration.parse text).toOption = some configuration) :
    (Project.loadConfiguration files root).toOption = some configuration := by
  rw [Project.toOption_loadConfiguration, ← FileSystem.toOption_readText,
    Project.configurationPath, read, Except.toOption, Option.bind_some, parsed]

theorem artifactPath_app (root : Path) (entryBase : String) :
    Metadata.artifactPath root "app" entryBase = root.child "app.meta.json" := by
  have named : Text.trim "app" = "app" := by
    decide
  have joined :=
    @Metadata.artifactPath_eq_join_of_named "app" root entryBase (by decide)
  rw [joined, named]
  rfl

theorem hasRoomThroughout_drawer
    {place : Place} {file root : Path}
    (room : Project.HasRoom file)
    (found :
      Project.findUpwards ⟨drawer, place⟩ Project.maxDirectories (Project.directoryOf file) =
        some root)
    (configuration :
      (⟨drawer, place⟩ : FileSystem).find (root.child Configuration.fileName) =
        .ok (.file (Text.encode notebookConfiguration) false))
    (directory :
      (⟨drawer, place⟩ : FileSystem).find root = .ok (notebook (tableWith .null)).root)
    (short : (root.child "app.meta.json").text.utf8ByteSize ≤ FileSystem.maxPathSize) :
    Project.HasRoomThroughout ⟨drawer, place⟩ file := by
  have loaded :=
    toOption_loadConfiguration_of_parse (readText_of_find configuration)
      parse_notebookConfiguration
  refine .of_found room (Project.findRoot_of_findUpwards found) loaded ?_ directory ?_
  · dsimp only
    rw [artifactPath_app]
    exact short
  · intro names
    exact listed_notebook (FileSystem.size_le_of_find directory)

theorem run_definition_drawer :
    Command.run ⟨drawer, ["proj"]⟩ (.ofLayers [])
        (.definition ⟨"/proj/sub/main.mpl"⟩ "main") =
      .success ["/proj/sub/main.mpl:1:1"] := by
  decide +kernel

theorem drawer_answers_what_is_printed :
    (∃ command,
      Command.parse? ["definition", "/proj/sub/main.mpl", "main"] = some command ∧
        AnswersPrinted
          ((reading ⟨"/proj"⟩ (Uri.ofText "/proj/./sub/main.mpl")).definition besideDrawer
            (Uri.ofText "/proj/./sub/main.mpl") 0 0).1
          (command.run ⟨drawer, ["proj"]⟩ (.ofLayers []))) ∧
      Command.run ⟨drawer, ["proj"]⟩ (.ofLayers [])
          (.definition ⟨"/proj/sub/main.mpl"⟩ "main") =
        .success ["/proj/sub/main.mpl:1:1"] := by
  constructor
  · exact definitions_are_what_is_printed
      (reading ⟨"/proj"⟩ (Uri.ofText "/proj/./sub/main.mpl")) besideDrawer
      ⟨drawer, ["proj"]⟩ (.ofLayers []) (Uri.ofText "/proj/./sub/main.mpl")
      ⟨"/proj/./sub/main.mpl"⟩ ⟨"/proj/sub/main.mpl"⟩ "main" "main" 0 0 rfl (by decide)
      (by decide) (by decide) (by decide) (by decide)
      (.inr
        ⟨@hasRoomThroughout_drawer [] _ ⟨"/proj/./sub"⟩ (by decide) (by decide) rfl rfl
            (by decide),
          @hasRoomThroughout_drawer ["proj"] _ ⟨"/proj/sub"⟩ (by decide) (by decide) rfl rfl
            (by decide)⟩)
      (textOf?_reading ..) identifierAt_main
  · exact run_definition_drawer

/-! ## Where they part -/

theorem run_definition_spread
    (files : FileSystem) (settings : Settings) (count : Nat) (symbol : String) :
    Command.run files settings (.definition (Project.spread count) symbol) =
      Command.run files settings (.definition ⟨"/proj/sub/main.mpl"⟩ symbol) := by
  unfold Command.run
  dsimp only
  rw [Project.absolute_spread_eq]

theorem extension?_spread (count : Nat) :
    (Project.spread count).extension? = some sourceExtension := by
  have named : (Project.spread count).fileName? = some "main.mpl" := by
    rw [Path.fileName?_eq_some_iff, Project.steps_spread]
    rfl
  rw [Path.extension?, named]
  decide

/-- A directory with a project, and another directory beside it. -/
def pantry : Node :=
  .directory
    [("proj", .directory
        [("mpl.json", .file (Text.encode notebookConfiguration) false),
          ("app.meta.json", .file (Text.encode (tableWith .null).render) false),
          ("sub", .directory [("main.mpl", .file [] false)])]),
      ("desk", .directory [])]

theorem filesUnder_pantry :
    (⟨pantry, ["desk"]⟩ : FileSystem).filesUnder ⟨"//proj"⟩ =
      [⟨"//proj/app.meta.json"⟩, ⟨"//proj/mpl.json"⟩, ⟨"//proj/sub/main.mpl"⟩] := by
  have found :
      (⟨pantry, ["desk"]⟩ : FileSystem).find ⟨"//proj"⟩ =
        .ok (.directory
          [("mpl.json", .file (Text.encode notebookConfiguration) false),
            ("app.meta.json", .file (Text.encode (tableWith .null).render) false),
            ("sub", .directory [("main.mpl", .file [] false)])]) := rfl
  have visible :
      (Node.directory
          [("mpl.json", .file (Text.encode notebookConfiguration) false),
            ("app.meta.json", .file (Text.encode (tableWith .null).render) false),
            ("sub", .directory [("main.mpl", .file [] false)])]).visibleFiles =
        [["app.meta.json"], ["mpl.json"], ["sub", "main.mpl"]] := by
    simp [Node.visibleFiles, Node.visibleEntries, isHidden, List.mergeSort]
  rw [FileSystem.filesUnder, if_neg (by decide), found]
  dsimp only
  rw [visible]
  decide

/-- The file is found by its name, and spelled as the root is. -/
theorem resolvePath?_pantry :
    (Resolver.new ⟨"//proj"⟩ "app" [⟨"/desk"⟩]).resolvePath? ⟨pantry, ["desk"]⟩ "main.mpl" =
      some (⟨"//proj/sub/main.mpl"⟩, .fileName) := by
  have searched :
      (Resolver.new ⟨"//proj"⟩ "app" [⟨"/desk"⟩]).searchRoots = [⟨"/desk"⟩, ⟨"//proj"⟩] := by
    decide
  have nothingThere :
      (⟨pantry, ["desk"]⟩ : FileSystem).filesUnder ⟨"/desk"⟩ = [] := by
    have found : (⟨pantry, ["desk"]⟩ : FileSystem).find ⟨"/desk"⟩ = .ok (.directory []) := rfl
    rw [FileSystem.filesUnder, if_neg (by decide), found]
    simp [Node.visibleFiles, Node.visibleEntries]
  refine (Resolver.resolvePath?_eq_some_iff "main.mpl").mpr
    ⟨⟨"main.mpl"⟩, by decide, ?_, by decide⟩
  have named : (⟨"main.mpl"⟩ : Path).fileName? = some "main.mpl" := by
    decide
  unfold Resolver.attempt?
  dsimp only
  rw [named, Option.bind_eq_bind, Option.bind_some, FileSystem.search_eq_find?, searched,
    List.flatMap_cons, List.flatMap_singleton, nothingThere, filesUnder_pantry]
  decide

theorem located?_pantry :
    located? ⟨pantry, ["desk"]⟩ (.new ⟨"//proj"⟩ "app" [⟨"/desk"⟩])
        (.object [("file", .string "main.mpl")]) =
      some ⟨⟨"//proj/sub/main.mpl"⟩, 0, 0, .fileName⟩ := by
  have occurrence :
      Occurrence.ofJson? (.object [("file", .string "main.mpl")]) =
        some ⟨some "main.mpl", none, none⟩ := by
    decide
  have path_eq : Occurrence.path ⟨some "main.mpl", none, none⟩ = "main.mpl" := rfl
  have first : Occurrence.zeroBased none = 0 := by
    decide
  unfold located?
  rw [occurrence, Option.bind_eq_bind, Option.bind_some, path_eq, resolvePath?_pantry]
  dsimp only [Option.bind_eq_bind, Option.bind_some]
  rw [first]
  rfl

theorem lookup_pantry :
    Definition.lookup ⟨pantry, ["desk"]⟩ ⟨"//proj"⟩ [⟨"/desk"⟩] "main" =
      [⟨⟨"//proj/sub/main.mpl"⟩, 0, 0, .fileName⟩] := by
  have loaded :
      (Project.loadConfiguration ⟨pantry, ["desk"]⟩ ⟨"//proj"⟩).toOption =
        some ⟨none, none, none, "main.mpl", "app", none, none⟩ :=
    toOption_loadConfiguration_of_parse (readText_of_find rfl) parse_notebookConfiguration
  have document :
      (⟨pantry, ["desk"]⟩ : FileSystem).readText (Path.child ⟨"//proj"⟩ "app.meta.json") =
        .ok (tableWith .null).render :=
    readText_of_find rfl
  have parsed := (isTableDocument_tableWith (.inl rfl)).parse (height_tableWith (.inl rfl))
  rw [← artifactPath_app ⟨"//proj"⟩
    (Configuration.entryBase ⟨none, none, none, "main.mpl", "app", none, none⟩)] at document
  have items :
      itemsOf "main"
          [("main", .array [.object [("file", .string "main.mpl")]]), ("other", .null)] =
        [.object [("file", .string "main.mpl")]] := rfl
  rw [lookup_of_document loaded document parsed, items,
    List.filterMap_cons_some located?_pantry, List.filterMap_nil]

theorem run_definition_pantry (settings : Settings) :
    Command.run ⟨pantry, ["desk"]⟩ settings (.definition ⟨"//proj/sub/main.mpl"⟩ "main") =
      .success ["//proj/sub/main.mpl:1:1"] := by
  have found :
      Project.findRoot ⟨pantry, ["desk"]⟩
          (Path.absolute (⟨pantry, ["desk"]⟩ : FileSystem).currentDirectory
            ⟨"//proj/sub/main.mpl"⟩) =
        .ok ⟨"//proj"⟩ :=
    Project.findRoot_of_findUpwards (by decide)
  have working : (⟨pantry, ["desk"]⟩ : FileSystem).currentDirectory = ⟨"/desk"⟩ := by
    decide
  have line :
      Command.placeText ⟨⟨"//proj/sub/main.mpl"⟩, 0, 0, .fileName⟩ = "//proj/sub/main.mpl:1:1" := by
    decide
  rw [run_definition_of_found found, working, lookup_pantry, List.map_singleton, line]
  rfl

def besidePantry : World where
  files := ⟨pantry, ["desk"]⟩
  reply := none
  launch := fun _ _ => .error .notFound

theorem definition_pantry :
    ((reading ⟨"/desk"⟩ (Uri.ofText "//proj/sub/main.mpl")).definition besidePantry
        (Uri.ofText "//proj/sub/main.mpl") 0 0).1 =
      some [⟨Uri.ofText "/proj/sub/main.mpl", 0, 0⟩] := by
  have names : (Uri.ofText "//proj/sub/main.mpl").toPath? = some ⟨"//proj/sub/main.mpl"⟩ := by
    decide
  have asked :=
    symbolAt?_eq_some names (by decide)
      (textOf?_reading ⟨"/desk"⟩ _ (Uri.ofText "//proj/sub/main.mpl") besidePantry.files)
      identifierAt_main
  have found : Project.findRoot besidePantry.files ⟨"//proj/sub/main.mpl"⟩ = .ok ⟨"//proj"⟩ :=
    Project.findRoot_of_findUpwards (by decide)
  have sameFolders :
      (reading ⟨"/desk"⟩ (Uri.ofText "//proj/sub/main.mpl")).folders = [⟨"/desk"⟩] := rfl
  have told :
      Location.forClient? ⟨⟨"//proj/sub/main.mpl"⟩, 0, 0, .fileName⟩ =
        some ⟨Uri.ofText "/proj/sub/main.mpl", 0, 0⟩ := by
    decide
  have lookup_eq :
      Definition.lookup besidePantry.files ⟨"//proj"⟩ [⟨"/desk"⟩] "main" =
        [⟨⟨"//proj/sub/main.mpl"⟩, 0, 0, .fileName⟩] :=
    lookup_pantry
  rw [definition_of_found asked found, sameFolders, lookup_eq, List.filterMap_cons_some told]
  rfl

/-- A place is printed for a file with many slashes in its name, but a request on its URI finds
nothing. And a URI does not tell how a path is spelled: that of a location may belong to a path
other than the printed one. -/
theorem printed_but_not_answered :
    ((spreadUri 4200).toPath? = some (Project.spread 4200) ∧
      (Project.spread 4200).isAbsolute = true ∧
      .parent ∉ (Project.spread 4200).components ∧
      (Project.spread 4200).extension? = some sourceExtension ∧
      (reading ⟨"/proj"⟩ (spreadUri 4200)).folders =
        [(⟨drawer, ["proj"]⟩ : FileSystem).currentDirectory] ∧
      (reading ⟨"/proj"⟩ (spreadUri 4200)).textOf? besideDrawer.files (spreadUri 4200)
          (Project.spread 4200) =
        some "main" ∧
      Text.identifierAt "main" 0 0 = some "main" ∧
      ((reading ⟨"/proj"⟩ (spreadUri 4200)).definition besideDrawer (spreadUri 4200) 0 0).1 =
        none ∧
      Command.run ⟨drawer, ["proj"]⟩ (.ofLayers [])
          (.definition (Project.spread 4200) "main") =
        .success ["/proj/sub/main.mpl:1:1"]) ∧
    ((reading ⟨"/desk"⟩ (Uri.ofText "//proj/sub/main.mpl")).definition besidePantry
          (Uri.ofText "//proj/sub/main.mpl") 0 0).1 =
        some [⟨Uri.ofText "/proj/sub/main.mpl", 0, 0⟩] ∧
      Uri.ofPath? ⟨"/proj/sub/main.mpl"⟩ = some (Uri.ofText "/proj/sub/main.mpl") ∧
      Command.run besidePantry.files (.ofLayers [])
          (.definition ⟨"//proj/sub/main.mpl"⟩ "main") =
        .success ["//proj/sub/main.mpl:1:1"] := by
  have names := toPath?_spreadUri 4200
  have isSource := extension?_spread 4200
  have reads :=
    textOf?_reading ⟨"/proj"⟩ (Project.spread 4200) (spreadUri 4200) besideDrawer.files
  have noParent : .parent ∉ (Project.spread 4200).components := by
    rw [Path.components_of_isAbsolute Project.isAbsolute_spread, Project.steps_spread]
    decide
  have unanswered :=
    definition_of_missing (symbolAt?_eq_some names isSource reads identifierAt_main)
      findRoot_spread_besideDrawer
  have printed :
      Command.run ⟨drawer, ["proj"]⟩ (.ofLayers [])
          (.definition (Project.spread 4200) "main") =
        .success ["/proj/sub/main.mpl:1:1"] := by
    rw [run_definition_spread]
    exact run_definition_drawer
  exact ⟨⟨names, Project.isAbsolute_spread, noParent, isSource, by decide, reads,
    identifierAt_main, unanswered, printed⟩, definition_pantry, by decide,
    run_definition_pantry (.ofLayers [])⟩

end Server

end MplServer
