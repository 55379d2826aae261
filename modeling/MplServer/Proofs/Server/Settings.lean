import MplServer.Proofs.Project.Discovery
import MplServer.Proofs.Project.Settings
import MplServer.Proofs.Server.Session

/-!
# The settings of a session

The settings for a project come from three sources: the client's answer for its directory, the
latest payload the client has sent, and the user's file as it was when the server was made. Of a
whole session only the latest payload and the latest greeting matter.
-/

namespace MplServer

/-- What a greeting says about requests for settings. -/
def declaration? : Event → Option Bool
  | .greeting greeting => some greeting.answersConfiguration
  | _ => none

/-- The settings that an event carries: the options of a greeting, or new ones. -/
def settingsPayload? : Event → Option Json
  | .greeting greeting => greeting.options
  | .settingsChanged payload => some payload
  | _ => none

namespace Server

/-! ## One event -/

theorem answersConfiguration_receive (server : Server) (turn : Turn) :
    (server.receive turn).answersConfiguration =
      (declaration? turn.event).getD server.answersConfiguration := by
  obtain ⟨world, event⟩ := turn
  cases event <;> rfl

theorem clientSettings_receive (server : Server) (turn : Turn) :
    (server.receive turn).clientSettings =
      ((settingsPayload? turn.event).map Settings.clientSection).getD server.clientSettings := by
  obtain ⟨world, event⟩ := turn
  cases event with
  | greeting greeting =>
      obtain ⟨folders, root, options, answers⟩ := greeting
      cases options <;> rfl
  | _ => rfl

theorem connected_receive (server : Server) (turn : Turn) :
    (server.receive turn).connected = server.connected := by
  obtain ⟨world, event⟩ := turn
  cases event <;> rfl

theorem userSettings_receive (server : Server) (turn : Turn) :
    (server.receive turn).userSettings = server.userSettings := by
  obtain ⟨world, event⟩ := turn
  cases event <;> rfl

/-! ## Whole sessions -/

/-- A part of the state that no event touches. -/
theorem part_receiveAll_of_untouched
    {α : Type} (part : Server → α)
    (step : ∀ server turn, part (receive server turn) = part server)
    (server : Server) (turns : List Turn) : part (server.receiveAll turns) = part server := by
  have silent : latest? (fun _ => (none : Option α)) turns = none :=
    (latest?_eq_none_iff _ turns).mpr fun _ _ => rfl
  rw [part_receiveAll part (fun _ => none) step, silent]
  rfl

theorem connected_receiveAll (server : Server) (turns : List Turn) :
    (server.receiveAll turns).connected = server.connected :=
  part_receiveAll_of_untouched connected connected_receive server turns

theorem userSettings_receiveAll_of_isNew
    {server : Server} {files : FileSystem} {user : Path}
    (isNew : server.IsNew files user) (turns : List Turn) :
    (server.receiveAll turns).userSettings =
      if server.connected then Settings.loadUser files user else .null := by
  rw [part_receiveAll_of_untouched userSettings userSettings_receive]
  cases isNew <;> rfl

theorem answersConfiguration_receiveAll_of_isNew
    {server : Server} {files : FileSystem} {user : Path}
    (isNew : server.IsNew files user) (turns : List Turn) :
    (server.receiveAll turns).answersConfiguration =
      (latest? declaration? turns).getD false := by
  have atFirst : server.answersConfiguration = false := by cases isNew <;> rfl
  rw [part_receiveAll answersConfiguration declaration? answersConfiguration_receive, atFirst]

theorem clientSettings_receiveAll_of_isNew
    {server : Server} {files : FileSystem} {user : Path}
    (isNew : server.IsNew files user) (turns : List Turn) :
    (server.receiveAll turns).clientSettings =
      ((latest? settingsPayload? turns).map Settings.clientSection).getD .null := by
  have atFirst : server.clientSettings = .null := by cases isNew <;> rfl
  have latest := part_receiveAll clientSettings
    (fun event => (settingsPayload? event).map Settings.clientSection)
    clientSettings_receive server turns
  rw [latest, latest?_map, atFirst]

/-! ## Contexts -/

theorem ofDirectory?_isSome (path : Path) :
    (Uri.ofDirectory? path).isSome = path.isAbsolute := by
  rw [Uri.ofDirectory?, Option.isSome_map, Uri.ofPath?]
  cases path.isAbsolute <;> rfl

theorem context_of_missing
    {server : Server} {world : World} {file : Path} {cause : ProjectError}
    (missing : Project.findRoot world.files file = .error cause) :
    server.context world file = (.error cause, []) := by
  unfold context
  rw [missing]

theorem context_of_found
    {server : Server} {world : World} {file root : Path}
    (found : Project.findRoot world.files file = .ok root) :
    server.context world file =
      (.ok ⟨root, server.settingsFor world root⟩, server.configurationRequests root) := by
  unfold context
  rw [found]

/-- The client is asked about a root. -/
def asks (server : Server) (root : Path) : Bool :=
  server.connected && server.answersConfiguration && root.isAbsolute

theorem configurationScope?_of_asks
    {server : Server} {root : Path} (asked : server.asks root = true) :
    ∃ scope, Uri.ofDirectory? root = some scope ∧
      server.configurationScope? root = some scope := by
  rw [asks, Bool.and_eq_true, ← ofDirectory?_isSome] at asked
  obtain ⟨willing, absolute⟩ := asked
  obtain ⟨scope, written⟩ := Option.isSome_iff_exists.mp absolute
  refine ⟨scope, written, ?_⟩
  rw [configurationScope?, if_pos willing, written]

theorem configurationScope?_of_not_asks
    {server : Server} {root : Path} (unasked : server.asks root = false) :
    server.configurationScope? root = none := by
  rw [asks, Bool.and_eq_false_iff, ← ofDirectory?_isSome] at unasked
  rw [configurationScope?]
  rcases unasked with unwilling | relative
  · rw [if_neg (by simp [unwilling])]
  · rw [Option.isSome_eq_false_iff, Option.isNone_iff_eq_none] at relative
    rw [relative, ite_self]

theorem scopedLayer?_eq (server : Server) (world : World) (root : Path) :
    server.scopedLayer? world root =
      if server.asks root then world.reply.bind List.head? else none := by
  cases asked : server.asks root with
  | true =>
      obtain ⟨scope, _, found⟩ := configurationScope?_of_asks asked
      rw [scopedLayer?, found]
      rfl
  | false =>
      rw [scopedLayer?, configurationScope?_of_not_asks asked]
      rfl

/-- Settings that the client has never sent count as little as settings that say nothing. -/
theorem answersFrom_settingsFor
    {server : Server} {section? : Option Json}
    (sent : server.clientSettings = section?.getD .null) (world : World) (root : Path) :
    (server.settingsFor world root).AnswersFrom
      ((server.scopedLayer? world root).toList ++ section?.toList ++ [server.userSettings]) := by
  refine (Settings.answersFrom_ofLayers _).congr ?_
  intro key
  have unsent :
      Settings.firstValue? key (section?.toList ++ [server.userSettings]) =
        Settings.firstValue? key [server.clientSettings, server.userSettings] := by
    rw [sent]
    cases section? <;> rfl
  rw [List.append_assoc, Settings.firstValue?_append, unsent, ← Settings.firstValue?_append]

/-- The settings of a context come from the answer of the client, if it was asked and gave one, the
latest payload, and the user's file. The client is asked once for each context, if it is there, if
it has said that it answers, and if the root has a URI, which only an absolute path has. -/
theorem context_follows_latest_settings
    {server : Server} {files : FileSystem} {user : Path}
    (isNew : server.IsNew files user) :
    (∀ turns, server.afterAll turns = server.receiveAll (server.heard turns)) ∧
    ∀ (reached : List Turn) (world : World) (file : Path),
      (∀ cause, Project.findRoot world.files file = .error cause →
        (server.receiveAll reached).context world file = (.error cause, [])) ∧
      ∀ root, Project.findRoot world.files file = .ok root →
        (file.isAbsolute = true → file.steps ≠ [] → root.isAbsolute = true) ∧
        ∃ settings requests,
          (server.receiveAll reached).context world file = (.ok ⟨root, settings⟩, requests) ∧
          let asked := server.connected && (latest? declaration? reached).getD false &&
            root.isAbsolute
          (asked = true → ∃ scope, Uri.ofDirectory? root = some scope ∧
            requests = [.configuration scope]) ∧
          (asked = false → requests = []) ∧
          settings.AnswersFrom
            ((if asked then world.reply.bind List.head? else none).toList ++
              ((latest? settingsPayload? reached).map Settings.clientSection).toList ++
              [if server.connected then Settings.loadUser files user else .null]) := by
  refine ⟨server.afterAll_eq_receiveAll_heard, ?_⟩
  intro reached world file
  refine ⟨fun cause missing => context_of_missing missing, ?_⟩
  intro root found
  refine ⟨fun absolute named => Project.isAbsolute_of_findRoot absolute named found, ?_⟩
  refine ⟨_, _, context_of_found found, ?_⟩
  have asks_eq :
      (server.receiveAll reached).asks root =
        (server.connected && (latest? declaration? reached).getD false && root.isAbsolute) := by
    rw [asks, connected_receiveAll, answersConfiguration_receiveAll_of_isNew isNew]
  rw [← asks_eq, ← userSettings_receiveAll_of_isNew isNew reached]
  dsimp only
  rw [← scopedLayer?_eq]
  refine ⟨?_, ?_, answersFrom_settingsFor
    (clientSettings_receiveAll_of_isNew isNew reached) world root⟩
  · intro asked
    obtain ⟨scope, written, inScope⟩ := configurationScope?_of_asks asked
    refine ⟨scope, written, ?_⟩
    rw [configurationRequests, inScope]
    rfl
  · intro unasked
    rw [configurationRequests, configurationScope?_of_not_asks unasked]
    rfl

/-- A client that answers requests for settings sends its own when it greets, and others later. -/
def configuring (world : World) : List Turn :=
  [⟨world, .greeting ⟨none, none, some (.object [("compilerPath", .string "greeted")]), true⟩⟩,
    ⟨world, .settingsChanged (.object [("compiler", .object
      [("compilerPath", .string "sent"), ("includePath", .string "lib")])])⟩]

/-- For the inner project the client answers with a number where a path is asked for. -/
def answeringWorld : World where
  files := Project.innerProject
  reply := some [.object [("compilerPath", .integer 3), ("includePath", .null)]]
  launch := fun _ _ => .error .notFound

theorem configuring_follows_latest_settings :
    let server : Server := .forClient (Settings.loadUser default ⟨"/settings.toml"⟩)
    server.IsNew default ⟨"/settings.toml"⟩ ∧
      ∃ settings,
        (server.receiveAll (configuring answeringWorld)).context answeringWorld
            ⟨"/inner/src/main.mpl"⟩ =
          (.ok ⟨⟨"/inner"⟩, settings⟩,
            [.configuration ⟨"file", some "", none, "/inner/", none, none⟩]) ∧
        settings.compilerPath = "mplc" ∧ settings.includePaths = ["lib"] := by
  intro server
  have isNew : server.IsNew default ⟨"/settings.toml"⟩ := .forClient
  have found :
      Project.findRoot answeringWorld.files ⟨"/inner/src/main.mpl"⟩ = .ok ⟨"/inner"⟩ :=
    Project.findRoot_of_findUpwards (by decide)
  obtain ⟨_, settings, requests, whole, asked, _, answers⟩ :=
    ((context_follows_latest_settings isNew).2 (configuring answeringWorld) answeringWorld
      ⟨"/inner/src/main.mpl"⟩).2 _ found
  obtain ⟨scope, written, once⟩ := asked rfl
  have inner :
      Uri.ofDirectory? ⟨"/inner"⟩ = some ⟨"file", some "", none, "/inner/", none, none⟩ := by
    decide
  rw [inner, Option.some.injEq] at written
  rw [once, ← written] at whole
  refine ⟨isNew, settings, whole, answers.defaultCompiler ?_, answers.singleInclude "lib" rfl⟩
  intro path
  exact fun first => by cases first

/-- The root directory is its own project when its configuration lies in the working directory. Its
root is then the dot, which has no URI. -/
def rootWorld : World where
  files := ⟨.directory [("mpl.json", .file [] false)], []⟩
  reply := some [.object [("compilerPath", .string "scoped")]]
  launch := fun _ _ => .error .notFound

/-- There is a client that answers, and the root of an absolute path is found. Still the client is
not asked, and what it would answer has no part in the settings. -/
theorem root_directory_not_asked :
    let server : Server :=
      (forClient .null).receiveAll [⟨rootWorld, .greeting ⟨none, none, none, true⟩⟩]
    (Path.mk "/").isAbsolute = true ∧ server.connected = true ∧
      server.answersConfiguration = true ∧
      ∃ root settings,
        server.context rootWorld ⟨"/"⟩ = (.ok ⟨root, settings⟩, []) ∧
        settings.compilerPath ≠ "scoped" := by
  intro server
  have found : Project.findRoot rootWorld.files ⟨"/"⟩ = .ok ⟨"."⟩ :=
    Project.findRoot_of_findUpwards (by decide)
  have whole :
      server.context rootWorld ⟨"/"⟩ =
        (.ok ⟨⟨"."⟩, server.settingsFor rootWorld ⟨"."⟩⟩, server.configurationRequests ⟨"."⟩) :=
    context_of_found found
  rw [configurationRequests, configurationScope?_of_not_asks rfl] at whole
  refine ⟨by decide, rfl, rfl, _, _, whole, ?_⟩
  decide

end Server

end MplServer
