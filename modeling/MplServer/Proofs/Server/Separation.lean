import MplServer.Proofs.Server.Definitions
import MplServer.Proofs.Server.Documents
import MplServer.Proofs.Server.Folders
import MplServer.Proofs.Server.Reports

/-!
# What an answer depends on

A definition is answered from the files, the folders and the text of the document that is open; a
build is prepared from the files and the settings of its project. The rest of the state makes no
difference to either. Two servers that are alike in these parts answer alike, and a document that
has been opened and closed again leaves no trace.
-/

namespace MplServer

/-- An event opens, changes or closes a document. -/
def Event.isAbout (uri : String) : Event → Bool
  | .opened other _ => other.text = uri
  | .changed other _ => other.text = uri
  | .closed other => other.text = uri
  | _ => false

/-- The turns of a session without those about a document. -/
def aside (uri : String) (turns : List Turn) : List Turn :=
  turns.filter fun turn => !turn.event.isAbout uri

namespace Server

variable {server other : Server} {world otherWorld : World} {uri : Uri}

/-! ## Definitions -/

/-- Two servers have the same folders and the same open text of a document, or neither has
it open. -/
structure SeenAlike (uri : String) (server other : Server) : Prop where
  folders : server.folders = other.folders
  text : server.document? uri = other.document? uri

theorem SeenAlike.symbolAt?_eq
    (alike : SeenAlike uri.text server other) (files : FileSystem) (line column : Nat) :
    server.symbolAt? files uri line column = other.symbolAt? files uri line column := by
  simp only [symbolAt?, textOf?, alike.text]

/-- The settings are put together on the way to a definition, but the lookup does not go by them. -/
theorem SeenAlike.definition_eq
    (alike : SeenAlike uri.text server other) (sameFiles : world.files = otherWorld.files)
    (line column : Nat) :
    (server.definition world uri line column).1 =
      (other.definition otherWorld uri line column).1 := by
  have sameSymbol := alike.symbolAt?_eq otherWorld.files line column
  cases asked : server.symbolAt? world.files uri line column with
  | none =>
      have alsoAsked : other.symbolAt? otherWorld.files uri line column = none := by
        rw [← sameSymbol, ← sameFiles, asked]
      simp only [definition, asked, alsoAsked]
  | some found =>
      obtain ⟨path, symbol⟩ := found
      have alsoAsked :
          other.symbolAt? otherWorld.files uri line column = some (path, symbol) := by
        rw [← sameSymbol, ← sameFiles, asked]
      cases project : Project.findRoot world.files path with
      | error cause =>
          have alsoMissing : Project.findRoot otherWorld.files path = .error cause := by
            rw [← sameFiles, project]
          rw [definition_of_missing asked project, definition_of_missing alsoAsked alsoMissing]
      | ok root =>
          have alsoFound : Project.findRoot otherWorld.files path = .ok root := by
            rw [← sameFiles, project]
          rw [definition_of_found asked project, definition_of_found alsoAsked alsoFound,
            alike.folders, sameFiles]

/-- The answer to a request for a definition. -/
theorem answer_handle_definition
    (server : Server) (world : World) (uri : Uri) (line column : Nat) :
    (server.handle world (.definition uri line column)).answer =
      if server.phase = .ready then
        match (server.definition world uri line column).1 with
        | some locations => .locations locations
        | none => .nothing
      else .refused (refusal server.phase) := by
  unfold handle
  split
  · simp only [handleReady]
    rcases server.definition world uri line column with ⟨none | locations, messages⟩ <;> rfl
  · rfl

theorem SeenAlike.answer_eq
    (alike : SeenAlike uri.text server other) (sameFiles : world.files = otherWorld.files)
    (samePhase : server.phase = other.phase) (line column : Nat) :
    (server.handle world (.definition uri line column)).answer =
      (other.handle otherWorld (.definition uri line column)).answer := by
  rw [answer_handle_definition, answer_handle_definition, samePhase,
    alike.definition_eq sameFiles line column]

/-! ## Documents that were open for a while -/

theorem hears_eq_of_phase
    (samePhase : server.phase = other.phase) (event : Event) :
    server.hears event = other.hears event := by
  cases event <;> simp only [hears, samePhase]

theorem phaseAfter_of_isAbout
    {uri : String} {event : Event} (about : event.isAbout uri = true) (phase : Phase) :
    phaseAfter phase event = phase := by
  cases event with
  | opened other text => rfl
  | changed other texts => rfl
  | closed other => rfl
  | _ => cases about

theorem foldersAfter_of_isAbout
    {uri : String} {event : Event} (about : event.isAbout uri = true) (folders : List Path) :
    foldersAfter folders event = folders := by
  cases event with
  | opened other text => rfl
  | changed other texts => rfl
  | closed other => rfl
  | _ => cases about

theorem aside_cons_of_isAbout
    {uri : String} {turn : Turn} (about : turn.event.isAbout uri = true) (later : List Turn) :
    aside uri (turn :: later) = aside uri later :=
  List.filter_cons_of_neg (by simp [about])

theorem aside_cons_of_not_isAbout
    {uri : String} {turn : Turn} (notAbout : turn.event.isAbout uri = false)
    (later : List Turn) :
    aside uri (turn :: later) = turn :: aside uri later :=
  List.filter_cons_of_pos (by simp [notAbout])

/-- A part of the state that the events about a document leave alone is the same after a session as
it would be without them. -/
theorem part_receiveAll_aside
    {α : Type} {uri : String} (part : Server → α) (after : α → Event → α)
    (step : ∀ server turn, part (receive server turn) = after (part server) turn.event)
    (quiet : ∀ event, event.isAbout uri = true → ∀ value, after value event = value)
    (turns : List Turn) (same : part server = part other) :
    part (server.receiveAll turns) = part (other.receiveAll (aside uri turns)) := by
  induction turns generalizing server other with
  | nil => exact same
  | cons turn later inductionHypothesis =>
      cases about : turn.event.isAbout uri with
      | true =>
          rw [aside_cons_of_isAbout about]
          apply inductionHypothesis
          rw [step, quiet _ about, same]
      | false =>
          rw [aside_cons_of_not_isAbout about]
          apply inductionHypothesis
          rw [step, step, same]

/-- The same other events get through whether or not those about a document come. -/
theorem heard_aside
    {uri : String} (turns : List Turn) (samePhase : server.phase = other.phase) :
    other.heard (aside uri turns) = aside uri (server.heard turns) := by
  induction turns generalizing server other with
  | nil => rfl
  | cons turn later inductionHypothesis =>
      cases about : turn.event.isAbout uri with
      | true =>
          rw [aside_cons_of_isAbout about, heard]
          split
          · rw [aside_cons_of_isAbout about]
            apply inductionHypothesis
            rw [phase_receive, phaseAfter_of_isAbout about, samePhase]
          · exact inductionHypothesis samePhase
      | false =>
          rw [aside_cons_of_not_isAbout about, heard, heard,
            hears_eq_of_phase samePhase turn.event]
          split
          · rw [aside_cons_of_not_isAbout about]
            congr 1
            apply inductionHypothesis
            rw [phase_receive, phase_receive, samePhase]
          · exact inductionHypothesis samePhase

theorem documentChange_of_not_isAbout
    {uri : String} {event : Event} (notAbout : event.isAbout uri = false) :
    documentChange uri event = none := by
  cases event <;> simp_all [Event.isAbout, documentChange]

theorem document?_receiveAll (uri : String) (server : Server) (turns : List Turn) :
    (server.receiveAll turns).document? uri =
      (latest? (documentChange uri) turns).getD (server.document? uri) :=
  part_receiveAll (fun server => server.document? uri) (documentChange uri)
    (document?_receive uri) server turns

/-- A document that has been open for a while and is closed now looks as if it had never
been open. -/
theorem seenAlike_aside
    {uri : String} {turns : List Turn}
    (unopened : server.document? uri = none)
    (closed : (latest? (documentChange uri) turns).join = none) :
    SeenAlike uri (server.receiveAll turns) (server.receiveAll (aside uri turns)) where
  folders :=
    part_receiveAll_aside folders foldersAfter folders_receive
      (fun _ about => foldersAfter_of_isAbout about) turns rfl
  text := by
    have silent : latest? (documentChange uri) (aside uri turns) = none := by
      rw [latest?_eq_none_iff]
      intro turn member
      have notAbout := (List.mem_filter.mp member).2
      exact documentChange_of_not_isAbout (by simpa using notAbout)
    rw [document?_receiveAll, document?_receiveAll, silent, unopened]
    cases told : latest? (documentChange uri) turns with
    | none => rfl
    | some text? =>
        rw [told] at closed
        exact closed

theorem answer_afterAll_aside
    {turns : List Turn}
    (unopened : server.document? uri.text = none)
    (closed : (latest? (documentChange uri.text) (server.heard turns)).join = none)
    (world : World) (line column : Nat) :
    ((server.afterAll turns).handle world (.definition uri line column)).answer =
      ((server.afterAll (aside uri.text turns)).handle world
        (.definition uri line column)).answer := by
  rw [afterAll_eq_receiveAll_heard, afterAll_eq_receiveAll_heard, heard_aside turns rfl]
  apply (seenAlike_aside unopened closed).answer_eq rfl
  exact part_receiveAll_aside phase phaseAfter phase_receive
    (fun _ about => phaseAfter_of_isAbout about) (server.heard turns) rfl

/-! ## Builds -/

/-- Two servers give the same settings to the project of a document. -/
def ConfigureAlike
    (uri : Uri) (server other : Server) (world otherWorld : World) : Prop :=
  ∀ path root,
    uri.toPath? = some path →
    Project.findRoot world.files path = .ok root →
      server.settingsFor world root = other.settingsFor otherWorld root

theorem ConfigureAlike.prepare_eq
    (alike : ConfigureAlike uri server other world otherWorld)
    (sameFiles : world.files = otherWorld.files) :
    (server.prepare world (some uri)).1 = (other.prepare otherWorld (some uri)).1 := by
  cases names : uri.toPath? with
  | none => simp only [prepare, Option.some_or, names]
  | some path =>
      cases project : Project.findRoot world.files path with
      | error cause =>
          have alsoMissing : Project.findRoot otherWorld.files path = .error cause := by
            rw [← sameFiles, project]
          rw [prepare_some_of_missing names project, prepare_some_of_missing names alsoMissing]
      | ok root =>
          have alsoFound : Project.findRoot otherWorld.files path = .ok root := by
            rw [← sameFiles, project]
          rw [prepare_some_of_found names project, prepare_some_of_found names alsoFound,
            sameFiles, alike path root names project]

theorem start_eq_of_sameLaunch
    (sameFiles : world.files = otherWorld.files) (sameLaunch : world.launch = otherWorld.launch)
    (prepared : Prepared) :
    start world prepared = start otherWorld prepared := by
  unfold start
  rw [sameFiles, sameLaunch]

/-- A build ends as it does because of what was prepared and of the compiler, and leaves the files
accordingly. -/
theorem build_eq_of_prepare_eq
    {target otherTarget : Option Uri}
    (samePreparation :
      (server.prepare world target).1 = (other.prepare otherWorld otherTarget).1)
    (sameFiles : world.files = otherWorld.files)
    (sameLaunch : world.launch = otherWorld.launch) :
    (server.build world target).outcome = (other.build otherWorld otherTarget).outcome ∧
      (server.build world target).files = (other.build otherWorld otherTarget).files := by
  cases preparation : (server.prepare world target).1 with
  | error reason =>
      have alsoUnprepared := samePreparation.symm.trans preparation
      rw [build_of_unprepared preparation, build_of_unprepared alsoUnprepared]
      exact ⟨rfl, sameFiles⟩
  | ok prepared =>
      have alsoReady := samePreparation.symm.trans preparation
      have sameStart := start_eq_of_sameLaunch sameFiles sameLaunch prepared
      cases started : start world prepared with
      | error cause =>
          rw [build_of_refused preparation started,
            build_of_refused alsoReady (sameStart.symm.trans started)]
          exact ⟨rfl, sameFiles⟩
      | ok ending =>
          rw [build_of_ran preparation started,
            build_of_ran alsoReady (sameStart.symm.trans started)]
          exact ⟨rfl, rfl⟩

/-! ## Both -/

/-- A definition goes by the files, the folders and the open text of the document, and a document
that has been opened and closed again leaves no trace in it. What a build of a document launches,
and where, goes by the files and the settings of its project. -/
theorem answers_depend_on_their_part :
    (∀ (server other : Server) (world otherWorld : World) (uri : Uri),
      SeenAlike uri.text server other →
      world.files = otherWorld.files →
        ∀ line column,
          (server.definition world uri line column).1 =
              (other.definition otherWorld uri line column).1 ∧
            (server.phase = other.phase →
              (server.handle world (.definition uri line column)).answer =
                (other.handle otherWorld (.definition uri line column)).answer)) ∧
    (∀ (server : Server) (turns : List Turn) (uri : Uri),
      server.document? uri.text = none →
      (latest? (documentChange uri.text) (server.heard turns)).join = none →
        ∀ world line column,
          ((server.afterAll turns).handle world (.definition uri line column)).answer =
            ((server.afterAll (aside uri.text turns)).handle world
              (.definition uri line column)).answer) ∧
    ∀ (server other : Server) (world otherWorld : World) (uri : Uri),
      world.files = otherWorld.files →
      ConfigureAlike uri server other world otherWorld →
        (server.prepare world (some uri)).1 = (other.prepare otherWorld (some uri)).1 ∧
          (world.launch = otherWorld.launch →
            (server.build world (some uri)).outcome =
                (other.build otherWorld (some uri)).outcome ∧
              (server.build world (some uri)).files =
                (other.build otherWorld (some uri)).files) := by
  refine ⟨?_, ?_, ?_⟩
  · intro server other world otherWorld uri alike sameFiles line column
    exact ⟨alike.definition_eq sameFiles line column,
      fun samePhase => alike.answer_eq sameFiles samePhase line column⟩
  · intro server turns uri unopened closed world line column
    exact answer_afterAll_aside unopened closed world line column
  · intro server other world otherWorld uri sameFiles alike
    have samePreparation := alike.prepare_eq sameFiles
    exact ⟨samePreparation, build_eq_of_prepare_eq samePreparation sameFiles⟩

/-- A notebook whose only page mentions `main`. -/
def inkedNotebook : FileSystem :=
  (notebook (tableWith .null)).put ["main.mpl"] (.file (Text.encode "main") false)

def besideNotebook (reply : Option (List Json)) : World where
  files := inkedNotebook
  reply
  launch := fun _ _ => .error .notFound

def mainPage : Uri :=
  documentNamed "main.mpl"

/-- A server for a client that answers requests for settings and has a document open. -/
def busyServer : Server :=
  { forClient (.object [("compilerPath", .string "own")]) with
    phase := .ready
    documents := [("file:///note.mpl", "note")]
    lastActive := some (documentNamed "note.mpl")
    answersConfiguration := true }

def idleServer : Server :=
  { detached [] with phase := .ready }

/-- The page is opened, changed and closed while another document is open. -/
def perusal (world : World) : List Turn :=
  [⟨world, .opened mainPage "note"⟩,
    ⟨world, .settingsChanged (.object [("compilerPath", .string "sent")])⟩,
    ⟨world, .changed mainPage ["noted", "notes"]⟩,
    ⟨world, .closed mainPage⟩]

/-- A server with no documents, another folder and no active document. -/
def clearedServer : Server :=
  { busyServer with documents := [], folders := [⟨"/"⟩], lastActive := none }

theorem notebook_answers_depend_on_their_part :
    (idleServer.definition (besideNotebook none) mainPage 0 0).1 =
        (busyServer.definition (besideNotebook (some [.null])) mainPage 0 0).1 ∧
      (idleServer.definition (besideNotebook none) mainPage 0 0).1 =
        some [⟨mainPage, 0, 0⟩] ∧
      ((busyServer.afterAll (perusal (besideNotebook none))).handle (besideNotebook none)
          (.definition mainPage 0 0)).answer =
        ((busyServer.afterAll (aside mainPage.text (perusal (besideNotebook none)))).handle
          (besideNotebook none) (.definition mainPage 0 0)).answer ∧
      (busyServer.prepare (besideNotebook none) (some mainPage)).1 =
        (clearedServer.prepare (besideNotebook none) (some mainPage)).1 := by
  have alike : SeenAlike mainPage.text idleServer busyServer := ⟨rfl, by decide⟩
  have closed :
      (latest? (documentChange mainPage.text)
        (busyServer.heard (perusal (besideNotebook none)))).join = none := rfl
  have configured :
      ConfigureAlike mainPage busyServer clearedServer (besideNotebook none)
        (besideNotebook none) :=
    fun _ _ _ _ => rfl
  obtain ⟨definitions, sessions, builds⟩ := answers_depend_on_their_part
  refine ⟨?_, by decide +kernel, ?_, ?_⟩
  · exact (definitions idleServer busyServer (besideNotebook none)
      (besideNotebook (some [.null])) mainPage alike rfl 0 0).1
  · exact sessions busyServer (perusal (besideNotebook none)) mainPage (by decide) closed
      (besideNotebook none) 0 0
  · exact (builds busyServer clearedServer (besideNotebook none) (besideNotebook none) mainPage
      rfl configured).1

end Server

end MplServer
