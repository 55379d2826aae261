import MplServer.Proofs.Server.Session

/-!
# Open documents and the active one

The text of a document is the one it was opened with or changed to last, unless it has been closed
since. The document that was opened or changed last, closed or not, is the one that is built when
none is named.
-/

namespace MplServer

/-- What an event says about the text of a document: a new text, or none after closing. -/
def documentChange (uri : String) : Event → Option (Option String)
  | .opened other text => if other.text = uri then some (some text) else none
  | .changed other texts =>
      if other.text = uri then texts.getLast?.map some else none
  | .closed other => if other.text = uri then some none else none
  | _ => none

/-- The document that an event makes the active one. A change without a text counts too. -/
def activated? : Event → Option Uri
  | .opened uri _ => some uri
  | .changed uri _ => some uri
  | _ => none

namespace Server

/-! ## One event -/

theorem lookup_unbind (uri other : String) (documents : List (String × String)) :
    (unbind other documents).lookup uri =
      if other = uri then none else documents.lookup uri := by
  unfold unbind
  induction documents with
  | nil => simp
  | cons entry others inductionHypothesis =>
      by_cases dropped : entry.1 = other
      · rw [List.filter_cons_of_neg (by simpa using dropped), inductionHypothesis]
        by_cases same : other = uri
        · rw [if_pos same, if_pos same]
        · have notNamed : (uri == entry.1) = false := by
            rw [dropped]
            exact beq_eq_false_iff_ne.mpr (Ne.symm same)
          rw [if_neg same, if_neg same, List.lookup_cons, notNamed]
      · rw [List.filter_cons_of_pos (by simpa using dropped), List.lookup_cons,
          List.lookup_cons, inductionHypothesis]
        by_cases named : uri = entry.1
        · have different : ¬ other = uri := fun same => dropped (named.symm.trans same.symm)
          rw [if_neg different, if_neg different]
        · rw [beq_eq_false_iff_ne.mpr named]

theorem lookup_bind (uri other text : String) (documents : List (String × String)) :
    (bind other text documents).lookup uri =
      if other = uri then some text else documents.lookup uri := by
  have extended : bind other text documents = (other, text) :: unbind other documents := rfl
  rw [extended, List.lookup_cons, lookup_unbind]
  by_cases same : other = uri
  · rw [if_pos same, if_pos same, beq_iff_eq.mpr same.symm]
  · rw [if_neg same, if_neg same, beq_eq_false_iff_ne.mpr (Ne.symm same)]

theorem document?_receive (uri : String) (server : Server) (turn : Turn) :
    (server.receive turn).document? uri =
      (documentChange uri turn.event).getD (server.document? uri) := by
  obtain ⟨world, event⟩ := turn
  cases event with
  | opened other text =>
      refine (lookup_bind uri other.text text server.documents).trans ?_
      simp only [documentChange, document?]
      split <;> rfl
  | changed other texts =>
      cases last : texts.getLast? with
      | none => simp [receive, handleReady, last, documentChange, document?]
      | some text =>
          simp only [receive, handleReady, last, documentChange, document?, lookup_bind]
          split <;> rfl
  | closed other =>
      refine (lookup_unbind uri other.text server.documents).trans ?_
      simp only [documentChange, document?]
      split <;> rfl
  | _ => rfl

theorem lastActive_receive (server : Server) (turn : Turn) :
    (server.receive turn).lastActive =
      ((activated? turn.event).map some).getD server.lastActive := by
  obtain ⟨world, event⟩ := turn
  cases event <;> rfl

/-! ## Whole sessions -/

theorem document?_receiveAll_of_isNew
    {server : Server} {files : FileSystem} {user : Path}
    (isNew : server.IsNew files user) (uri : String) (turns : List Turn) :
    (server.receiveAll turns).document? uri = (latest? (documentChange uri) turns).join := by
  have atFirst : server.document? uri = none := by cases isNew <;> rfl
  have latest := part_receiveAll (fun server => server.document? uri) (documentChange uri)
    (document?_receive uri) server turns
  rw [latest, atFirst]
  cases latest? (documentChange uri) turns <;> rfl

theorem lastActive_receiveAll_of_isNew
    {server : Server} {files : FileSystem} {user : Path}
    (isNew : server.IsNew files user) (turns : List Turn) :
    (server.receiveAll turns).lastActive = latest? activated? turns := by
  have atFirst : server.lastActive = none := by cases isNew <;> rfl
  have latest := part_receiveAll lastActive (fun event => (activated? event).map some)
    lastActive_receive server turns
  rw [latest, latest?_map, atFirst]
  cases latest? activated? turns <;> rfl

/-! ## The active document -/

theorem build_none_eq
    {server : Server} {uri : Uri} (active : server.lastActive = some uri) (world : World) :
    server.build world none = server.build world (some uri) := by
  have samePreparation : server.prepare world none = server.prepare world (some uri) := by
    simp only [prepare, Option.none_or, Option.some_or, active]
  simp only [build, samePreparation]

/-- A text with a part longer than another text is not that text. -/
theorem append_ne_of_longer
    {start rest whole : String}
    (longer : whole.utf8ByteSize < start.utf8ByteSize ∨
      whole.utf8ByteSize < rest.utf8ByteSize) :
    start ++ rest ≠ whole := by
  intro same
  have sizes := congrArg String.utf8ByteSize same
  rw [String.utf8ByteSize_append] at sizes
  omega

theorem message_ne_noEditor (cause : ProjectError) : cause.message ≠ "No editor" := by
  cases cause with
  | noProject file => exact append_ne_of_longer (.inl (by decide))
  | unloadable root reason => exact append_ne_of_longer (.inl (by decide))

/-- A document that is named is never missed, whatever else goes wrong. -/
theorem prepare_some_ne_noEditor (server : Server) (world : World) (uri : Uri) :
    (server.prepare world (some uri)).1 ≠ .error "No editor" := by
  intro missed
  simp only [prepare, Option.some_or] at missed
  split at missed
  · exact append_ne_of_longer (.inr (by decide)) (Except.error.inj missed)
  · split at missed
    · exact message_ne_noEditor _ (Except.error.inj missed)
    · split at missed
      · exact message_ne_noEditor _ (Except.error.inj missed)
      · cases missed

theorem notStarted_noEditor_iff (reason : String) :
    (notStarted reason).1 = .notStarted "Failed to run command: No editor" ↔
      reason = "No editor" := by
  have worded :
      "Failed to run command: No editor" = "Failed to run command: " ++ "No editor" := by decide
  rw [notStarted, worded, BuildOutcome.notStarted.injEq, String.append_right_inj]

theorem build_noEditor_iff (server : Server) (world : World) :
    (server.build world none).outcome = .notStarted "Failed to run command: No editor" ↔
      server.lastActive = none := by
  cases active : server.lastActive with
  | none => simp [build, prepare, active, notStarted]
  | some uri =>
      rw [build_none_eq active]
      refine iff_of_false ?_ (by simp)
      intro missed
      simp only [build] at missed
      split at missed
      · rename_i reason asked prepared
        apply prepare_some_ne_noEditor server world uri
        rw [prepared, (notStarted_noEditor_iff reason).mp missed]
      · split at missed
        · rename_i cause refused
          have worded := (notStarted_noEditor_iff (launchMessage cause)).mp missed
          exact append_ne_of_longer (.inl (by decide)) worded
        · simp only [finished] at missed
          split at missed <;> cases missed

/-- The texts of the documents and the active one are told by the latest events about them alone.
A build without a named document is one of the active document. -/
theorem documents_follow_latest_events
    {server : Server} {files : FileSystem} {user : Path}
    (isNew : server.IsNew files user) :
    (∀ turns, server.afterAll turns = server.receiveAll (server.heard turns)) ∧
    ∀ reached : List Turn,
      (∀ uri, (server.receiveAll reached).document? uri =
        (latest? (documentChange uri) reached).join) ∧
      (∀ world uri, latest? activated? reached = some uri →
        (server.receiveAll reached).build world none =
          (server.receiveAll reached).build world (some uri)) ∧
      ∀ world,
        ((server.receiveAll reached).build world none).outcome =
            .notStarted "Failed to run command: No editor" ↔
          ∀ turn ∈ reached, activated? turn.event = none := by
  refine ⟨server.afterAll_eq_receiveAll_heard, ?_⟩
  intro reached
  have active := lastActive_receiveAll_of_isNew isNew reached
  refine ⟨fun uri => document?_receiveAll_of_isNew isNew uri reached, ?_, ?_⟩
  · intro world uri latest
    exact build_none_eq (active.trans latest) world
  · intro world
    rw [build_noEditor_iff, active, latest?_eq_none_iff]

/-- A document below the root directory. -/
def documentNamed (name : String) : Uri :=
  ⟨"file", some "", none, "/" ++ name, none, none⟩

/-- One document is opened, changed and closed; then another is changed to no text. -/
def editing (world : World) : List Turn :=
  [⟨world, .opened (documentNamed "main.mpl") "one"⟩,
    ⟨world, .changed (documentNamed "main.mpl") ["two", "three"]⟩,
    ⟨world, .closed (documentNamed "main.mpl")⟩,
    ⟨world, .changed (documentNamed "note.mpl") []⟩]

theorem editing_follows_latest_events :
    let world : World := ⟨default, none, fun _ _ => .error .notFound⟩
    let server : Server := .detached []
    server.IsNew default ⟨""⟩ ∧
      (server.receiveAll (editing world)).document? "file:///main.mpl" = none ∧
      (server.receiveAll ((editing world).take 2)).document? "file:///main.mpl" =
        some "three" ∧
      (server.receiveAll (editing world)).build world none =
        (server.receiveAll (editing world)).build world (some (documentNamed "note.mpl")) ∧
      (server.build world none).outcome = .notStarted "Failed to run command: No editor" := by
  intro world server
  have isNew : server.IsNew default ⟨""⟩ := .detached []
  have law := (documents_follow_latest_events isNew).2
  refine ⟨isNew, ((law _).1 _).trans (by decide), ((law _).1 _).trans (by decide), ?_, ?_⟩
  · exact (law _).2.1 world _ rfl
  · exact ((law []).2.2 world).mpr (by simp)

end Server

end MplServer
