import MplServer.Proofs.Server.Builds

/-!
# What a build reports

A build asks its client for settings at most once, then it writes lines to the client's log, and
last it shows one message. What is logged and what is shown agree with how the build ended.
-/

namespace MplServer.Server

variable {server : Server} {world : World} {target : Option Uri}

/-! ## How far a build comes -/

theorem build_of_unprepared
    {reason : String}
    (unprepared : (server.prepare world target).1 = .error reason) :
    server.build world target =
      ⟨.notStarted ("Failed to run command: " ++ reason),
        (server.prepare world target).2 ++
          server.send [.notice .error ("Failed to run command: " ++ reason)],
        world.files⟩ := by
  unfold build
  rcases whole : server.prepare world target with ⟨preparation, asked⟩
  rw [whole] at unprepared
  obtain rfl : preparation = .error reason := unprepared
  rfl

theorem build_of_refused
    {prepared : Prepared} {cause : FileError}
    (ready : (server.prepare world target).1 = .ok prepared)
    (refused : start world prepared = .error cause) :
    server.build world target =
      ⟨.notStarted ("Failed to run command: " ++ launchMessage cause),
        (server.prepare world target).2 ++
          server.send
            [.log .log ("Running: " ++ prepared.invocation.display),
              .log .log (launchMessage cause),
              .notice .error ("Failed to run command: " ++ launchMessage cause)],
        world.files⟩ := by
  unfold build
  rcases whole : server.prepare world target with ⟨preparation, asked⟩
  rw [whole] at ready
  obtain rfl : preparation = .ok prepared := ready
  simp only [refused]
  rfl

theorem build_of_ran
    {prepared : Prepared} {run : Run} {files : FileSystem}
    (ready : (server.prepare world target).1 = .ok prepared)
    (ended : start world prepared = .ok (run, files)) :
    server.build world target =
      ⟨(finished run).1,
        (server.prepare world target).2 ++
          server.send
            ([.log .log ("Running: " ++ prepared.invocation.display)] ++
              run.lines.map (.log .log) ++ (finished run).2),
        files⟩ := by
  unfold build
  rcases whole : server.prepare world target with ⟨preparation, asked⟩
  rw [whole] at ready
  obtain rfl : preparation = .ok prepared := ready
  simp only [ended]

/-- The compiler of a build was started, and this is its run. -/
def Ran (server : Server) (world : World) (target : Option Uri) (run : Run) : Prop :=
  ∃ prepared files,
    (server.prepare world target).1 = .ok prepared ∧ start world prepared = .ok (run, files)

/-- Why the compiler of a build was not started: the build could not be prepared, or the command
could not be launched. -/
inductive Prevented (server : Server) (world : World) (target : Option Uri) :
    String → Prop where
  | unprepared {reason : String}
      (failed : (server.prepare world target).1 = .error reason) :
      Prevented server world target reason
  | refused {prepared : Prepared} {cause : FileError}
      (ready : (server.prepare world target).1 = .ok prepared)
      (failed : start world prepared = .error cause) :
      Prevented server world target (launchMessage cause)

theorem ran_or_prevented (server : Server) (world : World) (target : Option Uri) :
    (∃ run, server.Ran world target run) ∨ ∃ cause, server.Prevented world target cause := by
  cases preparation : (server.prepare world target).1 with
  | error reason => exact .inr ⟨reason, .unprepared preparation⟩
  | ok prepared =>
      cases started : start world prepared with
      | error cause => exact .inr ⟨_, .refused preparation started⟩
      | ok ending => exact .inl ⟨ending.1, prepared, ending.2, preparation, started⟩

theorem outcome_of_ran
    {run : Run} (ran : server.Ran world target run) :
    (server.build world target).outcome =
      if run.code = 0 then .succeeded else .failed run.code := by
  obtain ⟨prepared, files, ready, ended⟩ := ran
  rw [build_of_ran ready ended]
  unfold finished
  split <;> rfl

theorem outcome_of_prevented
    {cause : String} (prevented : server.Prevented world target cause) :
    (server.build world target).outcome =
      .notStarted ("Failed to run command: " ++ cause) := by
  cases prevented with
  | unprepared failed => rw [build_of_unprepared failed]
  | refused ready failed => rw [build_of_refused ready failed]

/-! ## How it ended -/

theorem outcome_eq_succeeded_iff (server : Server) (world : World) (target : Option Uri) :
    (server.build world target).outcome = .succeeded ↔
      ∃ run, server.Ran world target run ∧ run.code = 0 := by
  constructor
  · intro succeeded
    rcases server.ran_or_prevented world target with ⟨run, ran⟩ | ⟨cause, prevented⟩
    · refine ⟨run, ran, ?_⟩
      by_contra nonzero
      rw [outcome_of_ran ran, if_neg nonzero] at succeeded
      cases succeeded
    · rw [outcome_of_prevented prevented] at succeeded
      cases succeeded
  · rintro ⟨run, ran, zero⟩
    rw [outcome_of_ran ran, if_pos zero]

theorem outcome_eq_failed_iff
    (server : Server) (world : World) (target : Option Uri) (code : Nat) :
    (server.build world target).outcome = .failed code ↔
      ∃ run, server.Ran world target run ∧ run.code = code ∧ code ≠ 0 := by
  constructor
  · intro failed
    rcases server.ran_or_prevented world target with ⟨run, ran⟩ | ⟨cause, prevented⟩
    · rw [outcome_of_ran ran] at failed
      split at failed
      · cases failed
      · next nonzero =>
        obtain rfl := BuildOutcome.failed.inj failed
        exact ⟨run, ran, rfl, nonzero⟩
    · rw [outcome_of_prevented prevented] at failed
      cases failed
  · rintro ⟨run, ran, rfl, nonzero⟩
    rw [outcome_of_ran ran, if_neg nonzero]

theorem outcome_eq_notStarted_iff
    (server : Server) (world : World) (target : Option Uri) (message : String) :
    (server.build world target).outcome = .notStarted message ↔
      ∃ cause, server.Prevented world target cause ∧
        message = "Failed to run command: " ++ cause := by
  constructor
  · intro notStarted
    rcases server.ran_or_prevented world target with ⟨run, ran⟩ | ⟨cause, prevented⟩
    · rw [outcome_of_ran ran] at notStarted
      split at notStarted <;> cases notStarted
    · rw [outcome_of_prevented prevented] at notStarted
      exact ⟨cause, prevented, (BuildOutcome.notStarted.inj notStarted).symm⟩
  · rintro ⟨cause, prevented, rfl⟩
    exact outcome_of_prevented prevented

/-! ## What the client is told -/

/-- While a build is prepared the client is asked for settings at most once. -/
theorem prepare_asks_once (server : Server) (world : World) (target : Option Uri) :
    (server.prepare world target).2 = [] ∨
      ∃ scope, (server.prepare world target).2 = [.configuration scope] := by
  have asksOnce (root : Path) :
      server.configurationRequests root = [] ∨
        ∃ scope, server.configurationRequests root = [.configuration scope] := by
    unfold configurationRequests
    cases server.configurationScope? root with
    | none => exact .inl rfl
    | some scope => exact .inr ⟨scope, rfl⟩
  unfold prepare
  cases target.or server.lastActive with
  | none => exact .inl rfl
  | some uri =>
      dsimp only
      cases uri.toPath? with
      | none => exact .inl rfl
      | some path =>
          dsimp only
          cases found : Project.findRoot world.files path with
          | error cause =>
              rw [context_of_missing found]
              exact .inl rfl
          | ok root =>
              rw [context_of_found found]
              dsimp only
              cases Project.loadConfiguration world.files root with
              | error cause => exact asksOnce root
              | ok configuration => exact asksOnce root

/-- The message a user is shown for an outcome. -/
def shown : BuildOutcome → Severity × String
  | .succeeded => (.info, "Build succeeded")
  | .failed code => (.error, "Process exited with code " ++ toString code)
  | .notStarted message => (.error, message)

/-- The lines that a build writes to the log: none if it could not be prepared; otherwise the
command line, the lines of the compiler if it ran, and how that ended. -/
inductive Logs (server : Server) (world : World) (target : Option Uri) :
    List String → Prop where
  | unprepared {reason : String}
      (failed : (server.prepare world target).1 = .error reason) :
      Logs server world target []
  | refused {prepared : Prepared} {cause : FileError}
      (ready : (server.prepare world target).1 = .ok prepared)
      (failed : start world prepared = .error cause) :
      Logs server world target
        ["Running: " ++ prepared.invocation.display, launchMessage cause]
  | succeeded {prepared : Prepared} {run : Run} {files : FileSystem}
      (ready : (server.prepare world target).1 = .ok prepared)
      (ended : start world prepared = .ok (run, files))
      (zero : run.code = 0) :
      Logs server world target
        (("Running: " ++ prepared.invocation.display) ::
          (run.lines ++ ["Process finished with exit code 0"]))
  | failed {prepared : Prepared} {run : Run} {files : FileSystem}
      (ready : (server.prepare world target).1 = .ok prepared)
      (ended : start world prepared = .ok (run, files))
      (nonzero : run.code ≠ 0) :
      Logs server world target
        (("Running: " ++ prepared.invocation.display) ::
          (run.lines ++ ["Process exited with code " ++ toString run.code]))

/-- Behind the lines for the log there is one message, which tells the outcome. -/
theorem build_messages
    (connected : server.connected = true) (world : World) (target : Option Uri) :
    ∃ logged,
      server.Logs world target logged ∧
        (server.build world target).messages =
          (server.prepare world target).2 ++ logged.map (.log .log) ++
            [.notice (shown (server.build world target).outcome).1
              (shown (server.build world target).outcome).2] := by
  cases preparation : (server.prepare world target).1 with
  | error reason =>
      refine ⟨[], .unprepared preparation, ?_⟩
      rw [build_of_unprepared preparation]
      simp [send, connected, shown]
  | ok prepared =>
      cases started : start world prepared with
      | error cause =>
          refine ⟨_, .refused preparation started, ?_⟩
          rw [build_of_refused preparation started]
          simp [send, connected, shown]
      | ok ending =>
          obtain ⟨run, files⟩ := ending
          rw [build_of_ran preparation started]
          by_cases zero : run.code = 0
          · refine ⟨_, .succeeded preparation started zero, ?_⟩
            simp [send, connected, shown, finished, zero]
          · refine ⟨_, .failed preparation started zero, ?_⟩
            simp [send, connected, shown, finished, zero]

/-- What a client is told about a build: a request for settings perhaps, then lines for the log, and
last one message for the user. The message goes with the outcome, and the outcome with what became
of the compiler. -/
structure Tells (server : Server) (world : World) (target : Option Uri)
    (asked : List Message) (logged : List String) (severity : Severity) (notice : String) :
    Prop where
  messages :
    (server.build world target).messages =
      asked ++ logged.map (.log .log) ++ [.notice severity notice]
  asks : asked = [] ∨ ∃ scope, asked = [.configuration scope]
  logs : server.Logs world target logged
  information : severity = .info ↔ (server.build world target).outcome = .succeeded
  complaint : severity = .error ↔ (server.build world target).outcome ≠ .succeeded
  succeeded :
    (server.build world target).outcome = .succeeded ↔
      ∃ run, server.Ran world target run ∧ run.code = 0
  failed :
    ∀ code, (server.build world target).outcome = .failed code →
      (∃ run, server.Ran world target run ∧ run.code = code) ∧
        notice = "Process exited with code " ++ toString code ∧
        logged.getLast? = some notice
  notStarted :
    ∀ message, (server.build world target).outcome = .notStarted message →
      notice = message ∧
        ∃ cause, server.Prevented world target cause ∧
          message = "Failed to run command: " ++ cause

theorem Logs.getLast?_of_failed
    {logged : List String} {code : Nat}
    (logs : server.Logs world target logged)
    (failed : (server.build world target).outcome = .failed code) :
    logged.getLast? = some ("Process exited with code " ++ toString code) := by
  cases logs with
  | unprepared unprepared =>
      rw [outcome_of_prevented (.unprepared unprepared)] at failed
      cases failed
  | refused ready refused =>
      rw [outcome_of_prevented (.refused ready refused)] at failed
      cases failed
  | succeeded ready ended zero =>
      rw [outcome_of_ran ⟨_, _, ready, ended⟩, if_pos zero] at failed
      cases failed
  | failed ready ended nonzero =>
      rw [outcome_of_ran ⟨_, _, ready, ended⟩, if_neg nonzero] at failed
      obtain rfl := BuildOutcome.failed.inj failed
      rw [← List.cons_append, List.getLast?_concat]

theorem shown_severity_eq_info_iff (outcome : BuildOutcome) :
    (shown outcome).1 = .info ↔ outcome = .succeeded := by
  cases outcome <;> simp [shown]

theorem shown_severity_eq_error_iff (outcome : BuildOutcome) :
    (shown outcome).1 = .error ↔ outcome ≠ .succeeded := by
  cases outcome <;> simp [shown]

/-- A build tells its client how it went, and it leaves the server as it was. -/
theorem builds_report_how_they_end (server : Server) (connected : server.connected = true) :
    (∀ world target, ∃ asked logged severity notice,
      server.Tells world target asked logged severity notice) ∧
    ∀ world name arguments,
      (server.handle world (.command name arguments)).server = server := by
  constructor
  · intro world target
    obtain ⟨logged, logs, messages⟩ := build_messages connected world target
    refine ⟨(server.prepare world target).2, logged, _, _,
      { messages := messages, asks := server.prepare_asks_once world target, logs := logs,
        information := shown_severity_eq_info_iff _, complaint := shown_severity_eq_error_iff _,
        succeeded := server.outcome_eq_succeeded_iff world target, failed := ?_,
        notStarted := ?_ }⟩
    · intro code failed
      obtain ⟨run, ran, same, _⟩ := (server.outcome_eq_failed_iff world target code).mp failed
      have closing := logs.getLast?_of_failed failed
      rw [failed]
      exact ⟨⟨run, ran, same⟩, rfl, closing⟩
    · intro message notStarted
      rw [notStarted]
      exact ⟨rfl, (server.outcome_eq_notStarted_iff world target message).mp notStarted⟩
  · intro world name arguments
    rw [server.server_handle ⟨world, .command name arguments⟩]
    exact ite_self server

/-- Beside the drawer, a compiler that writes one line and gives up. -/
def grumbling : World :=
  { besideDrawer with launch := fun files _ => .ok (⟨Text.encode "no entry\n", [], 2⟩, files) }

theorem grumbling_build_reports :
    (forClient .null).connected = true ∧
      (∃ asked logged severity notice,
        (forClient .null).Tells grumbling (some (Uri.ofText "/proj/sub/main.mpl")) asked logged
          severity notice) ∧
      ((forClient .null).build grumbling (some (Uri.ofText "/proj/sub/main.mpl"))).messages =
        [.log .log "Running: mplc -ndebug -o app main.mpl", .log .log "no entry",
          .log .log "Process exited with code 2", .notice .error "Process exited with code 2"] := by
  refine ⟨rfl, (builds_report_how_they_end (forClient .null) rfl).1 _ _, ?_⟩
  decide +kernel

end MplServer.Server
