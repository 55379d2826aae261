import MplServer.Project.Settings
import MplServer.Server.Session

/-!
# What a session leaves behind

Only some of the events in a session get through to the server. Each part of the state is changed by
some of these, and it is as the latest of them has left it, whatever else has happened.
-/

namespace MplServer

/-- One event of a session, and what surrounds the server when it comes. -/
structure Turn where
  world : World
  event : Event

/-- What the latest event to tell anything tells. -/
def latest? {α : Type} (tells : Event → Option α) (turns : List Turn) : Option α :=
  turns.reverse.findSome? fun turn => tells turn.event

theorem latest?_cons
    {α : Type} (tells : Event → Option α) (turn : Turn) (later : List Turn) :
    latest? tells (turn :: later) = (latest? tells later).or (tells turn.event) := by
  simp [latest?, List.findSome?_append]

theorem latest?_map
    {α β : Type} (change : α → β) (tells : Event → Option α) (turns : List Turn) :
    latest? (fun event => (tells event).map change) turns = (latest? tells turns).map change := by
  simp only [latest?, List.map_findSome?, Function.comp_def]

theorem latest?_eq_none_iff
    {α : Type} (tells : Event → Option α) (turns : List Turn) :
    latest? tells turns = none ↔ ∀ turn ∈ turns, tells turn.event = none := by
  simp [latest?, List.findSome?_eq_none_iff]

namespace Server

/-- A server as it is made: for a client, with the settings in the user's file at that time, or
without a client and with its folders open. -/
inductive IsNew (files : FileSystem) (user : Path) : Server → Prop where
  | forClient : IsNew files user (.forClient (Settings.loadUser files user))
  | detached (folders : List Path) : IsNew files user (.detached folders)

/-! ## Events that get through -/

/-- Only a fresh server hears a greeting, and only one that is ready hears anything else. -/
def hears (server : Server) : Event → Bool
  | .greeting _ => server.phase = .fresh
  | _ => server.phase = .ready

/-- The server after an event that it hears. A definition or a build makes nothing of it. -/
def receive (server : Server) (turn : Turn) : Server :=
  match turn.event with
  | .greeting greeting => server.greet greeting
  | .definition .. => server
  | .command .. => server
  | event => (server.handleReady turn.world event).server

/-- The server after events that all get through to it. -/
def receiveAll (server : Server) (turns : List Turn) : Server :=
  turns.foldl receive server

/-- The server after a session. -/
def afterAll (server : Server) (turns : List Turn) : Server :=
  turns.foldl (fun server turn => (server.handle turn.world turn.event).server) server

/-- The turns of a session whose events get through, in their order. -/
def heard (server : Server) : List Turn → List Turn
  | [] => []
  | turn :: later =>
      if server.hears turn.event then turn :: (server.receive turn).heard later
      else server.heard later

theorem server_handle (server : Server) (turn : Turn) :
    (server.handle turn.world turn.event).server =
      if server.hears turn.event then server.receive turn else server := by
  obtain ⟨world, event⟩ := turn
  unfold handle
  cases phase : server.phase with
  | fresh => cases event <;> simp [hears, receive, phase]
  | stopped => cases event <;> simp [hears, phase]
  | ready =>
      cases event with
      | definition uri line column =>
          simp only [hears, receive, phase, handleReady, if_true, decide_true]
          rcases server.definition world uri line column with ⟨none | locations, messages⟩ <;> rfl
      | command name arguments =>
          simp only [hears, receive, phase, handleReady, if_true, decide_true]
          by_cases build : name = buildCommand
          · rw [if_pos build]
          · rw [if_neg build]
      | _ => simp [hears, receive, phase, handleReady]

/-- A session leaves the server as the events that got through leave it. -/
theorem afterAll_eq_receiveAll_heard (server : Server) (turns : List Turn) :
    server.afterAll turns = server.receiveAll (server.heard turns) := by
  induction turns generalizing server with
  | nil => rfl
  | cons turn later inductionHypothesis =>
      have onward :
          server.afterAll (turn :: later) =
            (server.handle turn.world turn.event).server.afterAll later := rfl
      rw [onward, server_handle, heard]
      by_cases audible : server.hears turn.event = true
      · rw [if_pos audible, if_pos audible, inductionHypothesis]
        rfl
      · rw [if_neg audible, if_neg audible, inductionHypothesis]

/-- The phase after an event that gets through. -/
def phaseAfter (phase : Phase) : Event → Phase
  | .greeting _ => .ready
  | .shutdown => .stopped
  | _ => phase

theorem phase_receive (server : Server) (turn : Turn) :
    (server.receive turn).phase = phaseAfter server.phase turn.event := by
  obtain ⟨world, event⟩ := turn
  cases event <;> rfl

/-! ## Parts of the state -/

/-- A part of the state that each event sets to what it tells, or leaves alone when it tells
nothing, is what the latest event tells about it. -/
theorem part_receiveAll
    {α : Type} (part : Server → α) (tells : Event → Option α)
    (step : ∀ server turn, part (receive server turn) = (tells turn.event).getD (part server))
    (server : Server) (turns : List Turn) :
    part (server.receiveAll turns) = (latest? tells turns).getD (part server) := by
  induction turns generalizing server with
  | nil => rfl
  | cons turn later inductionHypothesis =>
      have onward :
          server.receiveAll (turn :: later) = (server.receive turn).receiveAll later := rfl
      rw [onward, inductionHypothesis, latest?_cons, step]
      cases latest? tells later <;> rfl

end Server

end MplServer
