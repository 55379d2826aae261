import MplServer.FileSystem.Basic
import MplServer.Project.Invocation

/-!
Compiler runs: what a process leaves behind, and the lines of its output that are passed on.
-/

namespace MplServer

/-- A process that has ended by itself: what it wrote and its exit code. One that a signal ends has
no exit code and is no run, and neither is one that cannot be waited for. -/
structure Run where
  standardOutput : Bytes
  standardError : Bytes
  code : Nat
deriving DecidableEq, Repr

/-- What starting a command line in the working directory does: it is refused, or it runs and
leaves the file system changed. -/
abbrev Launcher := FileSystem → Invocation → Except FileError (Run × FileSystem)

namespace Run

/-- The lines of a stream that are passed on: those before the first that is no text. -/
def deliveredLines (stream : Bytes) : List String :=
  ((Text.lines 10 13 stream).map FileSystem.textOf?).takeWhile Option.isSome |>.filterMap id

/-- The lines that are passed on of a run that writes to one stream only. -/
def lines (run : Run) : List String :=
  deliveredLines run.standardOutput ++ deliveredLines run.standardError

end Run

/-- How a command to build ended, the compiler having ended by itself if it was started. -/
inductive BuildOutcome where
  | succeeded
  /-- The compiler ran and ended with another exit code than zero. -/
  | failed (code : Nat)
  /-- The compiler was not started, for the reason in the message. -/
  | notStarted (message : String)
deriving DecidableEq, Repr

def launchMessage (cause : FileError) : String :=
  "Failed to start process: " ++ cause.message

end MplServer
