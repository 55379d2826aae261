import MplServer.CommandLine
import MplServer.FileSystem.Entry
import MplServer.Json.Reader

/-!
The program. The tree of files it works on is read from standard input, one entry on a line, written
as a JSON object; paths are taken from the directory the program is started in.
-/

namespace MplServer

/-- The lines of a stream up to its end. -/
partial def readLines (stream : IO.FS.Stream) (done : List String) : IO (List String) := do
  let line ← stream.getLine
  if line.isEmpty then return done.reverse else readLines stream (line :: done)

/-- The tree that lines describe, entered at a directory. Lines that are not JSON say nothing. -/
def treeOf (directory : Path) (lines : List String) : Except FileError FileSystem := do
  let entries := lines.filterMap fun line => (Json.read line.toList).toOption.map Entry.ofJson
  let files ← FileSystem.makeDirectories ⟨.directory [], []⟩ directory
  (files.placeAll entries).enter directory

/-- What is printed when the words on the command line ask for nothing. -/
def usage : String := "usage: args FILE | definition FILE SYMBOL"

end MplServer

open MplServer in
def main (words : List String) : IO UInt32 := do
  let output ← IO.getStdout
  let complaints ← IO.getStderr
  match Command.parse? words with
  | none =>
      complaints.putStrLn usage
      return 2
  | some command =>
      let directory : Path := ⟨(← IO.currentDir).toString⟩
      match treeOf directory (← readLines (← IO.getStdin) []) with
      | .error cause =>
          complaints.putStrLn cause.message
          return 1
      | .ok files =>
          let home ← IO.getEnv "HOME"
          let configurations ← IO.getEnv "XDG_CONFIG_HOME"
          let user := Settings.userFile (home.getD "") configurations
          let report := command.run files (.ofLayers [Settings.loadUser files user])
          report.output.forM output.putStrLn
          report.complaints.forM complaints.putStrLn
          return report.code.toUInt32
