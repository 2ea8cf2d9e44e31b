import DeclCheck.Cli.Outcome

/-!
# The command line

Reads every file that a check may look at, performs the request on what was read, and prints the outcome.
-/

namespace DeclCheck.Cli

/-- The text of a file: nothing if there is no file, and no text if it holds none. -/
def readFile? (path : String) : IO (Option (Option String)) := do
  try
    return some (String.fromUTF8? (← IO.FS.readBinFile path))
  catch _ => return none

/-- The files under several paths. -/
def readDisk (paths : List String) : IO Disk := do
  let files ← paths.mapM fun path => return (path, ← readFile? path)
  let entry := fun path => (files.lookup path).join
  return ⟨fun path => (entry path).isSome, fun path => (entry path).join⟩

/-- The paths that a request may look at. -/
def Request.paths : Request → List String
  | .check units directories _ => units.flatMap (searchPath directories).candidates
  | _ => []

/-- What is said here about a text that is no unit. -/
def readerNotes : ReaderNotes := ⟨fun _ => "no unit of declarations", fun _ => 0⟩

/-- The exit code of a run without an outcome. -/
def abandoned : UInt32 := 101

/-- Print an outcome. The answer is its exit code. -/
def Outcome.print : Option Outcome → IO UInt32
  | some outcome => do
    (← IO.getStdout).putStr outcome.output
    (← IO.getStderr).putStr outcome.errors
    return outcome.exitCode
  | none => return abandoned

/-- Perform a request. -/
def Request.run (request : Request) : IO UInt32 := do
  let started ← IO.monoMsNow
  let disk ← readDisk request.paths
  match request with
  | .check units directories config =>
    let run ← IO.lazyPure fun _ => Run.ofNames (searchPath directories) readerNotes disk units
    let elapsed := (← IO.monoMsNow) - started
    Outcome.print (Outcome.ofRun config run elapsed)
  | _ => Outcome.print (request.perform readerNotes disk 0)

end DeclCheck.Cli

/-- The program. -/
def main (args : List String) : IO UInt32 :=
  match DeclCheck.Cli.Request.ofArguments? args with
  | some request => request.run
  | none => DeclCheck.Cli.Outcome.print (some .refused)
