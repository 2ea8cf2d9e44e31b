import DeclCheck.Cli.Arguments
import DeclCheck.Run

/-!
# What the command line prints

The texts on both output channels and the exit code, as functions of the request and the files. A refused
command line ends with code two, a check with an error with code one. An error that cannot be rendered
leaves no outcome.
-/

namespace DeclCheck.Cli

/-- **The outcome of a command.** -/
structure Outcome where
  output : String := ""
  errors : String := ""
  exitCode : UInt32 := 0
  deriving DecidableEq, Repr

/-- The name of the program and its version. -/
def versionText : String := "pinec 0.1.0\n"

/-- What the program says about itself. -/
def aboutText : String := versionText ++ "Pineapple Checker\nLicense: Apache-2.0\n"

/-- How the program is used. -/
def usageText : String :=
  "Usage: pinec check [-I DIR]... [--format human|json] [--context N] [--emit-typed] UNIT...\n" ++
    "       pinec version\n"

/-- What is said about a run without an error, for readers. -/
def successText (run : Run) : String :=
  s!"✅ No errors found in {run.session.checked.length} file(s)\n"

/-- What a run writes for readers, if it can be rendered. -/
def readerText (run : Run) (context : UInt64) : Option String :=
  match run.failure with
  | some diagnostic => diagnostic.render context
  | none => some (successText run)

/-- **The outcome of a run.** There is none if what it has to show to readers cannot be rendered. -/
def Outcome.ofRun (config : Config) (run : Run) (milliseconds : Nat) : Option Outcome :=
  let typed := if config.emitTyped && run.succeeded then run.typedJson.pretty ++ "\n" else ""
  let exitCode := if run.succeeded then 0 else 1
  match config.format with
  | .json => some { output := (run.feedback milliseconds).toJson.pretty ++ "\n" ++ typed, exitCode }
  | .human =>
    (readerText run config.contextLines).map fun errors => { output := typed, errors, exitCode }

/-- The directories that are searched when some are given. -/
def searchPath (directories : List String) : SearchPath := directories.foldl .add .initial

/-- The outcome of refused arguments. -/
def Outcome.refused : Outcome := { errors := usageText, exitCode := 2 }

/-- The outcome of a request on stored files. -/
def Request.perform (notes : ReaderNotes) (disk : Disk) (milliseconds : Nat) :
    Request → Option Outcome
  | .check units directories config =>
    Outcome.ofRun config (.ofNames (searchPath directories) notes disk units) milliseconds
  | .about => some { output := aboutText }
  | .version => some { output := versionText }
  | .help => some { output := usageText }

/-- **The outcome of a command line on stored files.** -/
def Outcome.ofArguments (notes : ReaderNotes) (disk : Disk) (milliseconds : Nat) (args : List String) :
    Option Outcome :=
  match Request.ofArguments? args with
  | some request => request.perform notes disk milliseconds
  | none => some .refused

end DeclCheck.Cli
