import DeclCheck.Report
import DeclCheck.SearchPath
import DeclCheck.Session

/-!
# Runs

A run checks named units one after another in one session. It stops at the first unit that cannot be
loaded or has an error: what is named behind it has no influence.
-/

namespace DeclCheck

/-- **What a run has done so far.** -/
structure Run where
  session : Session
  /-- The annotated units, in order. -/
  units : List SourceUnit
  /-- What stopped the run. -/
  failure : Option Diagnostic

namespace Run

/-- The run before any unit. -/
def initial : Run := ⟨.initial, [], none⟩

/-- Whether nothing has stopped the run. -/
def succeeded (run : Run) : Bool := run.failure.isNone

/-- The run after the outcome of the check of a unit. -/
def record (run : Run) : Except Diagnostic SourceUnit × Session → Run
  | (.ok unit, session) => { run with session, units := run.units ++ [unit] }
  | (.error diagnostic, session) => { run with session, failure := some diagnostic }

/-- The run after a unit that was loaded. -/
def check (run : Run) (unit : SourceUnit) : Run := run.record (run.session.addUnit unit)

/-- The run after the unit of a name. A unit that cannot be loaded is reported under that name. -/
def next (search : SearchPath) (notes : ReaderNotes) (disk : Disk) (run : Run) (name : String) : Run :=
  if run.succeeded then
    match search.load notes disk name with
    | .ok unit => run.check unit
    | .error error => { run with failure := some ⟨error, ⟨name, ""⟩⟩ }
  else run

/-- **Check the units of several names, in order.** -/
def ofNames (search : SearchPath) (notes : ReaderNotes) (disk : Disk) (names : List String) : Run :=
  names.foldl (next search notes disk) initial

/-- The outcome of a run that took some time. -/
def feedback (run : Run) (milliseconds : Nat) : Feedback where
  files := run.session.checked
  reports := run.failure.toList.map .ofDiagnostic
  stats := .ofSymbols run.session.symbols run.session.checked.length milliseconds

/-- The annotated units as a JSON document. -/
def typedJson (run : Run) : Json := .array (run.units.map SourceUnit.toJson)

end Run

end DeclCheck
