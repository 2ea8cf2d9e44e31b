import DeclCheck.Check.Analysis
import DeclCheck.Diagnostic

/-!
# Sessions

A session checks one unit after another against tables that grow with each of them. Units have to come
in dependency order: imports are not followed.
-/

namespace DeclCheck

/-- **The tables of a run and the files checked without an error, in order.** -/
structure Session where
  symbols : Symbols
  checked : List String
  deriving Repr

namespace Session

/-- The session before any unit. -/
def initial : Session := ⟨.initial, []⟩

instance : Inhabited Session := ⟨initial⟩

/-- **Check one unit.** The answer is the unit with all its slots filled, or the first error. The tables
keep what was entered before an error; the file counts as checked only without one. -/
def addUnit (session : Session) (unit : SourceUnit) : Except Diagnostic SourceUnit × Session :=
  let unit := unit.withOrigins
  match Analysis.declarations unit.declarations (Analysis.start session.symbols) with
  | .ok declarations analysis =>
    (.ok { unit with declarations }, ⟨analysis.symbols, session.checked ++ [unit.filename]⟩)
  | .error error analysis =>
    (.error ⟨error, unit.sourceFile⟩, { session with symbols := analysis.symbols })

end Session

end DeclCheck
