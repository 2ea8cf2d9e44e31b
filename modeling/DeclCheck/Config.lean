/-!
# Options of a check

How diagnostics are shown and what is printed besides them.
-/

namespace DeclCheck

/-- How the outcome of a check is printed. -/
inductive OutputFormat where
  /-- For readers: the source around the error, marked. -/
  | human
  /-- For programs: one JSON document. -/
  | json
  deriving DecidableEq, Repr, Inhabited

namespace OutputFormat

/-- The word that chooses a format. -/
def word : OutputFormat → String
  | human => "human"
  | json => "json"

/-- All formats. -/
def all : List OutputFormat := [human, json]

/-- The format that a word chooses. Words are case-sensitive. -/
def ofWord? (word : String) : Option OutputFormat := all.find? (·.word == word)

end OutputFormat

/-- **The options of one check.** -/
structure Config where
  format : OutputFormat := .human
  /-- How many source lines are shown on each side of an error. -/
  contextLines : UInt64 := 5
  /-- Whether the annotated units are printed after a check without an error. -/
  emitTyped : Bool := false
  deriving DecidableEq, Repr, Inhabited

namespace Config

/-- The options where nothing is chosen. -/
def initial : Config := {}

/-- The options with another format. -/
def withFormat (config : Config) (format : OutputFormat) : Config := { config with format }

/-- The options with another number of source lines around an error. -/
def withContextLines (config : Config) (contextLines : UInt64) : Config :=
  { config with contextLines }

/-- The options with the annotated units printed, or not. -/
def withEmitTyped (config : Config) (emitTyped : Bool) : Config := { config with emitTyped }

end Config

end DeclCheck
