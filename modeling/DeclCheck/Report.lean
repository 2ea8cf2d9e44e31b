import DeclCheck.Diagnostic
import DeclCheck.Json.Basic
import DeclCheck.Symbols.Basic

/-!
# Reports for programs

The outcome of a check as one JSON document: whether it succeeded, the files that were checked, a report
of each error, and the sizes of the tables at the end.
-/

namespace DeclCheck

/-- Whether the unit or the checker is at fault. -/
inductive Severity where
  | error
  | internalError
  deriving DecidableEq, Repr, Inhabited

namespace Severity

/-- The severity as reports spell it. -/
def word : Severity → String
  | error => "Error"
  | internalError => "InternalError"

end Severity

/-- A range in a named file. -/
structure Place where
  file : String
  location : Location
  deriving DecidableEq, Repr, Inhabited

/-- A proposed correction. -/
structure Suggestion where
  message : String
  replacement : String
  deriving DecidableEq, Repr, Inhabited

/-- **The report of one error.** -/
structure Report where
  code : String
  name : String
  severity : Severity
  message : String
  place : Option Place
  suggestions : List Suggestion
  hint : Option String
  deriving Repr, Inhabited

namespace Place

/-- The JSON of a place. -/
def toJson (place : Place) : Json :=
  .object [("file", .string place.file), ("line", .number place.location.firstLine.toNat),
    ("column", .number place.location.firstColumn.toNat),
    ("end_line", .number place.location.lastLine.toNat),
    ("end_column", .number place.location.lastColumn.toNat)]

end Place

namespace Suggestion

/-- The proposal to write a name instead. -/
def ofName (name : String) : Suggestion := ⟨s!"Did you mean {quoted name}?", name⟩

/-- The JSON of a suggestion. -/
def toJson (suggestion : Suggestion) : Json :=
  .object [("message", .string suggestion.message),
    ("replacement", .string suggestion.replacement)]

end Suggestion

namespace Report

/-- **The report of a diagnostic.** -/
def ofDiagnostic (diagnostic : Diagnostic) : Report where
  code := diagnostic.error.code
  name := diagnostic.error.name
  severity := if diagnostic.error.isInternal then .internalError else .error
  message := diagnostic.error.message
  place := diagnostic.error.place?.map (⟨diagnostic.file.filename, ·⟩)
  suggestions := diagnostic.error.suggestions.map .ofName
  hint := diagnostic.error.hint

/-- The JSON of a report. -/
def toJson (report : Report) : Json :=
  .object [("code", .string report.code), ("name", .string report.name),
    ("severity", .string report.severity.word), ("message", .string report.message),
    ("location", (report.place.map Place.toJson).getD .null),
    ("suggestions", .array (report.suggestions.map Suggestion.toJson)),
    ("hint", .ofText? report.hint)]

end Report

/-- **How much was checked**, and how long it took. -/
structure Stats where
  /-- The time of the check in milliseconds. -/
  milliseconds : Nat
  /-- The units checked without an error. -/
  unitCount : Nat
  /-- The overloads in the function table, specialisations included. -/
  functionCount : Nat
  structCount : Nat
  enumCount : Nat
  /-- The nodes of the subtype lattice. -/
  typeCount : Nat
  deriving DecidableEq, Repr, Inhabited

namespace Stats

/-- The sizes of the tables. -/
def ofSymbols (symbols : Symbols) (unitCount milliseconds : Nat) : Stats where
  milliseconds
  unitCount
  functionCount := symbols.functions.size
  structCount := symbols.types.structs.size
  enumCount := symbols.types.enums.size
  typeCount := symbols.types.lattice.size

/-- The JSON of the sizes. -/
def toJson (stats : Stats) : Json :=
  .object [("check_time_ms", .number stats.milliseconds), ("unit_count", .number stats.unitCount),
    ("function_count", .number stats.functionCount), ("struct_count", .number stats.structCount),
    ("enum_count", .number stats.enumCount), ("type_count", .number stats.typeCount)]

end Stats

/-- **The outcome of a check.** It succeeded if there is nothing to report. -/
structure Feedback where
  /-- The files checked without an error, in order. -/
  files : List String
  reports : List Report
  stats : Stats
  deriving Repr, Inhabited

namespace Feedback

/-- Whether the check succeeded. -/
def success (feedback : Feedback) : Bool := feedback.reports.isEmpty

/-- The JSON of an outcome. -/
def toJson (feedback : Feedback) : Json :=
  .object [("success", .bool feedback.success), ("files", .ofTexts feedback.files),
    ("diagnostics", .array (feedback.reports.map Report.toJson)),
    ("stats", feedback.stats.toJson)]

end Feedback

end DeclCheck
