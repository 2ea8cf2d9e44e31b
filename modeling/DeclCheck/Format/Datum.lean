/-!
# Data of the unit format

A datum is a document of the unit format once its names are settled: the fields of a record stand in
their declared order, all of them present, and a choice carries the name of its variant. Between a datum
and its JSON stands the grammar; between a datum and a value of the library stands a plain conversion.
-/

namespace DeclCheck.Format

/-- **A datum of the unit format.** -/
inductive Datum where
  /-- Nothing, where something is optional. -/
  | absent
  | flag (value : Bool)
  | count (value : UInt64)
  | text (value : String)
  | list (items : List Datum)
  /-- A record by its fields in their declared order. -/
  | record (fields : List Datum)
  /-- A variant without data. -/
  | tag (variant : String)
  /-- A variant with data. -/
  | tagged (variant : String) (payload : Datum)
  deriving Repr, Inhabited

end DeclCheck.Format
