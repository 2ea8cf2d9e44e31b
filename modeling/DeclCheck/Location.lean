/-!
# Source locations

A location is a range of lines and columns in one source file, both counted from one. Line zero does
not exist in any file, so a location on line zero stands for "written nowhere": the checker gives it
to everything that no source text spells.
-/

namespace DeclCheck

/-- **A range of source text.** Coordinates are 64-bit words: the unit format can spell no others. -/
structure Location where
  firstLine : UInt64
  firstColumn : UInt64
  lastLine : UInt64
  lastColumn : UInt64
  deriving DecidableEq, Repr, Inhabited

namespace Location

/-- The location of what no source text spells. -/
def nowhere : Location := ⟨0, 0, 0, 0⟩

/-- A range inside a single line. -/
def onLine (line firstColumn lastColumn : UInt64) : Location :=
  ⟨line, firstColumn, line, lastColumn⟩

/-- Whether the location points at no line. Only the first line decides: columns on line zero mean
nothing. -/
def isNowhere (location : Location) : Bool := location.firstLine == 0

/-- The location itself where it points somewhere, and the fallback otherwise. -/
def orElse (location fallback : Location) : Location :=
  if location.isNowhere then fallback else location

/-- The start of the range as readers see it: line, colon, column. -/
def shown (location : Location) : String :=
  toString location.firstLine.toNat ++ ":" ++ toString location.firstColumn.toNat

end Location

end DeclCheck
