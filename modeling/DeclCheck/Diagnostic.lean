import DeclCheck.Problem
import DeclCheck.Text.Lines
import DeclCheck.Tree.Decl

/-!
# Diagnostics for readers

A diagnostic is an error together with the file it was found in. Its rendering shows the message, the
place, a window of numbered source lines around the place with the offending line marked and underlined,
and the advice that goes with the error.

Columns come with the unit and may be as wide as a machine word holds. A window that would take more bytes
than a text can have is not printed, and neither is the rendering.
-/

namespace DeclCheck

/-- **An error and the file it was found in.** -/
structure Diagnostic where
  error : Error
  file : SourceFile
  deriving Repr, Inhabited

namespace Diagnostic

/-- What stands before the number of the offending line. -/
def marker : String := "    ERROR >> "

/-- A text of blanks. -/
def blanks (width : Nat) : String := String.ofList (List.replicate width ' ')

/-- A text in a column of the given width, at its right end. -/
def alignRight (width : Nat) (text : String) : String := blanks (width - text.length) ++ text

/-- The row of a source line: the marker or blanks, the number, and the text. -/
def sourceRow (width : Nat) (isError : Bool) (number : Nat) (text : String) : String :=
  (if isError then marker else blanks marker.length) ++
    alignRight width (toString number) ++ " | " ++ text ++ "\n"

/-- The row of carets under the columns from the first to the last. -/
def caretRow (width first last : Nat) : String :=
  blanks marker.length ++ blanks width ++ " | " ++ blanks (first - 1) ++
    String.ofList (List.replicate (last - first + 1) '^') ++ "\n"

/-- **A row of a window**: a numbered line of the source, or carets under columns of it. -/
inductive Row where
  | line (isError : Bool) (number : Nat) (text : String)
  | carets (first last : Nat)

namespace Row

/-- The row as it is printed, with numbers of the given width. -/
def text (width : Nat) : Row → String
  | line isError number text => sourceRow width isError number text
  | carets first last => caretRow width first last

/-- The bytes of a row. Those of carets are counted and not printed, for columns may be wide. -/
def size (width : Nat) : Row → Nat
  | line isError number text => (sourceRow width isError number text).utf8ByteSize
  | carets first last => marker.length + width + 3 + (first - 1) + (last - first + 1) + 1

end Row

/-- The carets of a location, where it lies in one line and has columns. -/
def caretRows (location : Location) : List Row :=
  if location.lastLine == location.firstLine && location.firstColumn != 0 then
    let first := location.firstColumn.toNat
    [.carets first (max location.lastColumn.toNat first)]
  else []

/-- The rows of one numbered line of the window. -/
def lineRows (location : Location) (number : Nat) (text : String) : List Row :=
  let isError := number == location.firstLine.toNat
  .line isError number text :: if isError then caretRows location else []

/-- The first line number of the window around a line. -/
def windowStart (line context : UInt64) : Nat := max (line.toNat - context.toNat) 1

/-- The last line number of the window around a line of a text. Line numbers are machine words, and their
sum wraps around. -/
def windowEnd (content : String) (line context : UInt64) : Nat :=
  min (line + context).toNat (Text.lineCount content)

/-- The rows of the window around a location, with at most the given number of lines on each side. -/
def windowRows (content : String) (location : Location) (context : UInt64) : List Row :=
  let first := windowStart location.firstLine context
  let last := windowEnd content location.firstLine context
  let shown := ((Text.numberedLines content).drop (first - 1)).take (last + 1 - first)
  shown.flatMap fun (text, number) => lineRows location number text

/-- The width of the numbers of a window. -/
def windowWidth (content : String) (location : Location) (context : UInt64) : Nat :=
  (toString (windowEnd content location.firstLine context)).length

/-- No text has more bytes than this. -/
def textLimit : Nat := 9223372036854775807

/-- **The numbered lines around a location**, with at most the given number of lines on each side. There is
no such text if it would have too many bytes. -/
def sourceWindow (content : String) (location : Location) (context : UInt64) : Option String :=
  let width := windowWidth content location context
  let rows := windowRows content location context
  if rows.foldr (fun row total => row.size width + total) 0 ≤ textLimit then
    some (String.join (rows.map (Row.text width)))
  else none

/-- The first line of a rendering. -/
def headline (error : Error) : String :=
  if error.isInternal then s!"internal compiler error[{error.code}]: {error.message}\n"
  else s!"error[{error.code}] {error.name}: {error.message}\n"

/-- The place of an error and, if the file has that line, the window around it. -/
def placeText (file : SourceFile) (context : UInt64) (location : Location) : Option String :=
  let place := s!"  --> {file.filename}:{location.shown}\n"
  if (Text.line? file.content location.firstLine.toNat).isSome then
    (sourceWindow file.content location context).map fun window => place ++ "\n" ++ window
  else some place

/-- **The rendering of a diagnostic**, with the given number of source lines on each side. There is none if
the window around the place has none. -/
def render (diagnostic : Diagnostic) (context : UInt64) : Option String := do
  let place ←
    match diagnostic.error.place? with
    | some location => placeText diagnostic.file context location
    | none => some ""
  return headline diagnostic.error ++ place ++
    (diagnostic.error.hint.map (fun hint => "\nhint: " ++ hint ++ "\n")).getD ""

end Diagnostic

end DeclCheck
