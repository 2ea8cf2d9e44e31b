/-!
# Lines of a text

A line ends at a line feed, and a carriage return directly before that line feed belongs to the ending.
A text that ends with a line ending has no empty last line; the empty text has no line at all.
-/

namespace DeclCheck.Text

/-- The lines of a text given by its characters. -/
def linesOfChars : List Char → List (List Char)
  | [] => []
  | '\n' :: rest => [] :: linesOfChars rest
  | '\r' :: '\n' :: rest => [] :: linesOfChars rest
  | char :: rest =>
    match linesOfChars rest with
    | [] => [[char]]
    | line :: lines => (char :: line) :: lines

/-- The lines of a text, without their endings. -/
def lines (text : String) : List String := (linesOfChars text.toList).map String.ofList

/-- The lines of a text with their numbers, counted from one. -/
def numberedLines (text : String) : List (String × Nat) := (lines text).zipIdx 1

/-- The line of a number, counted from one. -/
def line? (text : String) (number : Nat) : Option String :=
  if number = 0 then none else (lines text)[number - 1]?

/-- How many lines a text has. -/
def lineCount (text : String) : Nat := (lines text).length

end DeclCheck.Text
