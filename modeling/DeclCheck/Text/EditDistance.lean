/-!
# Edit distance

The least number of single-character insertions, deletions and replacements that turn one string into
another. It is computed row by row: the row of a text lists its distances to all suffixes of the other
text, the longest suffix first, so the head of the row is the distance itself.
-/

namespace DeclCheck.Text

/-- The price of leaving one character in the place of another. -/
def replacementCost (first second : Char) : Nat := if first = second then 0 else 1

/-- The row of the empty text: every suffix is as far away as it is long. -/
def emptyRow : List Char → List Nat
  | [] => [0]
  | _ :: rest => (rest.length + 1) :: emptyRow rest

/-- The row of a text with one more character in front, from the row of the text. Each entry is the
cheapest of deleting that character, inserting the suffix's first one, and replacing one by the
other. -/
def nextRow (char : Char) : List Char → List Nat → List Nat
  | other :: others, here :: diagonal :: beyond =>
    let rest := nextRow char others (diagonal :: beyond)
    min (min (here + 1) (rest.headD 0 + 1)) (diagonal + replacementCost char other) :: rest
  | _, row => [row.headD 0 + 1]

/-- The distances of a text to all suffixes of another, the longest first. -/
def distanceRow (second : List Char) : List Char → List Nat
  | [] => emptyRow second
  | char :: rest => nextRow char second (distanceRow second rest)

/-- **The edit distance of two strings**, counted in code points. -/
def editDistance (first second : String) : Nat :=
  (distanceRow second.toList first.toList).headD 0

end DeclCheck.Text
