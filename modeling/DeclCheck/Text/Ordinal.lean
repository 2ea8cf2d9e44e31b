/-!
# English ordinals

The first ten positions are words; the others are numerals with the ending that is spoken after them.
-/

namespace DeclCheck.Text

/-- The ordinals that are written as words, from one on. -/
def ordinalWords : List String :=
  ["first", "second", "third", "fourth", "fifth", "sixth", "seventh", "eighth", "ninth", "tenth"]

/-- The ending of a numeral. Eleven, twelve and thirteen are exceptions in every hundred. -/
def ordinalEnding (position : Nat) : String :=
  if 11 ≤ position % 100 ∧ position % 100 ≤ 13 then "th"
  else
    match position % 10 with
    | 1 => "st"
    | 2 => "nd"
    | 3 => "rd"
    | _ => "th"

/-- The ordinal of a position counted from one. -/
def ordinal (position : Nat) : String :=
  match position with
  | 0 => "0th"
  | index + 1 => (ordinalWords[index]?).getD (toString position ++ ordinalEnding position)

end DeclCheck.Text
