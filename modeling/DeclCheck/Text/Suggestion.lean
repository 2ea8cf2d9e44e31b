import DeclCheck.Ascending
import DeclCheck.Text.EditDistance

/-!
# Suggestions for a misspelt name

Names that are close to an unknown one, the closest first. Names at the same distance come in the
order of names, so the suggestions depend on the set of candidates alone.
-/

namespace DeclCheck.Text

/-- How far a suggestion may be from the name: a third of its length, and never less than two. -/
def suggestionReach (name : String) : Nat := max (name.length / 3) 2

/-- At most this many names are suggested. -/
def suggestionLimit : Nat := 3

/-- A candidate with its distance to the name. -/
structure RankedName where
  distance : Nat
  name : String
  deriving DecidableEq, Repr

/-- The order of suggestions: by distance, then by name. -/
def RankedName.before (first second : RankedName) : Bool :=
  first.distance < second.distance ||
    (first.distance == second.distance && Ascending.nameBefore first.name second.name)

/-- The candidates within reach of a name, best first, without the name itself. -/
def rankedNames (name : String) (candidates : List String) : List RankedName :=
  Ascending.ofList RankedName.before
    (((candidates.filter (· != name)).map fun candidate =>
        ⟨editDistance name candidate, candidate⟩).filter
      fun ranked => ranked.distance ≤ suggestionReach name)

/-- **The names suggested in place of an unknown one.** -/
def similarNames (name : String) (candidates : List String) : List String :=
  ((rankedNames name candidates).take suggestionLimit).map (·.name)

end DeclCheck.Text
