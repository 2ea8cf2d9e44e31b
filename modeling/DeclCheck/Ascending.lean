/-!
# Strictly ascending lists

A set shown in order is a list without repetitions that ascends. Such a list is built by inserting
elements one at a time, so its value depends on the set alone and not on the order of arrival.
-/

namespace DeclCheck.Ascending

variable {α : Type u} [DecidableEq α]

/-- An ascending list with one more element. An element that is there already is not repeated. -/
def insert (before : α → α → Bool) (element : α) : List α → List α
  | [] => [element]
  | first :: rest =>
    if element = first then first :: rest
    else if before element first then element :: first :: rest
    else first :: insert before element rest

/-- The elements of a list, each once and in ascending order. -/
def ofList (before : α → α → Bool) : List α → List α
  | [] => []
  | element :: rest => insert before element (ofList before rest)

/-- The strict order of names: by code point, the first difference deciding. -/
def nameBefore (first second : String) : Bool := decide (first < second)

end DeclCheck.Ascending
