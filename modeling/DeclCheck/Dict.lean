/-!
# Dictionaries listed by key

The tables of a check run are small finite maps whose listing order can be observed: overloads are
searched, enums are asked for their cases, and names are offered in ascending order of their keys. A
`Dict` is therefore the list itself, kept in ascending order with one entry for each key, so that two
dictionaries built by the same insertions are the same value.
-/

namespace DeclCheck

/-- **A finite map listed in ascending key order.** `Dict.empty` and `Dict.insert` are the only
constructors the library uses, and they keep the order. -/
structure Dict (κ : Type u) (α : Type v) where
  entries : List (κ × α)
  deriving Repr

namespace Dict

variable {κ : Type u} {α : Type v}

/-- The map without entries. -/
def empty : Dict κ α := ⟨[]⟩

instance : Inhabited (Dict κ α) := ⟨empty⟩

/-- The keys, ascending. -/
def keys (dict : Dict κ α) : List κ := dict.entries.map (·.1)

/-- The values, in the order of their keys. -/
def values (dict : Dict κ α) : List α := dict.entries.map (·.2)

/-- How many keys are mapped. -/
def size (dict : Dict κ α) : Nat := dict.entries.length

/-- Whether nothing is mapped. -/
def isEmpty (dict : Dict κ α) : Bool := dict.entries.isEmpty

variable [DecidableEq κ]

/-- The value of a key, if it is mapped. -/
def find? (dict : Dict κ α) (key : κ) : Option α := dict.entries.lookup key

/-- Whether a key is mapped. -/
def contains (dict : Dict κ α) (key : κ) : Bool := (dict.find? key).isSome

variable [Ord κ]

/-- The step of `insert`: replace the entry of the key where it stands, or put a new entry before the
first greater key. -/
def insertEntry (key : κ) (value : α) : List (κ × α) → List (κ × α)
  | [] => [(key, value)]
  | entry :: rest =>
    if entry.1 = key then (key, value) :: rest
    else if (compare key entry.1).isLT then (key, value) :: entry :: rest
    else entry :: insertEntry key value rest

/-- Map a key to a value. An earlier value of the key is forgotten. -/
def insert (dict : Dict κ α) (key : κ) (value : α) : Dict κ α :=
  ⟨insertEntry key value dict.entries⟩

/-- Map a key to a value unless the key is mapped already. -/
def insertNew (dict : Dict κ α) (key : κ) (value : α) : Dict κ α :=
  if dict.contains key then dict else dict.insert key value

end Dict

end DeclCheck
