import DeclCheck.Problem

/-!
# Visible variables

The variables of one body. Every variable remembers the nesting level it was declared at, and leaving a
level forgets the variables of that level. A name that is visible cannot be declared again, at no level,
so nothing ever hides anything.
-/

namespace DeclCheck

/-- A variable of a body. -/
structure LocalVariable where
  name : String
  ty : Ty
  mutable : Bool
  location : Location
  deriving Repr, Inhabited

/-- **The visible variables and the current nesting level.** Variables are listed with their levels,
the latest first. -/
structure Scopes where
  level : Nat
  declared : List (Nat × LocalVariable)
  deriving Repr

namespace Scopes

/-- No variables, at the outermost level. -/
def empty : Scopes := ⟨0, []⟩

instance : Inhabited Scopes := ⟨empty⟩

/-- The visible variable of a name. -/
def lookup? (scopes : Scopes) (name : String) : Option LocalVariable :=
  (scopes.declared.find? (·.2.name == name)).map (·.2)

/-- The names of all visible variables. -/
def visibleNames (scopes : Scopes) : List String := scopes.declared.map (·.2.name)

/-- Declare a variable at the current level. -/
def define (scopes : Scopes) (var : LocalVariable) : Except Error Scopes :=
  match scopes.lookup? var.name with
  | some _ => refuse (.variableRedeclared var.name) var.location
  | none => .ok { scopes with declared := (scopes.level, var) :: scopes.declared }

/-- Begin a nested level. -/
def enter (scopes : Scopes) : Scopes := { scopes with level := scopes.level + 1 }

/-- Leave the current level with everything declared at it. The outermost level is never left. -/
def exit (scopes : Scopes) : Scopes :=
  match scopes.level with
  | 0 => scopes
  | outer + 1 => ⟨outer, scopes.declared.filter (·.1 ≤ outer)⟩

end Scopes

end DeclCheck
