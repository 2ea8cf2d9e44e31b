import DeclCheck.Dict
import DeclCheck.Scopes

/-!
# Scopes that are kept

Another table of the variables of one body. Here no scope is ever dropped: every scope that was entered
stays in the arena, each with a link to the scope around it, and leaving a scope only goes back along
that link. A name is searched from the current scope outward, and what was declared in a scope that has
been left is no longer on the way.

A scope is entered behind all others, so the one around it comes earlier. The arena carries this with it,
and the way outward therefore ends.
-/

namespace DeclCheck

/-- **A scope**: where in the arena the scope around it is, and its own variables by their names. -/
structure Scope where
  parent : Option Nat
  declared : Dict String LocalVariable
  deriving Repr, Inhabited

/-- **Every scope that was entered, in order, and which of them is the current one.** -/
structure ScopeArena where
  scopes : Array Scope
  current : Nat
  /-- A scope comes behind the one around it. -/
  earlier : ∀ {id : Nat} {scope : Scope} {parent : Nat},
    scopes[id]? = some scope → scope.parent = some parent → parent < id
  /-- The current scope is there. -/
  inside : current < scopes.size

namespace ScopeArena

/-- One scope without variables, and no scope around it. -/
def empty : ScopeArena where
  scopes := #[⟨none, .empty⟩]
  current := 0
  earlier := by
    intro id scope parent found nested
    cases id with
    | zero => cases found; cases nested
    | succ id => cases found
  inside := Nat.one_pos

/-- The current scope. -/
def scope (arena : ScopeArena) : Scope :=
  have := arena.inside
  arena.scopes[arena.current]

/-- The current scope is one of the arena's. -/
theorem getElem?_current (arena : ScopeArena) : arena.scopes[arena.current]? = some arena.scope :=
  Array.getElem?_eq_getElem arena.inside

/-- Enter a new scope inside the current one. -/
def enter (arena : ScopeArena) : ScopeArena where
  scopes := arena.scopes.push ⟨some arena.current, .empty⟩
  current := arena.scopes.size
  earlier := by
    intro id scope parent found nested
    rw [Array.getElem?_push] at found
    split at found
    next last =>
      cases found
      cases nested
      rw [last]
      exact arena.inside
    next => exact arena.earlier found nested
  inside := by
    rw [Array.size_push]
    exact Nat.lt_succ_self _

/-- Go back to the scope around the current one. The outermost scope is never left. -/
def exit (arena : ScopeArena) : ScopeArena :=
  match nested : arena.scope.parent with
  | none => arena
  | some parent =>
    { arena with
      current := parent
      inside := Nat.lt_trans (arena.earlier arena.getElem?_current nested) arena.inside }

/-- The scopes from one of them outward. -/
def outward (arena : ScopeArena) (id : Nat) : List Scope :=
  match _ : arena.scopes[id]? with
  | none => []
  | some scope =>
    match _ : scope.parent with
    | none => [scope]
    | some parent => scope :: arena.outward parent
termination_by id
decreasing_by exact arena.earlier (by assumption) (by assumption)

/-- The variable of a name, from the current scope outward. -/
def lookup? (arena : ScopeArena) (name : String) : Option LocalVariable :=
  (arena.outward arena.current).findSome? (·.declared.find? name)

/-- The names of all variables from the current scope outward. -/
def visibleNames (arena : ScopeArena) : List String :=
  (arena.outward arena.current).flatMap (·.declared.keys)

/-- The arena with a variable added to the current scope. -/
def add (arena : ScopeArena) (var : LocalVariable) : ScopeArena where
  scopes := arena.scopes.modify arena.current fun scope =>
    { scope with declared := scope.declared.insert var.name var }
  current := arena.current
  earlier := by
    intro id scope parent found nested
    rw [Array.getElem?_modify] at found
    split at found
    next =>
      obtain ⟨old, there, rfl⟩ := Option.map_eq_some_iff.mp found
      exact arena.earlier there nested
    next => exact arena.earlier found nested
  inside := by
    rw [Array.size_modify]
    exact arena.inside

/-- Declare a variable in the current scope, unless its name is visible. -/
def define (arena : ScopeArena) (var : LocalVariable) : Except Error ScopeArena :=
  match arena.lookup? var.name with
  | some _ => refuse (.variableRedeclared var.name) var.location
  | none => .ok (arena.add var)

end ScopeArena

end DeclCheck
