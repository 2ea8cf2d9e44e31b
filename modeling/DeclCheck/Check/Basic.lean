import DeclCheck.Overloading
import DeclCheck.Resolution
import DeclCheck.Scopes
import DeclCheck.Symbols.Basic

/-!
# Walking a body

What is fixed while a body is walked is its *environment*: the type tables and the generic names of the
declaration. What changes is the *body state*: the function table, which gains specialisations, the
visible variables, and the types returned so far. A walk that fails still yields a state, because the
specialisations made before the failure stay in the function table.
-/

namespace DeclCheck

/-- What is fixed while a body is walked. -/
structure Env where
  types : TypeTable
  generics : List String
  deriving Repr

/-- What changes while a body is walked. -/
structure BodyState where
  functions : FunctionTable
  scopes : Scopes
  /-- The types of the return statements met, in order, each with its place. -/
  returns : List (Ty × Location)
  deriving Repr

/-- **A step of a walk**: from a body state to a result or an error, and a body state either way. -/
abbrev Check := EStateM Error BodyState

namespace Check

/-- A decision that reads no state and changes none. -/
def decide {α : Type} (outcome : Except Error α) : Check α :=
  match outcome with
  | .ok value => pure value
  | .error error => throw error

/-- Declare a variable. -/
def define (var : LocalVariable) : Check Unit := do
  let scopes ← Check.decide ((← get).scopes.define var)
  modify fun state => { state with scopes }

/-- Begin a nested level of variables. -/
def enter : Check Unit := modify fun state => { state with scopes := state.scopes.enter }

/-- Leave a nested level of variables. -/
def exit : Check Unit := modify fun state => { state with scopes := state.scopes.exit }

/-- Note the type of a return statement. -/
def noteReturn (ty : Ty) (location : Location) : Check Unit :=
  modify fun state => { state with returns := state.returns ++ [(ty, location)] }

/-- The visible variable that an identifier names. -/
def variableType (ident : Ident) : Check Ty := do
  let scopes := (← get).scopes
  match scopes.lookup? ident.name with
  | some var => return var.ty
  | none =>
    Check.decide (refuse
      (.undefinedVariable ident.name (Text.similarNames ident.name scopes.visibleNames))
      ident.location)

/-- Bind a call to an overload and keep the specialisation made for it. -/
def bindCall (env : Env) (key : FunctionKey) (signature : String) (actuals : List Ty)
    (location : Location) : Check FunctionDecl := do
  let state ← get
  let (decl, functions) ← Check.decide
    (Overloading.resolve env.types.lattice state.functions key signature actuals location)
  set { state with functions }
  return decl

end Check

end DeclCheck
