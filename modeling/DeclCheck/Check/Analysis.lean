import DeclCheck.Check.Signature
import DeclCheck.Check.Stmt

/-!
# Checking the declarations of a unit

The declarations of a unit are checked in five passes, so that each may use names that a later one
declares: names are registered; types are bound into groups; struct members are resolved; signatures are
collected; and last the bodies are walked. The first error ends the check, and whatever the passes
entered into the tables before it stays there.
-/

namespace DeclCheck

/-- **What a check has reached**: the tables, and the generic names and variables of the last body
walked. -/
structure Analysis where
  symbols : Symbols
  generics : List String
  scopes : Scopes
  deriving Repr

namespace Analysis

/-- The start of a check with the given tables. -/
def start (symbols : Symbols) : Analysis := ⟨symbols, [], .empty⟩

/-- A step of the check of a unit: from what was reached to a result or an error, and what is reached
either way. -/
abbrev Pass := EStateM Error Analysis

/-- A step on the type tables that changes them as a whole or not at all. -/
def onTypes {α : Type} (step : TypeTable → Except Error (α × TypeTable)) : Pass α := do
  let analysis ← get
  match step analysis.symbols.types with
  | .ok (value, types) =>
    set { analysis with symbols := { analysis.symbols with types } }
    return value
  | .error error => throw error

/-- **Walk a body** from the given generic names and variables. The function table, the generic names
and the variables are those of the walk afterwards, also when it fails. -/
def walk {α : Type} (generics : List String) (scopes : Scopes) (body : Env → Check α) :
    Pass (α × List (Ty × Location)) := fun analysis =>
  let symbols := analysis.symbols
  match body ⟨symbols.types, generics⟩ ⟨symbols.functions, scopes, []⟩ with
  | .ok value state =>
    .ok (value, state.returns)
      ⟨{ symbols with functions := state.functions }, generics, state.scopes⟩
  | .error error state =>
    .error error ⟨{ symbols with functions := state.functions }, generics, state.scopes⟩

/-! ## The passes -/

/-- First pass: enter the name of a struct, enum or group. -/
def registerName (decl : Decl) : Pass Unit :=
  match decl with
  | .struct decl => onTypes fun types => (types.registerStruct decl).map (((), ·))
  | .enum decl => onTypes fun types => (types.registerEnum decl).map (((), ·))
  | .group decl => onTypes fun types => (types.registerGroup decl).map (((), ·))
  | _ => pure ()

/-- Bind a type into a group. Both are resolved first. -/
def bindTypes (binding : GroupBinding) (types : TypeTable) :
    Except Error (GroupBinding × TypeTable) := do
  let child ← types.resolve [] binding.child
  let parent ← types.resolve [] binding.parent
  match parent with
  | .atom (.group _) _ =>
    match types.bindGroup? child parent with
    | some types => return ({ binding with child, parent }, types)
    | none =>
      .error (.internal ("group " ++ parent.shown ++ " is resolved but missing from the lattice"))
  | _ => refuse (.boundToNonGroup child parent) binding.location

/-- Second pass: carry out a group binding. -/
def bindGroup (decl : Decl) : Pass Decl :=
  match decl with
  | .binding binding => return .binding (← onTypes (bindTypes binding))
  | _ => return decl

/-- Third pass: resolve the members of a struct. -/
def resolveMembers (decl : Decl) : Pass Decl :=
  match decl with
  | .struct decl =>
    onTypes fun types => do
      let decl ← types.resolveStruct decl
      return (.struct decl, types.updateStruct decl)
  | _ => return decl

/-- Fourth pass: close the signature of a function and enter it into the function table. A function
equal to an earlier one is not entered. -/
def collect (decl : Decl) : Pass Decl :=
  match decl with
  | .function decl => do
    let analysis ← get
    match decl.close analysis.symbols.types with
    | .error error => throw error
    | .ok decl =>
      let functions := analysis.symbols.functions.insert decl
      set { analysis with symbols := { analysis.symbols with functions } }
      return .function decl
  | _ => return decl

/-- The parameters of a function, declared as variables. -/
def defineParams : List Param → Check Unit
  | [] => return ()
  | param :: rest => do
    Check.define ⟨param.name.name, param.ty, param.mutable, param.name.location⟩
    defineParams rest

/-- Every returned type equals the declared one, or is that of `nil` where the declared type admits
it. -/
def checkReturns (expected : Ty) : List (Ty × Location) → Except Error Unit
  | [] => .ok ()
  | (actual, location) :: rest =>
    if actual.equals expected || (actual.isNil && expected.nullable) then checkReturns expected rest
    else refuse (.returnMismatch expected actual) location

/-- Fifth pass: walk the body of a function or an example. -/
def checkBody (decl : Decl) : Pass Decl :=
  match decl with
  | .function decl => do
    let (body, returns) ← walk decl.genericNames .empty fun env => do
      defineParams decl.params
      Check.block env decl.body
    match checkReturns decl.returnType returns with
    | .ok () => return .function { decl with body }
    | .error error => throw error
  | .exampleBlock decl => do
    let (body, _) ← walk [] .empty fun env => Check.block env decl.body
    return .exampleBlock { decl with body }
  | _ => return decl

/-- **Check the declarations of a unit.** The result is the declarations with all their slots filled. -/
def declarations (decls : List Decl) : Pass (List Decl) := do
  decls.forM registerName
  let decls ← decls.mapM bindGroup
  let decls ← decls.mapM resolveMembers
  let decls ← decls.mapM collect
  decls.mapM checkBody

/-- Check one more expression as if it stood at the end of the last body walked. -/
def expression (expr : Expr) : Pass (Ty × Expr) := do
  let analysis ← get
  let (typed, _) ← walk analysis.generics analysis.scopes fun env => Check.expr env expr
  return typed

end Analysis

end DeclCheck
