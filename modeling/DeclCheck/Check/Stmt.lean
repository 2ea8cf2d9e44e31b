import DeclCheck.Check.Expr

/-!
# Checking statements

`Check.stmt` walks a statement with everything inside it. The blocks of branches and loops are nested
levels: what they declare is forgotten after them.
-/

namespace DeclCheck

namespace Check

/-- `nil` goes into nullable variables only; any other value must be a subtype. -/
def assignable (env : Env) (name : String) (expected actual : Ty) (location : Location) :
    Except Error Unit :=
  if actual.isNil && !expected.isNil then
    if expected.nullable then .ok () else refuse (.nilAssigned name expected) location
  else if env.types.lattice.isSubtype actual expected then .ok ()
  else refuse (.variableMismatch name expected actual) location

/-- The type that a declaration gives to its variable: the declared one, resolved, or else the type of
the value. -/
def declaredType (env : Env) (target : Variable) (value : Ty) (location : Location) :
    Except Error (Ty × Variable) :=
  match target.declaredType with
  | none => .ok (value, { target with resolvedType := some value })
  | some written => do
    let declared ← env.types.resolve env.generics written
    assignable env target.name.name declared value location
    return (declared,
      { target with declaredType := some declared, resolvedType := some declared })

/-- Introduce the variable of a declaration. -/
def declare (env : Env) (target : Variable) (value : Ty) (location : Location) : Check Variable := do
  if value.isVoid then Check.decide (refuse (.voidAssigned target.name.name) location)
  let (ty, target) ← Check.decide (declaredType env target value location)
  define ⟨target.name.name, ty, target.mutable, target.name.location⟩
  return target

/-- Whether a visible variable may be given a value. -/
def rebindable (env : Env) (target : Ident) (existing : Option LocalVariable) (value : Ty)
    (location : Location) : Except Error Ty :=
  match existing with
  | none => refuse (.undeclaredAssigned target.name) target.location
  | some existing =>
    if !existing.mutable then refuse (.immutableAssigned target.name) target.location
    else if value.isVoid then refuse (.voidAssigned target.name) location
    else do
      assignable env target.name existing.ty value location
      return existing.ty

/-- Give a new value to a variable. -/
def rebind (env : Env) (target : Variable) (value : Ty) (location : Location) : Check Variable := do
  let existing := (← get).scopes.lookup? target.name.name
  let ty ← Check.decide (rebindable env target.name existing value location)
  return { target with resolvedType := some ty }

/-- Walk an assignment: the value first, then the variable. -/
def assignment (env : Env) (assigned : Assignment) : Check Assignment := do
  let (ty, value) ← expr env assigned.value
  let target ←
    if assigned.isDeclaration then declare env assigned.target ty value.location
    else rebind env assigned.target ty value.location
  return { assigned with target, value }

/-- Walk the tests of a guard. -/
def guard (env : Env) : List GuardTerm → Check (List GuardTerm)
  | [] => return []
  | term :: rest => do
    let (_, test) ← expr env term.test
    let rest ← guard env rest
    return { term with test } :: rest

/-- The element type of what a loop runs over. -/
def elementType (iterable : Ty) (location : Location) : Except Error Ty :=
  match iterable with
  | .app (.builtin .list) args _ => .ok (args.headD Ty.any)
  | _ => refuse (.notIterable iterable) location

mutual

/-- **Walk a statement.** -/
def stmt (env : Env) : Stmt → Check Stmt
  | .assignment assigned => return .assignment (← assignment env assigned)
  | .returns none location => do
    noteReturn Ty.void location
    return .returns none location
  | .returns (some value) location => do
    let (ty, value) ← expr env value
    noteReturn ty location
    return .returns (some value) location
  | .call callee location => do
    let (ty, callee) ← call env location callee
    if !ty.isVoid then Check.decide (refuse (.valueDropped ty) location)
    return .call callee location
  | .branch choice => return .branch (← branch env choice)
  | .forEach iterator iterable body location => do
    let (ty, iterable) ← expr env iterable
    let element ← Check.decide (elementType ty iterable.location)
    enter
    define ⟨iterator.name.name, element, false, iterator.name.location⟩
    let body ← block env body
    exit
    return .forEach { iterator with resolvedType := some element } iterable body location
  | .whileTrue tests body location => do
    let tests ← guard env tests
    enter
    let body ← block env body
    exit
    return .whileTrue tests body location
  | .pass location => return .pass location
  | .hostCode code location => return .hostCode code location

/-- Walk the statements of a block. -/
def block (env : Env) : List Stmt → Check (List Stmt)
  | [] => return []
  | first :: rest => do
    let first ← stmt env first
    let rest ← block env rest
    return first :: rest

/-- Walk a branch: its guard, its block, and what is tried otherwise. -/
def branch (env : Env) : Branch → Check Branch
  | .mk tests body none location => do
    let tests ← guard env tests
    enter
    let body ← block env body
    exit
    return .mk tests body none location
  | .mk tests body (some otherwise) location => do
    let tests ← guard env tests
    enter
    let body ← block env body
    exit
    let otherwise ← branch env otherwise
    return .mk tests body (some otherwise) location

end

end Check

end DeclCheck
