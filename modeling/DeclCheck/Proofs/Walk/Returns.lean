import DeclCheck.Proofs.Overloading.Searches
import DeclCheck.Proofs.Session

/-!
# Checks that return

A check searches the lattice wherever a value meets an expected type and wherever a call is bound, and a search may
never end. Here the walk of a body and the check of a unit are taken once more as *attempts*: the same steps in the same
order, with an outcome only as far as the searches end. All else is decided by the same definitions as in the check
itself.

The main result is that an attempt has the outcome of the check, unless the lattice has a way up on which a search never
ends. So what has an outcome here returns, and with the outcome that the check is said to have.

Not established is the converse for units: that a lattice has an endless way up does not mean that a unit searches it.
For single calls `Proofs.Overloading.Searches` names the searches that are made.
-/

namespace DeclCheck

/-! ## Attempts -/

namespace Lattice

/-- **Whether a computation gives a value unless one of its searches never ends.** -/
def Yields {α : Type} (lattice : Lattice) (result : Option α) (value : α) : Prop :=
  result = some value ∨ result = none ∧ ∃ ascent : Ascent, ¬ ascent.Ends lattice

namespace Yields

variable {α β : Type} {lattice : Lattice} {result : Option α} {value : α}

/-- What needs no search is had. -/
theorem pure (lattice : Lattice) (value : α) : lattice.Yields (some value) value := Or.inl rfl

/-- What is had may be changed. -/
theorem map (yields : lattice.Yields result value) (change : α → β) :
    lattice.Yields (result.map change) (change value) := by
  rcases yields with found | ⟨missing, endless⟩
  · exact Or.inl (by rw [found, Option.map_some])
  · exact Or.inr ⟨by rw [missing, Option.map_none], endless⟩

/-- What has a result has the value. -/
theorem eq_of_some (yields : lattice.Yields result value) {outcome : α} (found : result = some outcome) :
    value = outcome := by
  rcases yields with reached | ⟨missing, -⟩
  · exact Option.some.inj (reached.symm.trans found)
  · rw [missing] at found
    cases found

end Yields

/-- What waits for ascents gives its value unless one of them never ends. -/
theorem Awaits.yields {α : Type} {lattice : Lattice} {ascents : List Ascent} {result : Option α} {value : α}
    (waits : lattice.Awaits ascents result value) : lattice.Yields result value := by
  by_cases ends : ∀ ascent ∈ ascents, ascent.Ends lattice
  · exact Or.inl (waits.returns ends)
  · obtain ⟨ascent, bad⟩ := not_forall.mp ends
    obtain ⟨mem, endless⟩ := Classical.not_imp.mp bad
    exact Or.inr ⟨waits.hangs ⟨ascent, mem, endless⟩, ascent, endless⟩

end Lattice

/-- **A step on a state as far as its searches end**: there is no outcome if one of them never does. -/
def Attempt (σ α : Type) : Type := σ → Option (EStateM.Result Error σ α)

namespace Attempt

variable {σ α β : Type}

/-- A step that searches nothing. -/
def of (step : EStateM Error σ α) : Attempt σ α := fun state => some (step state)

/-- One attempt after another. The second is made only if the first one has a value. -/
def bind (first : Attempt σ α) (second : α → Attempt σ β) : Attempt σ β := fun state =>
  (first state).bind fun
    | .ok value after => second value after
    | .error error after => some (.error error after)

instance : Monad (Attempt σ) where
  pure value := of (pure value)
  bind := bind

/-- A decision that waits for searches. -/
def await (outcome : Option (Except Error α)) : Attempt BodyState α := fun state =>
  outcome.map fun outcome => Check.decide outcome state

/-- **Whether an attempt follows a step**: from every state it has the outcome of the step, unless the lattice has a
search that never ends. -/
def Follows (lattice : Lattice) (attempt : Attempt σ α) (step : EStateM Error σ α) : Prop :=
  ∀ state, lattice.Yields (attempt state) (step state)

variable {lattice : Lattice}

/-- One step after another, from one state: of the second step only what the first one leads to matters. -/
theorem yields_bind {attempt : Attempt σ α} {step : EStateM Error σ α} {next : α → Attempt σ β}
    {later : α → EStateM Error σ β} {state : σ} (one : lattice.Yields (attempt state) (step state))
    (two : ∀ value after, step state = .ok value after → lattice.Yields (next value after) (later value after)) :
    lattice.Yields ((attempt >>= next) state) ((step >>= later) state) := by
  show lattice.Yields (bind attempt next state) (EStateM.bind step later state)
  unfold bind EStateM.bind
  rcases one with found | ⟨missing, endless⟩
  · rw [found, Option.bind_some]
    cases reached : step state with
    | ok value after => exact two value after reached
    | error error after => exact .pure lattice _
  · rw [missing]
    exact Or.inr ⟨rfl, endless⟩

namespace Follows

/-- A step that makes no search is its own attempt. -/
theorem of (lattice : Lattice) (step : EStateM Error σ α) : Follows lattice (of step) step :=
  fun _ => .pure lattice _

/-- A mere value is attempted and given. -/
theorem pure (lattice : Lattice) (value : α) :
    Follows lattice (Pure.pure value : Attempt σ α) (Pure.pure value) := .of lattice _

/-- Attempts that follow steps do so one after another. -/
theorem bind {attempt : Attempt σ α} {step : EStateM Error σ α} {next : α → Attempt σ β}
    {later : α → EStateM Error σ β} (one : Follows lattice attempt step)
    (two : ∀ value, Follows lattice (next value) (later value)) : Follows lattice (attempt >>= next) (step >>= later) :=
  fun state => yields_bind (one state) fun value after _ => two value after

/-- An outcome that is awaited follows the decision. -/
theorem await {result : Option (Except Error α)} {outcome : Except Error α} (yields : lattice.Yields result outcome) :
    Follows lattice (await result) (Check.decide outcome) :=
  fun state => yields.map fun outcome => Check.decide outcome state

end Follows

end Attempt

/-! ## Decisions that search -/

namespace Lattice

/-- Whether a value may be used, as far as the search for it ends. -/
def isSubtype? (lattice : Lattice) (actual expected : Ty) : Option Bool :=
  if actual.equals expected || expected.isAny || meetsAtNil actual expected then some true
  else (lattice.distance? actual expected).map Option.isSome

/-- Subtyping searches the lattice once at most. -/
theorem yields_isSubtype (lattice : Lattice) (actual expected : Ty) :
    lattice.Yields (lattice.isSubtype? actual expected) (lattice.isSubtype actual expected) := by
  unfold isSubtype? isSubtype
  cases actual.equals expected || expected.isAny || meetsAtNil actual expected with
  | true => exact .pure lattice true
  | false => exact (awaits_distance lattice actual expected).yields.map Option.isSome

end Lattice

namespace Check

/-- Whether a value may be assigned, as far as the search for it ends. -/
def assignable? (env : Env) (name : String) (expected actual : Ty) (location : Location) : Option (Except Error Unit) :=
  if actual.isNil && !expected.isNil then
    some (if expected.nullable then .ok () else refuse (.nilAssigned name expected) location)
  else
    (env.types.lattice.isSubtype? actual expected).map fun fits =>
      if fits then .ok () else refuse (.variableMismatch name expected actual) location

/-- So does an assignment. -/
theorem yields_assignable (env : Env) (name : String) (expected actual : Ty) (location : Location) :
    env.types.lattice.Yields (assignable? env name expected actual location)
      (assignable env name expected actual location) := by
  unfold assignable? assignable
  split
  · exact .pure _ _
  · exact (env.types.lattice.yields_isSubtype actual expected).map _

/-- The type that a declaration gives to its variable, as far as the search for it ends. -/
def declaredType? (env : Env) (target : Variable) (value : Ty) (location : Location) :
    Option (Except Error (Ty × Variable)) :=
  match target.declaredType with
  | none => some (.ok (value, { target with resolvedType := some value }))
  | some written =>
    match env.types.resolve env.generics written with
    | .error error => some (.error error)
    | .ok declared =>
      (assignable? env target.name.name declared value location).map fun checked => do
        checked
        return (declared, { target with declaredType := some declared, resolvedType := some declared })

/-- So does a declaration with a written type. -/
theorem yields_declaredType (env : Env) (target : Variable) (value : Ty) (location : Location) :
    env.types.lattice.Yields (declaredType? env target value location) (declaredType env target value location) := by
  unfold declaredType? declaredType
  cases target.declaredType with
  | none => exact .pure _ _
  | some written =>
    dsimp only
    cases env.types.resolve env.generics written with
    | error error => exact .pure _ _
    | ok declared => exact (yields_assignable env target.name.name declared value location).map _

/-- Whether a visible variable may be given a value, as far as the search for it ends. -/
def rebindable? (env : Env) (target : Ident) (existing : Option LocalVariable) (value : Ty) (location : Location) :
    Option (Except Error Ty) :=
  match existing with
  | none => some (refuse (.undeclaredAssigned target.name) target.location)
  | some existing =>
    if !existing.mutable then some (refuse (.immutableAssigned target.name) target.location)
    else if value.isVoid then some (refuse (.voidAssigned target.name) location)
    else
      (assignable? env target.name existing.ty value location).map fun checked => do
        checked
        return existing.ty

/-- So does a reassignment. -/
theorem yields_rebindable (env : Env) (target : Ident) (existing : Option LocalVariable) (value : Ty)
    (location : Location) :
    env.types.lattice.Yields (rebindable? env target existing value location)
      (rebindable env target existing value location) := by
  unfold rebindable? rebindable
  cases existing with
  | none => exact .pure _ _
  | some existing =>
    dsimp only
    split
    · exact .pure _ _
    · split
      · exact .pure _ _
      · exact (yields_assignable env target.name existing.ty value location).map _

end Check

/-- Accept the value of a claimed member, as far as the search for it ends. -/
def Literal.accept? (env : Env) (literal : Literal) (declared : Member) (actual : Ty) (location : Location) :
    Option (Except Error Literal) :=
  let bindings :=
    if literal.explicit then literal.bindings
    else bindMissing literal.bindings (declared.ty.bind .empty actual)
  let expected := declared.ty.substitute bindings
  (env.types.lattice.isSubtype? actual expected).map fun fits =>
    if fits then .ok { literal with given := literal.given ++ [declared.name.name], bindings }
    else refuse (.memberMismatch declared.name.name expected actual) location

/-- So does the value of a member. -/
theorem Literal.yields_accept (env : Env) (literal : Literal) (declared : Member) (actual : Ty)
    (location : Location) :
    env.types.lattice.Yields (literal.accept? env declared actual location)
      (literal.accept env declared actual location) :=
  (env.types.lattice.yields_isSubtype actual _).map _

open Attempt (Follows)

namespace Check

/-- Bind a call, as far as its searches end. -/
def bindCall? (env : Env) (key : FunctionKey) (signature : String) (actuals : List Ty) (location : Location) :
    Attempt BodyState FunctionDecl := fun state =>
  (Overloading.resolve? env.types.lattice state.functions key signature actuals location).map fun outcome =>
    (do
      let bound ← Check.decide outcome
      set { state with functions := bound.2 }
      return bound.1 : Check FunctionDecl) state

/-- A call makes the searches of its candidates. -/
theorem follows_bindCall (env : Env) (key : FunctionKey) (signature : String) (actuals : List Ty)
    (location : Location) :
    Follows env.types.lattice (bindCall? env key signature actuals location)
      (bindCall env key signature actuals location) :=
  fun state =>
    (Overloading.awaits_resolve env.types.lattice state.functions key signature actuals location).yields.map _

/-! ## Expressions -/

mutual

/-- **Walk an expression, as far as its searches end.** -/
def expr? (env : Env) : Expr → Attempt BodyState (Ty × Expr)
  | .mk kind _ location => do
    let typed ← exprKind? env location kind
    return (typed.1, .mk typed.2 (some typed.1) location)

/-- What an expression is, as far as the searches for it end. Only what has parts is searched for. -/
def exprKind? (env : Env) (location : Location) : ExprKind → Attempt BodyState (Ty × ExprKind)
  | .call callee => do
    let typed ← call? env location callee
    return (typed.1, .call typed.2)
  | .list items => do
    let typed ← elements? env none 1 items
    return (Ty.list (typed.1.getD Ty.any), .list typed.2)
  | .tuple items => do
    let typed ← exprs? env items
    return (Ty.tuple typed.1, .tuple typed.2)
  | .object ctor members => do
    let literal ← Attempt.of (Check.decide (Literal.start env ctor location))
    let given ← memberValues? env literal members
    let ty ← Attempt.of (Check.decide (given.1.finish location))
    return (ty, .object ty given.2)
  | .access subject key => do
    let typed ← expr? env subject
    let ty ← Attempt.of (Check.decide (memberType env typed.1 typed.2.location key))
    return (ty, .access typed.2 key)
  | .number literal => .of (exprKind env location (.number literal))
  | .string text => .of (exprKind env location (.string text))
  | .boolean value => .of (exprKind env location (.boolean value))
  | .nil => .of (exprKind env location .nil)
  | .variable ident => .of (exprKind env location (.variable ident))
  | .enumCase enumName case => .of (exprKind env location (.enumCase enumName case))

/-- Walk the arguments of a call and bind it, as far as the searches end. -/
def call? (env : Env) (location : Location) : Call Expr → Attempt BodyState (Ty × Call Expr)
  | ⟨signature, affix, args, _⟩ => do
    let typed ← exprs? env args
    let decl ← bindCall? env (.ofSignature signature typed.2.length) (signature.shown affix) typed.1
      (location.orElse signature.location)
    return (decl.returnType, ⟨signature, affix, typed.2, some ⟨decl.paramTypes, decl.returnType⟩⟩)

/-- Walk several expressions, as far as their searches end. -/
def exprs? (env : Env) : List Expr → Attempt BodyState (List Ty × List Expr)
  | [] => return ([], [])
  | first :: rest => do
    let typed ← expr? env first
    let others ← exprs? env rest
    return (typed.1 :: others.1, typed.2 :: others.2)

/-- Walk the elements of a list, as far as their searches end. -/
def elements? (env : Env) (expected : Option Ty) (position : Nat) :
    List Expr → Attempt BodyState (Option Ty × List Expr)
  | [] => return (expected, [])
  | item :: rest => do
    let typed ← expr? env item
    let first ← Attempt.of (Check.decide (commonType expected position typed.1 typed.2.location))
    let others ← elements? env (some first) (position + 1) rest
    return (others.1, typed.2 :: others.2)

/-- Walk the members of a struct literal, as far as their searches end. -/
def memberValues? (env : Env) (literal : Literal) :
    List (MemberValue Expr) → Attempt BodyState (Literal × List (MemberValue Expr))
  | [] => return (literal, [])
  | ⟨member, value⟩ :: rest => do
    let declared ← Attempt.of (Check.decide (literal.claim member))
    let typed ← expr? env value
    let literal ← Attempt.await (literal.accept? env declared typed.1 typed.2.location)
    let others ← memberValues? env literal rest
    return (others.1, ⟨member, typed.2⟩ :: others.2)

end

mutual

/-- **The walk of an expression is followed**, whatever its parts search for. -/
theorem follows_expr (env : Env) : ∀ expr, Follows env.types.lattice (expr? env expr) (Check.expr env expr)
  | .mk kind _ location => by
    rw [expr?, Check.expr]
    exact (follows_exprKind env location kind).bind fun _ => .pure _ _

/-- Each kind of expression is attempted as it is walked. -/
theorem follows_exprKind (env : Env) (location : Location) :
    ∀ kind, Follows env.types.lattice (exprKind? env location kind) (Check.exprKind env location kind)
  | .call callee => by
    rw [exprKind?, Check.exprKind]
    exact (follows_call env location callee).bind fun _ => .pure _ _
  | .list items => by
    rw [exprKind?, Check.exprKind]
    exact (follows_elements env none 1 items).bind fun _ => .pure _ _
  | .tuple items => by
    rw [exprKind?, Check.exprKind]
    exact (follows_exprs env items).bind fun _ => .pure _ _
  | .object ctor members => by
    rw [exprKind?, Check.exprKind]
    refine (Follows.of _ _).bind fun literal => ?_
    refine (follows_memberValues env literal members).bind fun _ => ?_
    exact (Follows.of _ _).bind fun _ => .pure _ _
  | .access subject key => by
    rw [exprKind?, Check.exprKind]
    refine (follows_expr env subject).bind fun _ => ?_
    exact (Follows.of _ _).bind fun _ => .pure _ _
  | .number _ => by rw [exprKind?]; exact .of _ _
  | .string _ => by rw [exprKind?]; exact .of _ _
  | .boolean _ => by rw [exprKind?]; exact .of _ _
  | .nil => by rw [exprKind?]; exact .of _ _
  | .variable _ => by rw [exprKind?]; exact .of _ _
  | .enumCase _ _ => by rw [exprKind?]; exact .of _ _

/-- Calls are, arguments first. -/
theorem follows_call (env : Env) (location : Location) :
    ∀ callee, Follows env.types.lattice (call? env location callee) (Check.call env location callee)
  | ⟨_, _, args, _⟩ => by
    rw [call?, Check.call]
    refine (follows_exprs env args).bind fun _ => ?_
    exact (follows_bindCall env _ _ _ _).bind fun _ => .pure _ _

/-- So are several expressions. -/
theorem follows_exprs (env : Env) : ∀ exprs, Follows env.types.lattice (exprs? env exprs) (Check.exprs env exprs)
  | [] => by rw [exprs?, Check.exprs]; exact .pure _ _
  | first :: rest => by
    rw [exprs?, Check.exprs]
    refine (follows_expr env first).bind fun _ => ?_
    exact (follows_exprs env rest).bind fun _ => .pure _ _

/-- So are the elements of a list. -/
theorem follows_elements (env : Env) (expected : Option Ty) (position : Nat) :
    ∀ items, Follows env.types.lattice (elements? env expected position items)
      (Check.elements env expected position items)
  | [] => by rw [elements?, Check.elements]; exact .pure _ _
  | item :: rest => by
    rw [elements?, Check.elements]
    refine (follows_expr env item).bind fun _ => ?_
    refine (Follows.of _ _).bind fun first => ?_
    exact (follows_elements env (some first) (position + 1) rest).bind fun _ => .pure _ _

/-- So are the members of a literal. -/
theorem follows_memberValues (env : Env) (literal : Literal) :
    ∀ members, Follows env.types.lattice (memberValues? env literal members) (Check.memberValues env literal members)
  | [] => by rw [memberValues?, Check.memberValues]; exact .pure _ _
  | ⟨member, value⟩ :: rest => by
    rw [memberValues?, Check.memberValues]
    refine (Follows.of _ _).bind fun declared => ?_
    refine (follows_expr env value).bind fun _ => ?_
    refine (Follows.await (Literal.yields_accept env literal declared _ _)).bind fun literal => ?_
    exact (follows_memberValues env literal rest).bind fun _ => .pure _ _

end

/-! ## Statements -/

/-- Introduce the variable of a declaration, as far as the search for its type ends. -/
def declare? (env : Env) (target : Variable) (value : Ty) (location : Location) : Attempt BodyState Variable := do
  if value.isVoid then Attempt.of (Check.decide (refuse (.voidAssigned target.name.name) location))
  let declared ← Attempt.await (declaredType? env target value location)
  Attempt.of (define ⟨declared.2.name.name, declared.1, declared.2.mutable, declared.2.name.location⟩)
  return declared.2

/-- So are declarations. -/
theorem follows_declare (env : Env) (target : Variable) (value : Ty) (location : Location) :
    Follows env.types.lattice (declare? env target value location) (declare env target value location) := by
  unfold declare? declare
  have rest : Follows env.types.lattice
      (do
        let declared ← Attempt.await (declaredType? env target value location)
        Attempt.of (define ⟨declared.2.name.name, declared.1, declared.2.mutable, declared.2.name.location⟩)
        return declared.2)
      (do
        let declared ← Check.decide (declaredType env target value location)
        define ⟨declared.2.name.name, declared.1, declared.2.mutable, declared.2.name.location⟩
        return declared.2) := by
    refine (Follows.await (yields_declaredType env target value location)).bind fun _ => ?_
    exact (Follows.of _ _).bind fun _ => .pure _ _
  dsimp only
  split
  · exact (Follows.of _ _).bind fun _ => rest
  · exact rest

/-- Give a new value to a variable, as far as the search for its type ends. -/
def rebind? (env : Env) (target : Variable) (value : Ty) (location : Location) : Attempt BodyState Variable := do
  let state ← Attempt.of get
  let ty ← Attempt.await (rebindable? env target.name (state.scopes.lookup? target.name.name) value location)
  return { target with resolvedType := some ty }

/-- So are reassignments. -/
theorem follows_rebind (env : Env) (target : Variable) (value : Ty) (location : Location) :
    Follows env.types.lattice (rebind? env target value location) (rebind env target value location) := by
  refine (Follows.of _ _).bind fun state => ?_
  exact (Follows.await (yields_rebindable env target.name _ value location)).bind fun _ => .pure _ _

/-- Walk an assignment, as far as its searches end. -/
def assignment? (env : Env) (assigned : Assignment) : Attempt BodyState Assignment := do
  let typed ← expr? env assigned.value
  let target ←
    if assigned.isDeclaration then declare? env assigned.target typed.1 typed.2.location
    else rebind? env assigned.target typed.1 typed.2.location
  return { assigned with target, value := typed.2 }

/-- So is either kind of assignment. -/
theorem follows_assignment (env : Env) (assigned : Assignment) :
    Follows env.types.lattice (assignment? env assigned) (assignment env assigned) := by
  refine (follows_expr env assigned.value).bind fun typed => ?_
  dsimp only
  split
  · exact (follows_declare env assigned.target typed.1 typed.2.location).bind fun _ => .pure _ _
  · exact (follows_rebind env assigned.target typed.1 typed.2.location).bind fun _ => .pure _ _

/-- Walk the tests of a guard, as far as their searches end. -/
def guard? (env : Env) : List GuardTerm → Attempt BodyState (List GuardTerm)
  | [] => return []
  | term :: rest => do
    let typed ← expr? env term.test
    let rest ← guard? env rest
    return { term with test := typed.2 } :: rest

/-- So are guards. -/
theorem follows_guard (env : Env) (tests : List GuardTerm) :
    Follows env.types.lattice (guard? env tests) (guard env tests) := by
  induction tests with
  | nil => exact .pure _ _
  | cons term rest ih =>
    rw [guard?, guard]
    refine (follows_expr env term.test).bind fun _ => ?_
    exact ih.bind fun _ => .pure _ _

/-- What follows a step does so in a level of its own too. -/
theorem follows_nested {α β : Type} {lattice : Lattice} {attempt : Attempt BodyState α} {step : Check α}
    {next : α → Attempt BodyState β} {later : α → Check β} (inner : Follows lattice attempt step)
    (rest : ∀ value, Follows lattice (next value) (later value)) :
    Follows lattice
      (do
        Attempt.of enter
        let value ← attempt
        Attempt.of exit
        next value)
      (do
        enter
        let value ← step
        exit
        later value) := by
  refine (Follows.of _ _).bind fun _ => ?_
  refine inner.bind fun value => ?_
  exact (Follows.of _ _).bind fun _ => rest value

mutual

/-- **Walk a statement, as far as its searches end.** -/
def stmt? (env : Env) : Stmt → Attempt BodyState Stmt
  | .assignment assigned => return .assignment (← assignment? env assigned)
  | .returns none location => .of (stmt env (.returns none location))
  | .returns (some value) location => do
    let typed ← expr? env value
    Attempt.of (noteReturn typed.1 location)
    return .returns (some typed.2) location
  | .call callee location => do
    let typed ← call? env location callee
    if !typed.1.isVoid then Attempt.of (Check.decide (refuse (.valueDropped typed.1) location))
    return .call typed.2 location
  | .branch choice => return .branch (← branch? env choice)
  | .forEach iterator iterable body location => do
    let typed ← expr? env iterable
    let element ← Attempt.of (Check.decide (elementType typed.1 typed.2.location))
    Attempt.of enter
    Attempt.of (define ⟨iterator.name.name, element, false, iterator.name.location⟩)
    let body ← block? env body
    Attempt.of exit
    return .forEach { iterator with resolvedType := some element } typed.2 body location
  | .whileTrue tests body location => do
    let tests ← guard? env tests
    Attempt.of enter
    let body ← block? env body
    Attempt.of exit
    return .whileTrue tests body location
  | .pass location => return .pass location
  | .hostCode code location => return .hostCode code location

/-- Walk the statements of a block, as far as their searches end. -/
def block? (env : Env) : List Stmt → Attempt BodyState (List Stmt)
  | [] => return []
  | first :: rest => do
    let first ← stmt? env first
    let rest ← block? env rest
    return first :: rest

/-- Walk a branch, as far as its searches end. -/
def branch? (env : Env) : Branch → Attempt BodyState Branch
  | .mk tests body none location => do
    let tests ← guard? env tests
    Attempt.of enter
    let body ← block? env body
    Attempt.of exit
    return .mk tests body none location
  | .mk tests body (some otherwise) location => do
    let tests ← guard? env tests
    Attempt.of enter
    let body ← block? env body
    Attempt.of exit
    let otherwise ← branch? env otherwise
    return .mk tests body (some otherwise) location

end

mutual

/-- **The walk of a statement is followed**, whatever its parts search for. -/
theorem follows_stmt (env : Env) : ∀ stmt, Follows env.types.lattice (stmt? env stmt) (Check.stmt env stmt)
  | .assignment assigned => by
    rw [stmt?, Check.stmt]
    exact (follows_assignment env assigned).bind fun _ => .pure _ _
  | .returns none location => by rw [stmt?]; exact .of _ _
  | .returns (some value) location => by
    rw [stmt?, Check.stmt]
    refine (follows_expr env value).bind fun _ => ?_
    exact (Follows.of _ _).bind fun _ => .pure _ _
  | .call callee location => by
    simp only [stmt?, Check.stmt]
    refine (follows_call env location callee).bind fun typed => ?_
    split
    · exact (Follows.of _ _).bind fun _ => .pure _ _
    · exact .pure _ _
  | .branch choice => by
    rw [stmt?, Check.stmt]
    exact (follows_branch env choice).bind fun _ => .pure _ _
  | .forEach iterator iterable body location => by
    rw [stmt?, Check.stmt]
    refine (follows_expr env iterable).bind fun _ => ?_
    refine (Follows.of _ _).bind fun element => ?_
    refine (Follows.of _ _).bind fun _ => ?_
    refine (Follows.of _ _).bind fun _ => ?_
    refine (follows_block env body).bind fun _ => ?_
    exact (Follows.of _ _).bind fun _ => .pure _ _
  | .whileTrue tests body location => by
    rw [stmt?, Check.stmt]
    refine (follows_guard env tests).bind fun _ => ?_
    exact follows_nested (follows_block env body) fun _ => .pure _ _
  | .pass _ => by rw [stmt?, Check.stmt]; exact .pure _ _
  | .hostCode _ _ => by rw [stmt?, Check.stmt]; exact .pure _ _

/-- **Blocks are attempted as they are walked.** -/
theorem follows_block (env : Env) : ∀ stmts, Follows env.types.lattice (block? env stmts) (Check.block env stmts)
  | [] => by rw [block?, Check.block]; exact .pure _ _
  | first :: rest => by
    rw [block?, Check.block]
    refine (follows_stmt env first).bind fun _ => ?_
    exact (follows_block env rest).bind fun _ => .pure _ _

/-- So are branches. -/
theorem follows_branch (env : Env) : ∀ choice, Follows env.types.lattice (branch? env choice) (Check.branch env choice)
  | .mk tests body none location => by
    rw [branch?, Check.branch]
    refine (follows_guard env tests).bind fun _ => ?_
    exact follows_nested (follows_block env body) fun _ => .pure _ _
  | .mk tests body (some otherwise) location => by
    rw [branch?, Check.branch]
    refine (follows_guard env tests).bind fun _ => ?_
    refine follows_nested (follows_block env body) fun _ => ?_
    exact (follows_branch env otherwise).bind fun _ => .pure _ _

end

end Check

/-! ## Units -/

namespace Analysis

/-- Walk a body, as far as its searches end. -/
def walk? {α : Type} (generics : List String) (scopes : Scopes) (body : Env → Attempt BodyState α) :
    Attempt Analysis (α × List (Ty × Location)) := fun analysis =>
  (body ⟨analysis.symbols.types, generics⟩ ⟨analysis.symbols.functions, scopes, []⟩).map fun reached =>
    walk generics scopes (fun _ _ => reached) analysis

/-- A walk yields what its body yields in the lattice at hand. -/
theorem yields_walk {α : Type} {generics : List String} {scopes : Scopes} {attempt : Env → Attempt BodyState α}
    {body : Env → Check α} (follows : ∀ env, Follows env.types.lattice (attempt env) (body env)) (analysis : Analysis) :
    analysis.symbols.types.lattice.Yields (walk? generics scopes attempt analysis)
      (walk generics scopes body analysis) :=
  (follows ⟨analysis.symbols.types, generics⟩ ⟨analysis.symbols.functions, scopes, []⟩).map
    fun reached => walk generics scopes (fun _ _ => reached) analysis

/-- Fifth pass: walk the body of a function or an example, as far as its searches end. -/
def checkBody? (decl : Decl) : Attempt Analysis Decl :=
  match decl with
  | .function decl => do
    let walked ← walk? decl.genericNames .empty fun env => do
      Attempt.of (defineParams decl.params)
      Check.block? env decl.body
    match checkReturns decl.returnType walked.2 with
    | .ok () => return .function { decl with body := walked.1 }
    | .error error => Attempt.of (throw error)
  | .exampleBlock decl => do
    let walked ← walk? [] .empty fun env => Check.block? env decl.body
    return .exampleBlock { decl with body := walked.1 }
  | _ => return decl

/-- **The check of a body has an outcome unless the lattice has an endless way up.** -/
theorem yields_checkBody (decl : Decl) (analysis : Analysis) :
    analysis.symbols.types.lattice.Yields (checkBody? decl analysis) (checkBody decl analysis) := by
  cases decl with
  | function decl =>
    refine Attempt.yields_bind (yields_walk (fun env => ?_) analysis) fun walked after _ => ?_
    · exact (Follows.of _ _).bind fun _ => Check.follows_block env decl.body
    · dsimp only
      cases checkReturns decl.returnType walked.2 with
      | ok _ => exact .pure _ _
      | error error => exact .pure _ _
  | exampleBlock decl =>
    refine Attempt.yields_bind (yields_walk (fun env => ?_) analysis) fun walked after _ => .pure _ _
    exact Check.follows_block env decl.body
  | struct | enum | group | binding | importing => exact .pure _ _

/-- The fifth pass over several declarations, as far as its searches end. -/
def bodies? : List Decl → Attempt Analysis (List Decl)
  | [] => return []
  | decl :: rest => do
    let first ← checkBody? decl
    let others ← bodies? rest
    return first :: others

/-- The fifth pass is followed on tables whose lattice is the one given, for it leaves the type tables as they are. -/
theorem yields_bodies {lattice : Lattice} (decls : List Decl) {analysis : Analysis}
    (same : analysis.symbols.types.lattice = lattice) :
    lattice.Yields (bodies? decls analysis) (decls.mapM checkBody analysis) := by
  induction decls generalizing analysis with
  | nil => exact .pure lattice _
  | cons decl rest ih =>
    have first := yields_checkBody decl analysis
    rw [same] at first
    rw [bodies?, List.mapM_cons]
    refine Attempt.yields_bind first fun body after reached => ?_
    have keeps : Keeps (KnowsTypes fun types => types.lattice = lattice) (checkBody decl) := keepsTypes_checkBody decl
    have kept : after.symbols.types.lattice = lattice := keeps.of_eq_ok same reached
    exact Attempt.yields_bind (ih kept) fun _ _ _ => .pure lattice _

/-- **Check the declarations of a unit, as far as the searches end.** Only the last pass searches. -/
def declarations? (decls : List Decl) : Attempt Analysis (List Decl) := do
  Attempt.of (decls.forM registerName)
  let decls ← Attempt.of (decls.mapM bindGroup)
  let decls ← Attempt.of (decls.mapM resolveMembers)
  let decls ← Attempt.of (decls.mapM collect)
  bodies? decls

/-- **The check of the declarations of a unit is followed**, in the lattice that it leaves. -/
theorem yields_declarations (decls : List Decl) (before : Analysis) :
    (stateAfter (declarations decls before)).symbols.types.lattice.Yields (declarations? decls before)
      (declarations decls before) := by
  refine Attempt.yields_bind (.pure _ _) fun _ named registered => ?_
  refine Attempt.yields_bind (.pure _ _) fun groups bound binding => ?_
  refine Attempt.yields_bind (.pure _ _) fun structs resolved resolving => ?_
  refine Attempt.yields_bind (.pure _ _) fun signatures closed collecting => ?_
  apply yields_bodies
  -- the bodies have left the lattice as the pass before them did
  have last : stateAfter (declarations decls before) = stateAfter (signatures.mapM checkBody closed) := by
    rw [declarations, stateAfter_bind_of_ok registered, stateAfter_bind_of_ok binding, stateAfter_bind_of_ok resolving,
      stateAfter_bind_of_ok collecting]
  have keeps : Keeps (KnowsTypes fun types => types.lattice = closed.symbols.types.lattice)
      (signatures.mapM checkBody) := Keeps.mapM keepsTypes_checkBody signatures
  rw [last]
  exact (keeps closed rfl).symm

end Analysis

namespace Session

/-- **Check one unit, as far as the searches end.** There is no result for a check that never returns. -/
def addUnit? (session : Session) (unit : SourceUnit) : Option (Except Diagnostic SourceUnit × Session) :=
  let unit := unit.withOrigins
  (Analysis.declarations? unit.declarations (Analysis.start session.symbols)).map fun
    | .ok declarations analysis =>
      (.ok { unit with declarations }, ⟨analysis.symbols, session.checked ++ [unit.filename]⟩)
    | .error error analysis =>
      (.error ⟨error, unit.sourceFile⟩, { session with symbols := analysis.symbols })

/-- **A check that returns has the outcome of `addUnit`**, and one that does not leaves a lattice with a search that
never ends. -/
theorem yields_addUnit (session : Session) (unit : SourceUnit) :
    (session.addUnit unit).2.symbols.types.lattice.Yields (session.addUnit? unit) (session.addUnit unit) := by
  rw [symbols_addUnit]
  exact (Analysis.yields_declarations unit.withOrigins.declarations (.start session.symbols)).map _

end Session

end DeclCheck
