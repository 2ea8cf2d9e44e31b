import DeclCheck.Check.Stmt
import DeclCheck.Proofs.Steps

/-!
# What walks keep

A walk touches the body state through five operations only: it binds calls, declares variables, enters
and leaves levels, and notes returned types. What each of them keeps, every walk keeps, whether it
succeeds or not. Expressions use the first one alone.
-/

namespace DeclCheck

namespace Check

variable {property : BodyState → Prop} {env : Env}

/-! ## Steps that only read -/

/-- Looking up a variable keeps everything. -/
theorem keeps_variableType (ident : Ident) : Keeps property (variableType ident) := by
  unfold variableType
  refine Keeps.get_bind fun state => ?_
  dsimp only
  split
  · exact Keeps.pure _
  · exact keeps_decide _

/-- So does a reassignment. -/
theorem keeps_rebind (target : Variable) (value : Ty) (location : Location) :
    Keeps property (rebind env target value location) := by
  refine Keeps.get_bind fun state => ?_
  exact Keeps.bind (keeps_decide _) fun _ => Keeps.pure _

/-! ## Expressions -/

/-- Whether the binding of a call keeps a property. -/
def CallsKeep (env : Env) (property : BodyState → Prop) : Prop :=
  ∀ key signature actuals location, Keeps property (bindCall env key signature actuals location)

mutual

/-- **The walk of an expression keeps what the binding of calls keeps.** -/
theorem keeps_expr (calls : CallsKeep env property) : ∀ expr, Keeps property (Check.expr env expr)
  | .mk kind _ location => by
    rw [Check.expr]
    exact Keeps.bind (keeps_exprKind calls location kind) fun _ => Keeps.pure _

/-- Each kind of expression keeps what calls keep. -/
theorem keeps_exprKind (calls : CallsKeep env property) (location : Location) :
    ∀ kind, Keeps property (Check.exprKind env location kind)
  | .number _ => by rw [Check.exprKind]; exact Keeps.pure _
  | .string _ => by rw [Check.exprKind]; exact Keeps.pure _
  | .boolean _ => by rw [Check.exprKind]; exact Keeps.pure _
  | .nil => by rw [Check.exprKind]; exact Keeps.pure _
  | .variable ident => by
    rw [Check.exprKind]
    exact Keeps.bind (keeps_variableType ident) fun _ => Keeps.pure _
  | .call callee => by
    rw [Check.exprKind]
    exact Keeps.bind (keeps_call calls location callee) fun _ => Keeps.pure _
  | .list items => by
    rw [Check.exprKind]
    exact Keeps.bind (keeps_elements calls none 1 items) fun _ => Keeps.pure _
  | .tuple items => by
    rw [Check.exprKind]
    exact Keeps.bind (keeps_exprs calls items) fun _ => Keeps.pure _
  | .object ctor members => by
    rw [Check.exprKind]
    refine Keeps.bind (keeps_decide _) fun literal => ?_
    refine Keeps.bind (keeps_memberValues calls literal members) fun _ => ?_
    exact Keeps.bind (keeps_decide _) fun _ => Keeps.pure _
  | .access subject key => by
    rw [Check.exprKind]
    refine Keeps.bind (keeps_expr calls subject) fun _ => ?_
    exact Keeps.bind (keeps_decide _) fun _ => Keeps.pure _
  | .enumCase _ _ => by
    rw [Check.exprKind]
    exact Keeps.bind (keeps_decide _) fun _ => Keeps.pure _

/-- So does a call. -/
theorem keeps_call (calls : CallsKeep env property) (location : Location) :
    ∀ callee, Keeps property (Check.call env location callee)
  | ⟨_, _, args, _⟩ => by
    rw [Check.call]
    refine Keeps.bind (keeps_exprs calls args) fun _ => ?_
    exact Keeps.bind (calls _ _ _ _) fun _ => Keeps.pure _

/-- So do several expressions. -/
theorem keeps_exprs (calls : CallsKeep env property) :
    ∀ exprs, Keeps property (Check.exprs env exprs)
  | [] => by rw [Check.exprs]; exact Keeps.pure _
  | first :: rest => by
    rw [Check.exprs]
    refine Keeps.bind (keeps_expr calls first) fun _ => ?_
    exact Keeps.bind (keeps_exprs calls rest) fun _ => Keeps.pure _

/-- So do the elements of a list. -/
theorem keeps_elements (calls : CallsKeep env property) (expected : Option Ty) (position : Nat) :
    ∀ items, Keeps property (Check.elements env expected position items)
  | [] => by rw [Check.elements]; exact Keeps.pure _
  | item :: rest => by
    rw [Check.elements]
    refine Keeps.bind (keeps_expr calls item) fun _ => ?_
    refine Keeps.bind (keeps_decide _) fun first => ?_
    exact Keeps.bind (keeps_elements calls (some first) (position + 1) rest) fun _ => Keeps.pure _

/-- So do the members of a literal. -/
theorem keeps_memberValues (calls : CallsKeep env property) (literal : Literal) :
    ∀ members, Keeps property (Check.memberValues env literal members)
  | [] => by rw [Check.memberValues]; exact Keeps.pure _
  | ⟨_, value⟩ :: rest => by
    rw [Check.memberValues]
    refine Keeps.bind (keeps_decide _) fun _ => ?_
    refine Keeps.bind (keeps_expr calls value) fun _ => ?_
    refine Keeps.bind (keeps_decide _) fun literal => ?_
    exact Keeps.bind (keeps_memberValues calls literal rest) fun _ => Keeps.pure _

end

/-- So does a guard. -/
theorem keeps_guard (calls : CallsKeep env property) (tests : List GuardTerm) :
    Keeps property (guard env tests) := by
  induction tests with
  | nil => exact Keeps.pure _
  | cons term rest ih =>
    rw [guard]
    refine Keeps.bind (keeps_expr calls _) fun _ => ?_
    exact Keeps.bind ih fun _ => Keeps.pure _

/-! ## Statements -/

/-- **Whether every operation of a walk keeps a property.** -/
structure StepsKeep (env : Env) (property : BodyState → Prop) : Prop where
  calls : CallsKeep env property
  define : ∀ var, Keeps property (define var)
  enter : Keeps property enter
  exit : Keeps property exit
  noteReturn : ∀ ty location, Keeps property (noteReturn ty location)

/-- An assignment keeps what calls and declarations keep. -/
theorem keeps_assignment (steps : StepsKeep env property) (assigned : Assignment) :
    Keeps property (assignment env assigned) := by
  simp only [assignment]
  refine Keeps.bind (keeps_expr steps.calls _) fun found => ?_
  split
  · refine Keeps.bind ?_ fun _ => Keeps.pure _
    simp only [declare]
    split
    · refine Keeps.bind (keeps_decide _) fun _ => ?_
      refine Keeps.bind (keeps_decide _) fun _ => ?_
      exact Keeps.bind (steps.define _) fun _ => Keeps.pure _
    · refine Keeps.bind (keeps_decide _) fun _ => ?_
      exact Keeps.bind (steps.define _) fun _ => Keeps.pure _
  · exact Keeps.bind (keeps_rebind _ _ _) fun _ => Keeps.pure _

mutual

/-- **The walk of a statement keeps what its operations keep.** -/
theorem keeps_stmt (steps : StepsKeep env property) : ∀ stmt, Keeps property (Check.stmt env stmt)
  | .assignment assigned => by
    rw [Check.stmt]
    exact Keeps.bind (keeps_assignment steps assigned) fun _ => Keeps.pure _
  | .returns none location => by
    rw [Check.stmt]
    exact Keeps.bind (steps.noteReturn _ _) fun _ => Keeps.pure _
  | .returns (some value) location => by
    rw [Check.stmt]
    refine Keeps.bind (keeps_expr steps.calls value) fun _ => ?_
    exact Keeps.bind (steps.noteReturn _ _) fun _ => Keeps.pure _
  | .call callee location => by
    simp only [Check.stmt]
    refine Keeps.bind (keeps_call steps.calls location callee) fun found => ?_
    split
    · exact Keeps.bind (keeps_decide _) fun _ => Keeps.pure _
    · exact Keeps.pure _
  | .branch choice => by
    rw [Check.stmt]
    exact Keeps.bind (keeps_branch steps choice) fun _ => Keeps.pure _
  | .forEach iterator iterable body location => by
    rw [Check.stmt]
    refine Keeps.bind (keeps_expr steps.calls iterable) fun _ => ?_
    refine Keeps.bind (keeps_decide _) fun element => ?_
    refine Keeps.bind steps.enter fun _ => ?_
    refine Keeps.bind (steps.define _) fun _ => ?_
    refine Keeps.bind (keeps_block steps body) fun _ => ?_
    exact Keeps.bind steps.exit fun _ => Keeps.pure _
  | .whileTrue tests body location => by
    rw [Check.stmt]
    refine Keeps.bind (keeps_guard steps.calls tests) fun _ => ?_
    refine Keeps.bind steps.enter fun _ => ?_
    refine Keeps.bind (keeps_block steps body) fun _ => ?_
    exact Keeps.bind steps.exit fun _ => Keeps.pure _
  | .pass _ => by rw [Check.stmt]; exact Keeps.pure _
  | .hostCode _ _ => by rw [Check.stmt]; exact Keeps.pure _

/-- **A block keeps what its steps keep.** -/
theorem keeps_block (steps : StepsKeep env property) :
    ∀ stmts, Keeps property (Check.block env stmts)
  | [] => by rw [Check.block]; exact Keeps.pure _
  | first :: rest => by
    rw [Check.block]
    refine Keeps.bind (keeps_stmt steps first) fun _ => ?_
    exact Keeps.bind (keeps_block steps rest) fun _ => Keeps.pure _

/-- So does a branch. -/
theorem keeps_branch (steps : StepsKeep env property) :
    ∀ choice, Keeps property (Check.branch env choice)
  | .mk tests body none location => by
    rw [Check.branch]
    refine Keeps.bind (keeps_guard steps.calls tests) fun _ => ?_
    refine Keeps.bind steps.enter fun _ => ?_
    refine Keeps.bind (keeps_block steps body) fun _ => ?_
    exact Keeps.bind steps.exit fun _ => Keeps.pure _
  | .mk tests body (some otherwise) location => by
    rw [Check.branch]
    refine Keeps.bind (keeps_guard steps.calls tests) fun _ => ?_
    refine Keeps.bind steps.enter fun _ => ?_
    refine Keeps.bind (keeps_block steps body) fun _ => ?_
    refine Keeps.bind steps.exit fun _ => ?_
    exact Keeps.bind (keeps_branch steps otherwise) fun _ => Keeps.pure _

end

/-! ## The function table, and all else -/

/-- What the binding of a call does: it replaces the function table if it succeeds, and nothing else. -/
theorem bindCall_apply (key : FunctionKey) (signature : String) (actuals : List Ty)
    (location : Location) (state : BodyState) :
    bindCall env key signature actuals location state =
      match Overloading.resolve env.types.lattice state.functions key signature actuals location with
      | .ok (decl, functions) => .ok decl { state with functions }
      | .error error => .error error state := by
  rw [bindCall, get_bind_apply]
  cases Overloading.resolve env.types.lattice state.functions key signature actuals location with
  | error error => rfl
  | ok bound => rfl

/-- The binding of a call changes nothing but the function table. -/
theorem callsKeep_frame (scopes : Scopes) (returns : List (Ty × Location)) :
    CallsKeep env fun state => state.scopes = scopes ∧ state.returns = returns := by
  intro key signature actuals location state frame
  rw [bindCall_apply]
  cases Overloading.resolve env.types.lattice state.functions key signature actuals location with
  | error error => exact frame
  | ok found => exact frame

/-- Whether a property of function tables is kept when a call is bound. -/
def KeptByCalls (lattice : Lattice) (known : FunctionTable → Prop) : Prop :=
  ∀ functions key signature actuals location decl after, known functions →
    Overloading.resolve lattice functions key signature actuals location = .ok (decl, after) →
    known after

/-- **Walks keep what calls keep of the function table.** -/
theorem stepsKeep_functions {known : FunctionTable → Prop}
    (kept : KeptByCalls env.types.lattice known) : StepsKeep env fun state => known state.functions where
  calls key signature actuals location state holds := by
    rw [bindCall_apply]
    cases bound : Overloading.resolve env.types.lattice state.functions key signature actuals
        location with
    | error error => exact holds
    | ok found => exact kept _ _ _ _ _ _ _ holds bound
  define var := by
    refine Keeps.get_bind fun state => Keeps.bind (keeps_decide _) fun scopes => ?_
    exact fun _ holds => holds
  enter _ holds := holds
  exit _ holds := holds
  noteReturn _ _ _ holds := holds

end Check

end DeclCheck
