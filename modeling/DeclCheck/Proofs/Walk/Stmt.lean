import DeclCheck.Proofs.Walk.Expr

/-!
# The walk of a statement, as a derivation

`StmtWalk` goes from the function table and the visible variables before a statement to those after it,
and lists the types that the statement returns, its nested blocks included. What a nested block declares
is not visible after it: the rules say so outright, and `Scopes.Grown.exit_eq` is what makes them true of
the walk.
-/

namespace DeclCheck

/-- The walk of an assignment, to the function table and the visible variables after it. -/
inductive AssignmentWalk (env : Env) (before : FunctionTable) (visible : List LocalVariable) :
    Assignment → Assignment → FunctionTable → List LocalVariable → Prop
  | declaration {after : FunctionTable} {assigned : Assignment} {ty declared : Ty} {filled : Expr}
      {target : Variable} (introduces : assigned.isDeclaration = true)
      (walked : ExprWalk env visible before assigned.value ty filled after)
      (valued : ty.isVoid = false)
      (typed : Check.declaredType env assigned.target ty filled.location = .ok (declared, target))
      (fresh : visible.find? (·.name == target.name.name) = none) :
      AssignmentWalk env before visible assigned { assigned with target, value := filled } after
        (⟨target.name.name, declared, target.mutable, target.name.location⟩ :: visible)
  | reassignment {after : FunctionTable} {assigned : Assignment} {ty declared : Ty} {filled : Expr}
      (rebinds : assigned.isDeclaration = false)
      (walked : ExprWalk env visible before assigned.value ty filled after)
      (rebound : Check.rebindable env assigned.target.name
        (visible.find? (·.name == assigned.target.name.name)) ty filled.location = .ok declared) :
      AssignmentWalk env before visible assigned
        { assigned with
          target := { assigned.target with resolvedType := some declared }, value := filled }
        after visible

/-- The walk of the tests of a guard. -/
inductive GuardWalk (env : Env) (visible : List LocalVariable) :
    FunctionTable → List GuardTerm → List GuardTerm → FunctionTable → Prop
  | nil {functions : FunctionTable} : GuardWalk env visible functions [] [] functions
  | cons {before between after : FunctionTable} {term : GuardTerm} {terms filledRest : List GuardTerm}
      {ty : Ty} {filled : Expr} (walked : ExprWalk env visible before term.test ty filled between)
      (rest : GuardWalk env visible between terms filledRest after) :
      GuardWalk env visible before (term :: terms) ({ term with test := filled } :: filledRest) after

mutual

/-- **The walk of a statement**: the function table and the variables before it, the statement as it was
and with its slots filled, the types it returns, and the function table and the variables after it. -/
inductive StmtWalk (env : Env) :
    FunctionTable → List LocalVariable → Stmt → Stmt → List (Ty × Location) → FunctionTable →
    List LocalVariable → Prop
  | assignment {before after : FunctionTable} {visible seen : List LocalVariable}
      {assigned filled : Assignment}
      (walked : AssignmentWalk env before visible assigned filled after seen) :
      StmtWalk env before visible (.assignment assigned) (.assignment filled) [] after seen
  | returnsNothing {functions : FunctionTable} {visible : List LocalVariable} {location : Location} :
      StmtWalk env functions visible (.returns none location) (.returns none location)
        [(.void, location)] functions visible
  | returns {before after : FunctionTable} {visible : List LocalVariable} {value filled : Expr}
      {ty : Ty} {location : Location} (walked : ExprWalk env visible before value ty filled after) :
      StmtWalk env before visible (.returns (some value) location) (.returns (some filled) location)
        [(ty, location)] after visible
  | call {before after : FunctionTable} {visible : List LocalVariable} {callee filled : Call Expr}
      {ty : Ty} {location : Location}
      (walked : CallWalk env visible before location callee ty filled after)
      (void : ty.isVoid = true) :
      StmtWalk env before visible (.call callee location) (.call filled location) [] after visible
  | branch {before after : FunctionTable} {visible : List LocalVariable} {choice filled : Branch}
      {returned : List (Ty × Location)}
      (walked : BranchWalk env before visible choice filled returned after) :
      StmtWalk env before visible (.branch choice) (.branch filled) returned after visible
  | forEach {before between after : FunctionTable} {visible inner : List LocalVariable}
      {iterator : Variable} {iterable filled : Expr} {ty element : Ty} {body filledBody : List Stmt}
      {location : Location} {returned : List (Ty × Location)}
      (walked : ExprWalk env visible before iterable ty filled between)
      (iterates : Check.elementType ty filled.location = .ok element)
      (fresh : visible.find? (·.name == iterator.name.name) = none)
      (block : BlockWalk env between
        (⟨iterator.name.name, element, false, iterator.name.location⟩ :: visible) body filledBody
        returned after inner) :
      StmtWalk env before visible (.forEach iterator iterable body location)
        (.forEach { iterator with resolvedType := some element } filled filledBody location)
        returned after visible
  | whileTrue {before between after : FunctionTable} {visible inner : List LocalVariable}
      {tests filled : List GuardTerm} {body filledBody : List Stmt} {location : Location}
      {returned : List (Ty × Location)} (walked : GuardWalk env visible before tests filled between)
      (block : BlockWalk env between visible body filledBody returned after inner) :
      StmtWalk env before visible (.whileTrue tests body location)
        (.whileTrue filled filledBody location) returned after visible
  | pass {functions : FunctionTable} {visible : List LocalVariable} {location : Location} :
      StmtWalk env functions visible (.pass location) (.pass location) [] functions visible
  | hostCode {functions : FunctionTable} {visible : List LocalVariable} {code : String}
      {location : Location} :
      StmtWalk env functions visible (.hostCode code location) (.hostCode code location) []
        functions visible

/-- The walk of the statements of a block. -/
inductive BlockWalk (env : Env) :
    FunctionTable → List LocalVariable → List Stmt → List Stmt → List (Ty × Location) →
    FunctionTable → List LocalVariable → Prop
  | nil {functions : FunctionTable} {visible : List LocalVariable} :
      BlockWalk env functions visible [] [] [] functions visible
  | cons {before between after : FunctionTable} {visible seen inner : List LocalVariable}
      {stmt filled : Stmt} {stmts filledRest : List Stmt} {returned returnedRest : List (Ty × Location)}
      (first : StmtWalk env before visible stmt filled returned between seen)
      (rest : BlockWalk env between seen stmts filledRest returnedRest after inner) :
      BlockWalk env before visible (stmt :: stmts) (filled :: filledRest) (returned ++ returnedRest)
        after inner

/-- The walk of a branch with what is tried otherwise. -/
inductive BranchWalk (env : Env) :
    FunctionTable → List LocalVariable → Branch → Branch → List (Ty × Location) → FunctionTable → Prop
  | last {before between after : FunctionTable} {visible inner : List LocalVariable}
      {tests filled : List GuardTerm} {body filledBody : List Stmt} {location : Location}
      {returned : List (Ty × Location)} (walked : GuardWalk env visible before tests filled between)
      (block : BlockWalk env between visible body filledBody returned after inner) :
      BranchWalk env before visible (.mk tests body none location)
        (.mk filled filledBody none location) returned after
  | otherwise {before between ended after : FunctionTable} {visible inner : List LocalVariable}
      {tests filled : List GuardTerm} {body filledBody : List Stmt} {next filledNext : Branch}
      {location : Location} {returned returnedNext : List (Ty × Location)}
      (walked : GuardWalk env visible before tests filled between)
      (block : BlockWalk env between visible body filledBody returned ended inner)
      (rest : BranchWalk env ended visible next filledNext returnedNext after) :
      BranchWalk env before visible (.mk tests body (some next) location)
        (.mk filled filledBody (some filledNext) location) (returned ++ returnedNext) after

end

/-! ## The function table along a derivation -/

section

variable {env : Env} {known : FunctionTable → Prop}

/-- An assignment keeps what calls keep. -/
theorem AssignmentWalk.keeps (kept : Check.KeptByCalls env.types.lattice known)
    {before after : FunctionTable} {visible seen : List LocalVariable} {assigned filled : Assignment}
    (walked : AssignmentWalk env before visible assigned filled after seen) (holds : known before) :
    known after := by
  cases walked with
  | declaration _ value => exact value.keeps kept holds
  | reassignment _ value => exact value.keeps kept holds

/-- So does a guard. -/
theorem GuardWalk.keeps (kept : Check.KeptByCalls env.types.lattice known)
    {before after : FunctionTable} {visible : List LocalVariable} {tests filled : List GuardTerm}
    (walked : GuardWalk env visible before tests filled after) (holds : known before) :
    known after := by
  induction walked with
  | nil => exact holds
  | cons test _ ih => exact ih (test.keeps kept holds)

mutual

/-- **What calls keep of the function table, the walk of a statement keeps.** -/
theorem StmtWalk.keeps (kept : Check.KeptByCalls env.types.lattice known) {before after : FunctionTable}
    {visible seen : List LocalVariable} {stmt filled : Stmt} {returned : List (Ty × Location)} :
    StmtWalk env before visible stmt filled returned after seen → known before → known after
  | .assignment walked, holds => walked.keeps kept holds
  | .returnsNothing, holds => holds
  | .returns walked, holds => walked.keeps kept holds
  | .call walked _, holds => walked.keeps kept holds
  | .branch walked, holds => walked.keeps kept holds
  | .forEach walked _ _ block, holds => block.keeps kept (walked.keeps kept holds)
  | .whileTrue walked block, holds => block.keeps kept (walked.keeps kept holds)
  | .pass, holds => holds
  | .hostCode, holds => holds

/-- **So does a block.** -/
theorem BlockWalk.keeps (kept : Check.KeptByCalls env.types.lattice known)
    {before after : FunctionTable} {visible seen : List LocalVariable} {stmts filled : List Stmt}
    {returned : List (Ty × Location)} :
    BlockWalk env before visible stmts filled returned after seen → known before → known after
  | .nil, holds => holds
  | .cons first rest, holds => rest.keeps kept (first.keeps kept holds)

/-- So does a branch. -/
theorem BranchWalk.keeps (kept : Check.KeptByCalls env.types.lattice known)
    {before after : FunctionTable} {visible : List LocalVariable} {choice filled : Branch}
    {returned : List (Ty × Location)} :
    BranchWalk env before visible choice filled returned after → known before → known after
  | .last walked block, holds => block.keeps kept (walked.keeps kept holds)
  | .otherwise walked block rest, holds =>
    rest.keeps kept (block.keeps kept (walked.keeps kept holds))

end

end

namespace Check

variable {env : Env} {before after : BodyState}

/-! ## Steps that succeed -/

/-- A declaration gives its variable the declared type, which takes the value, or that of the value. -/
theorem declaredType_eq_ok {target declared : Variable} {value ty : Ty} {location : Location}
    (typed : declaredType env target value location = .ok (ty, declared)) :
    (target.declaredType = none ∧ ty = value ∧
      declared = { target with resolvedType := some value }) ∨
    (∃ written, target.declaredType = some written ∧
      env.types.resolve env.generics written = .ok ty ∧
      assignable env target.name.name ty value location = .ok () ∧
      declared = { target with declaredType := some ty, resolvedType := some ty }) := by
  simp only [declaredType] at typed
  split at typed
  · rename_i unwritten
    cases typed
    exact Or.inl ⟨unwritten, rfl, rfl⟩
  · rename_i written given
    obtain ⟨resolved, resolving, next⟩ := bind_eq_ok.mp typed
    obtain ⟨_, taken, made⟩ := bind_eq_ok.mp next
    cases made
    exact Or.inr ⟨written, given, resolving, taken, rfl⟩

/-- A variable that is given a new value is visible, may change, and takes the value. -/
theorem rebindable_eq_ok {target : Ident} {existing : Option LocalVariable} {value ty : Ty}
    {location : Location} (rebound : rebindable env target existing value location = .ok ty) :
    ∃ var, existing = some var ∧ var.mutable = true ∧ value.isVoid = false ∧
      assignable env target.name var.ty value location = .ok () ∧ ty = var.ty := by
  simp only [rebindable] at rebound
  split at rebound
  · cases rebound
  · rename_i var
    split at rebound
    · cases rebound
    · rename_i mutable
      split at rebound
      · cases rebound
      · rename_i valued
        obtain ⟨_, taken, made⟩ := bind_eq_ok.mp rebound
        cases made
        exact ⟨var, rfl, by simpa using mutable, Bool.eq_false_iff.mpr valued, taken, rfl⟩

/-- A loop runs over a list, whose elements are of the type of its first argument. -/
theorem elementType_eq_ok {iterable element : Ty} {location : Location}
    (iterates : elementType iterable location = .ok element) :
    ∃ args nullable, iterable = .app (.builtin .list) args nullable ∧ element = args.headD .any := by
  unfold elementType at iterates
  split at iterates
  · rename_i args nullable
    cases iterates
    exact ⟨args, nullable, rfl, rfl⟩
  · cases iterates

/-- Declaring a variable changes the scopes only. -/
theorem define_eq_ok {var : LocalVariable} (reached : Check.define var before = .ok () after) :
    ∃ scopes, before.scopes.define var = .ok scopes ∧ after = { before with scopes } := by
  obtain ⟨state, between, read, next⟩ := step_bind_eq_ok.mp reached
  cases read
  obtain ⟨scopes, decided, found, made⟩ := step_bind_eq_ok.mp next
  obtain ⟨defined, rfl⟩ := decide_eq_ok.mp found
  cases made
  exact ⟨scopes, defined, rfl⟩

theorem enter_eq_ok (reached : Check.enter before = .ok () after) :
    after = { before with scopes := before.scopes.enter } := by
  cases reached
  rfl

theorem exit_eq_ok (reached : Check.exit before = .ok () after) :
    after = { before with scopes := before.scopes.exit } := by
  cases reached
  rfl

/-- A reassignment changes no variable, and was allowed. -/
theorem rebind_eq_ok {target rebound : Variable} {value : Ty} {location : Location}
    (reached : rebind env target value location before = .ok rebound after) :
    after = before ∧ ∃ ty, rebindable env target.name
      (before.scopes.visible.find? (·.name == target.name.name)) value location = .ok ty ∧
      rebound = { target with resolvedType := some ty } := by
  obtain ⟨state, between, read, next⟩ := step_bind_eq_ok.mp reached
  cases read
  obtain ⟨ty, decided, found, made⟩ := step_bind_eq_ok.mp next
  obtain ⟨allowed, rfl⟩ := decide_eq_ok.mp found
  obtain ⟨same, rfl⟩ := step_pure_eq_ok.mp made
  rw [Scopes.lookup?_eq_find?] at allowed
  exact ⟨rfl, ty, allowed, same⟩

/-- A declaration has a value, and adds one variable of the declared type. -/
theorem declare_eq_ok {target declared : Variable} {value : Ty} {location : Location}
    (reached : declare env target value location before = .ok declared after) :
    value.isVoid = false ∧ ∃ ty scopes,
      declaredType env target value location = .ok (ty, declared) ∧
      before.scopes.define
        ⟨declared.name.name, ty, declared.mutable, declared.name.location⟩ = .ok scopes ∧
      after = { before with scopes } := by
  simp only [declare] at reached
  split at reached
  · obtain ⟨_, _, refused, -⟩ := step_bind_eq_ok.mp reached
    cases (decide_eq_ok.mp refused).1
  · rename_i valued
    obtain ⟨⟨ty, made⟩, decided, found, define⟩ := step_bind_eq_ok.mp reached
    obtain ⟨typed, rfl⟩ := decide_eq_ok.mp found
    obtain ⟨_, ended, defining, done⟩ := step_bind_eq_ok.mp define
    obtain ⟨scopes, defined, rfl⟩ := define_eq_ok defining
    cases done
    exact ⟨Bool.eq_false_iff.mpr valued, ty, scopes, typed, defined, rfl⟩

/-- A guard declares nothing and returns nothing. -/
theorem guard_frame {tests filled : List GuardTerm}
    (reached : guard env tests before = .ok filled after) :
    after.scopes = before.scopes ∧ after.returns = before.returns :=
  (keeps_guard (callsKeep_frame before.scopes before.returns) tests).of_eq_ok ⟨rfl, rfl⟩ reached

/-- Nor does a call. -/
theorem call_frame {callee : Call Expr} {location : Location} {result : Ty × Call Expr}
    (reached : Check.call env location callee before = .ok result after) :
    after.scopes = before.scopes ∧ after.returns = before.returns :=
  (keeps_call (callsKeep_frame before.scopes before.returns) location callee).of_eq_ok ⟨rfl, rfl⟩
    reached

/-! ## From walks to derivations -/

/-- A guard that is checked is walked. -/
theorem guardWalk {tests filled : List GuardTerm}
    (reached : guard env tests before = .ok filled after) :
    GuardWalk env before.scopes.visible before.functions tests filled after.functions := by
  induction tests generalizing before filled with
  | nil => cases reached; exact .nil
  | cons term rest ih =>
    rw [guard] at reached
    obtain ⟨⟨ty, inner⟩, between, walked, later⟩ := step_bind_eq_ok.mp reached
    obtain ⟨innerRest, ended, walkedRest, made⟩ := step_bind_eq_ok.mp later
    obtain ⟨scopes, -⟩ := expr_frame walked
    cases made
    exact .cons (exprWalk term.test walked) (scopes ▸ ih walkedRest)

/-- The walk of an assignment declares its variable, or changes no variable. -/
theorem assignmentWalk {assigned filled : Assignment}
    (reached : Check.assignment env assigned before = .ok filled after) :
    before.scopes.Grown after.scopes ∧ after.returns = before.returns ∧
      AssignmentWalk env before.functions before.scopes.visible assigned filled after.functions
        after.scopes.visible := by
  simp only [Check.assignment] at reached
  obtain ⟨⟨ty, inner⟩, between, walked, next⟩ := step_bind_eq_ok.mp reached
  obtain ⟨scopes, returns⟩ := expr_frame walked
  have value := exprWalk assigned.value walked
  split at next
  · rename_i introduces
    obtain ⟨target, ended, declaring, made⟩ := step_bind_eq_ok.mp next
    obtain ⟨valued, declared, grown, typed, defined, rfl⟩ := declare_eq_ok declaring
    rw [scopes] at defined
    obtain ⟨fresh, listed⟩ := Scopes.define_eq_ok defined
    cases made
    refine ⟨.of_define defined, returns, ?_⟩
    have seen : grown.visible = ⟨target.name.name, declared, target.mutable, target.name.location⟩ ::
        before.scopes.visible := by rw [listed]; rfl
    exact seen ▸ .declaration introduces value valued typed fresh
  · rename_i rebinds
    obtain ⟨target, ended, rebinding, made⟩ := step_bind_eq_ok.mp next
    obtain ⟨rfl, declared, allowed, rfl⟩ := rebind_eq_ok rebinding
    rw [scopes] at allowed
    cases made
    refine ⟨scopes ▸ .refl _, returns, ?_⟩
    rw [scopes]
    exact .reassignment (Bool.eq_false_iff.mpr rebinds) value allowed

/-- **A guarded block that succeeds**: the tests are walked first, and leave only the function table changed.
Then the block is walked one level deeper, and what follows goes on from the level it was left to. -/
theorem guarded_eq_ok {α : Type} {tests : List GuardTerm} {body : List Stmt}
    {next : List GuardTerm → List Stmt → Check α} {result : α}
    (reached : (do
      let tests ← guard env tests
      enter
      let body ← block env body
      exit
      next tests body) before = .ok result after) :
    ∃ filledTests functions filledBody ended,
      GuardWalk env before.scopes.visible before.functions tests filledTests functions ∧
      block env body ⟨functions, before.scopes.enter, before.returns⟩ = .ok filledBody ended ∧
      next filledTests filledBody { ended with scopes := ended.scopes.exit } = .ok result after := by
  obtain ⟨filledTests, between, walked, enter⟩ := step_bind_eq_ok.mp reached
  obtain ⟨_, entered, entering, walk⟩ := step_bind_eq_ok.mp enter
  obtain rfl := enter_eq_ok entering
  obtain ⟨filledBody, ended, walkedBody, leave⟩ := step_bind_eq_ok.mp walk
  obtain ⟨_, left, leaving, later⟩ := step_bind_eq_ok.mp leave
  obtain rfl := exit_eq_ok leaving
  obtain ⟨scopes, returns⟩ := guard_frame walked
  rw [scopes, returns] at walkedBody
  exact ⟨filledTests, between.functions, filledBody, ended, guardWalk walked, walkedBody, later⟩

mutual

/-- **A successful walk of a statement has a derivation.** The variables after it are those before it
and what it declares at its own level. -/
theorem stmtWalk :
    ∀ (stmt : Stmt) {before after : BodyState} {filled : Stmt},
      Check.stmt env stmt before = .ok filled after → before.scopes.Leveled →
      before.scopes.Grown after.scopes ∧ ∃ returned, after.returns = before.returns ++ returned ∧
        StmtWalk env before.functions before.scopes.visible stmt filled returned after.functions
          after.scopes.visible
  | .assignment assigned, before, after, filled, reached, leveled => by
    rw [Check.stmt] at reached
    obtain ⟨inner, ended, walked, made⟩ := step_bind_eq_ok.mp reached
    obtain ⟨grown, returns, derived⟩ := assignmentWalk walked
    cases made
    exact ⟨grown, [], by rw [returns, List.append_nil], .assignment derived⟩
  | .returns none location, before, after, filled, reached, leveled => by
    rw [Check.stmt] at reached
    cases reached
    exact ⟨.refl _, _, rfl, .returnsNothing⟩
  | .returns (some value) location, before, after, filled, reached, leveled => by
    rw [Check.stmt] at reached
    obtain ⟨⟨ty, inner⟩, between, walked, note⟩ := step_bind_eq_ok.mp reached
    obtain ⟨scopes, returns⟩ := expr_frame walked
    cases note
    refine ⟨scopes ▸ .refl _, [(ty, location)], congrArg (· ++ _) returns, ?_⟩
    show StmtWalk env _ _ _ _ _ between.functions between.scopes.visible
    rw [scopes]
    exact .returns (exprWalk value walked)
  | .call callee location, before, after, filled, reached, leveled => by
    simp only [Check.stmt] at reached
    obtain ⟨⟨ty, inner⟩, between, walked, rest⟩ := step_bind_eq_ok.mp reached
    obtain ⟨scopes, returns⟩ := call_frame walked
    split at rest
    · obtain ⟨_, _, refused, -⟩ := step_bind_eq_ok.mp rest
      cases (decide_eq_ok.mp refused).1
    · rename_i void
      cases rest
      refine ⟨scopes ▸ .refl _, [], by rw [returns, List.append_nil], ?_⟩
      rw [scopes]
      exact .call (callWalk location callee walked) (by simpa using void)
  | .branch choice, before, after, filled, reached, leveled => by
    rw [Check.stmt] at reached
    obtain ⟨inner, ended, walked, made⟩ := step_bind_eq_ok.mp reached
    obtain ⟨scopes, returned, returns, derived⟩ := branchWalk choice walked leveled
    cases made
    refine ⟨scopes ▸ .refl _, returned, returns, ?_⟩
    rw [scopes]
    exact .branch derived
  | .forEach iterator iterable body location, before, after, filled, reached, leveled => by
    rw [Check.stmt] at reached
    obtain ⟨⟨ty, inner⟩, between, walked, decide⟩ := step_bind_eq_ok.mp reached
    obtain ⟨scopes, returns⟩ := expr_frame walked
    obtain ⟨element, decided, find, enter⟩ := step_bind_eq_ok.mp decide
    obtain ⟨iterates, rfl⟩ := decide_eq_ok.mp find
    obtain ⟨_, entered, entering, define⟩ := step_bind_eq_ok.mp enter
    obtain rfl := enter_eq_ok entering
    obtain ⟨_, begun, defining, walk⟩ := step_bind_eq_ok.mp define
    obtain ⟨started, defined, rfl⟩ := define_eq_ok defining
    obtain ⟨filledBody, ended, walkedBody, leave⟩ := step_bind_eq_ok.mp walk
    obtain ⟨_, left, leaving, made⟩ := step_bind_eq_ok.mp leave
    obtain rfl := exit_eq_ok leaving
    cases made
    rw [scopes] at defined
    have inside : before.scopes.enter.Grown started := .of_define defined
    obtain ⟨grown, returned, noted, derived⟩ :=
      blockWalk body walkedBody (leveled.enter.grown inside)
    have restored : ended.scopes.exit = before.scopes := (inside.trans grown).exit_eq leveled
    obtain ⟨fresh, listed⟩ := Scopes.define_eq_ok defined
    have seen : started.visible = ⟨iterator.name.name, element, false, iterator.name.location⟩ ::
        before.scopes.visible := by rw [listed]; rfl
    refine ⟨restored ▸ .refl _, returned, by rw [← returns]; exact noted, ?_⟩
    rw [restored]
    exact .forEach (exprWalk iterable walked) iterates fresh (seen ▸ derived)
  | .whileTrue tests body location, before, after, filled, reached, leveled => by
    rw [Check.stmt] at reached
    obtain ⟨_, _, _, ended, guard, walkedBody, made⟩ := guarded_eq_ok reached
    cases made
    obtain ⟨grown, returned, noted, derived⟩ := blockWalk body walkedBody leveled.enter
    have restored : ended.scopes.exit = before.scopes := grown.exit_eq leveled
    refine ⟨restored ▸ .refl _, returned, noted, ?_⟩
    rw [restored]
    exact .whileTrue guard derived
  | .pass location, before, after, filled, reached, leveled => by
    rw [Check.stmt] at reached
    cases reached
    exact ⟨.refl _, [], (List.append_nil _).symm, .pass⟩
  | .hostCode code location, before, after, filled, reached, leveled => by
    rw [Check.stmt] at reached
    cases reached
    exact ⟨.refl _, [], (List.append_nil _).symm, .hostCode⟩
termination_by structural stmt => stmt

/-- **A block that is checked is walked**, and the scopes have grown by what it declares. -/
theorem blockWalk :
    ∀ (stmts : List Stmt) {before after : BodyState} {filled : List Stmt},
      Check.block env stmts before = .ok filled after → before.scopes.Leveled →
      before.scopes.Grown after.scopes ∧ ∃ returned, after.returns = before.returns ++ returned ∧
        BlockWalk env before.functions before.scopes.visible stmts filled returned after.functions
          after.scopes.visible
  | [], before, after, filled, reached, leveled => by
    rw [Check.block] at reached
    cases reached
    exact ⟨.refl _, [], (List.append_nil _).symm, .nil⟩
  | first :: rest, before, after, filled, reached, leveled => by
    rw [Check.block] at reached
    obtain ⟨inner, between, walked, later⟩ := step_bind_eq_ok.mp reached
    obtain ⟨innerRest, ended, walkedRest, made⟩ := step_bind_eq_ok.mp later
    obtain ⟨grown, returned, noted, derived⟩ := stmtWalk first walked leveled
    obtain ⟨grownRest, returnedRest, notedRest, derivedRest⟩ :=
      blockWalk rest walkedRest (leveled.grown grown)
    cases made
    refine ⟨grown.trans grownRest, returned ++ returnedRest, ?_, .cons derived derivedRest⟩
    rw [notedRest, noted, List.append_assoc]
termination_by structural stmts => stmts

/-- A branch that is checked is walked, and leaves the scopes as they were. -/
theorem branchWalk :
    ∀ (choice : Branch) {before after : BodyState} {filled : Branch},
      Check.branch env choice before = .ok filled after → before.scopes.Leveled →
      after.scopes = before.scopes ∧ ∃ returned, after.returns = before.returns ++ returned ∧
        BranchWalk env before.functions before.scopes.visible choice filled returned after.functions
  | .mk tests body none location, before, after, filled, reached, leveled => by
    rw [Check.branch] at reached
    obtain ⟨_, _, _, ended, guard, walkedBody, made⟩ := guarded_eq_ok reached
    cases made
    obtain ⟨grown, returned, noted, derived⟩ := blockWalk body walkedBody leveled.enter
    exact ⟨grown.exit_eq leveled, returned, noted, .last guard derived⟩
  | .mk tests body (some otherwise) location, before, after, filled, reached, leveled => by
    rw [Check.branch] at reached
    obtain ⟨_, _, _, ended, guard, walkedBody, later⟩ := guarded_eq_ok reached
    obtain ⟨filledNext, last, walkedNext, made⟩ := step_bind_eq_ok.mp later
    cases made
    obtain ⟨grown, returned, noted, derived⟩ := blockWalk body walkedBody leveled.enter
    have restored : ended.scopes.exit = before.scopes := grown.exit_eq leveled
    rw [restored] at walkedNext
    obtain ⟨same, returnedNext, notedNext, derivedNext⟩ := branchWalk otherwise walkedNext leveled
    refine ⟨same, returned ++ returnedNext, ?_, .otherwise guard derived derivedNext⟩
    rw [notedNext, ← List.append_assoc]
    exact congrArg (· ++ _) noted
termination_by structural choice => choice

end

end Check

end DeclCheck
