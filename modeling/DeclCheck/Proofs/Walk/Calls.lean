import DeclCheck.Proofs.Walk.Stmt

/-!
# The calls of a checked tree

Every call of a checked body, wherever it stands in the tree, was bound once, from the function table that the walk
had come to by then. So what is known of all these tables is known at every call.
-/

namespace DeclCheck

/-! ## Expressions -/

mutual

/-- The calls in an expression. -/
def Expr.calls : Expr → List (Call Expr)
  | .mk kind _ _ => kind.calls

/-- The calls in what an expression is. -/
def ExprKind.calls : ExprKind → List (Call Expr)
  | .call callee => callee.calls
  | .list items => Expr.allCalls items
  | .tuple items => Expr.allCalls items
  | .object _ members => Expr.memberCalls members
  | .access subject _ => subject.calls
  | _ => []

/-- A call and the calls in its arguments. -/
def Call.calls : Call Expr → List (Call Expr)
  | ⟨signature, affix, args, slot⟩ => ⟨signature, affix, args, slot⟩ :: Expr.allCalls args

/-- The calls in several expressions. -/
def Expr.allCalls : List Expr → List (Call Expr)
  | [] => []
  | expr :: rest => expr.calls ++ Expr.allCalls rest

/-- The calls in the values of a struct literal. -/
def Expr.memberCalls : List (MemberValue Expr) → List (Call Expr)
  | [] => []
  | ⟨_, value⟩ :: rest => value.calls ++ Expr.memberCalls rest

end

/-! ## Statements and declarations -/

/-- The calls in the tests of a guard. -/
def GuardTerm.allCalls (tests : List GuardTerm) : List (Call Expr) := tests.flatMap (·.test.calls)

mutual

/-- The calls in a statement. -/
def Stmt.calls : Stmt → List (Call Expr)
  | .assignment assigned => assigned.value.calls
  | .returns none _ => []
  | .returns (some value) _ => value.calls
  | .call callee _ => callee.calls
  | .branch choice => choice.calls
  | .forEach _ iterable body _ => iterable.calls ++ Stmt.allCalls body
  | .whileTrue tests body _ => GuardTerm.allCalls tests ++ Stmt.allCalls body
  | .pass _ => []
  | .hostCode _ _ => []

/-- The calls in a block. -/
def Stmt.allCalls : List Stmt → List (Call Expr)
  | [] => []
  | stmt :: rest => stmt.calls ++ Stmt.allCalls rest

/-- The calls in a branch, with what is tried otherwise. -/
def Branch.calls : Branch → List (Call Expr)
  | .mk tests body none _ => GuardTerm.allCalls tests ++ Stmt.allCalls body
  | .mk tests body (some otherwise) _ => GuardTerm.allCalls tests ++ Stmt.allCalls body ++ otherwise.calls

end

/-- The calls in the body of a declaration that has one. -/
def Decl.calls : Decl → List (Call Expr)
  | .function decl => Stmt.allCalls decl.body
  | .exampleBlock decl => Stmt.allCalls decl.body
  | _ => []

/-! ## Bound calls -/

/-- **Whether a call was bound from a known function table**: its arguments are typed, and resolution has led from
their types to the overload that it is bound to. -/
def Call.BoundFrom (lattice : Lattice) (known : FunctionTable → Prop) (call : Call Expr) : Prop :=
  ∃ functions actuals location decl after, known functions ∧ call.args.map Expr.ty = actuals.map some ∧
    Overloading.resolve lattice functions call.key call.shown actuals location = .ok (decl, after) ∧
    call.resolved = some ⟨decl.paramTypes, decl.returnType⟩

section

variable {env : Env} {visible : List LocalVariable} {known : FunctionTable → Prop}

/-- A walk notes on each expression the type that it finds. -/
theorem ExprsWalk.map_ty {before after : FunctionTable} {exprs filled : List Expr} {types : List Ty} :
    ExprsWalk env visible before exprs types filled after → filled.map Expr.ty = types.map some
  | .nil => rfl
  | .cons (.mk _) rest => by
    rw [List.map_cons, List.map_cons, rest.map_ty]
    rfl

mutual

/-- **Every call of a walked expression was bound from a known table**, if calls keep what is known. -/
theorem ExprWalk.bound (kept : Check.KeptByCalls env.types.lattice known) {before after : FunctionTable}
    {expr filled : Expr} {ty : Ty} :
    ExprWalk env visible before expr ty filled after → known before →
    ∀ call ∈ filled.calls, call.BoundFrom env.types.lattice known
  | .mk walked, holds => walked.bound kept holds

/-- All calls in an expression are bound, whatever its kind. -/
theorem KindWalk.bound (kept : Check.KeptByCalls env.types.lattice known) {before after : FunctionTable}
    {location : Location} {kind filled : ExprKind} {ty : Ty} :
    KindWalk env visible before location kind ty filled after → known before →
    ∀ call ∈ filled.calls, call.BoundFrom env.types.lattice known
  | .number, _ => fun _ mem => by cases mem
  | .string, _ => fun _ mem => by cases mem
  | .boolean, _ => fun _ mem => by cases mem
  | .nil, _ => fun _ mem => by cases mem
  | .variable _, _ => fun _ mem => by cases mem
  | .call walked, holds => walked.bound kept holds
  | .list walked, holds => walked.bound kept holds
  | .tuple walked, holds => walked.bound kept holds
  | .object _ walked _, holds => walked.bound kept holds
  | .access walked _, holds => walked.bound kept holds
  | .enumCase _, _ => fun _ mem => by cases mem

/-- So are those in the arguments of a call, and the call itself. -/
theorem CallWalk.bound (kept : Check.KeptByCalls env.types.lattice known) {before after : FunctionTable}
    {location : Location} {callee filled : Call Expr} {ty : Ty} :
    CallWalk env visible before location callee ty filled after → known before →
    ∀ call ∈ filled.calls, call.BoundFrom env.types.lattice known
  | .mk walked resolved, holds => by
    intro call mem
    rcases List.mem_cons.mp mem with rfl | inside
    · exact ⟨_, _, _, _, _, walked.keeps kept holds, walked.map_ty, resolved, rfl⟩
    · exact walked.bound kept holds call inside

/-- So are those in several expressions. -/
theorem ExprsWalk.bound (kept : Check.KeptByCalls env.types.lattice known) {before after : FunctionTable}
    {exprs filled : List Expr} {types : List Ty} :
    ExprsWalk env visible before exprs types filled after → known before →
    ∀ call ∈ Expr.allCalls filled, call.BoundFrom env.types.lattice known
  | .nil, _ => fun _ mem => by cases mem
  | .cons first rest, holds =>
    List.forall_mem_append.mpr ⟨first.bound kept holds, rest.bound kept (first.keeps kept holds)⟩

/-- So are those in the elements of a list. -/
theorem ElementsWalk.bound (kept : Check.KeptByCalls env.types.lattice known) {before after : FunctionTable}
    {expected common : Option Ty} {position : Nat} {items filled : List Expr} :
    ElementsWalk env visible before expected position items common filled after → known before →
    ∀ call ∈ Expr.allCalls filled, call.BoundFrom env.types.lattice known
  | .nil, _ => fun _ mem => by cases mem
  | .cons walked _ rest, holds =>
    List.forall_mem_append.mpr ⟨walked.bound kept holds, rest.bound kept (walked.keeps kept holds)⟩

/-- So are those in the members of a literal. -/
theorem MembersWalk.bound (kept : Check.KeptByCalls env.types.lattice known) {before after : FunctionTable}
    {literal complete : Literal} {members filled : List (MemberValue Expr)} :
    MembersWalk env visible before literal members complete filled after → known before →
    ∀ call ∈ Expr.memberCalls filled, call.BoundFrom env.types.lattice known
  | .nil, _ => fun _ mem => by cases mem
  | .cons _ walked _ rest, holds =>
    List.forall_mem_append.mpr ⟨walked.bound kept holds, rest.bound kept (walked.keeps kept holds)⟩

end

/-- So are those in an assignment. -/
theorem AssignmentWalk.bound (kept : Check.KeptByCalls env.types.lattice known) {before after : FunctionTable}
    {seen : List LocalVariable} {assigned filled : Assignment}
    (walked : AssignmentWalk env before visible assigned filled after seen) (holds : known before) :
    ∀ call ∈ filled.value.calls, call.BoundFrom env.types.lattice known := by
  cases walked with
  | declaration _ value => exact value.bound kept holds
  | reassignment _ value => exact value.bound kept holds

/-- So are those in a guard. -/
theorem GuardWalk.bound (kept : Check.KeptByCalls env.types.lattice known) {before after : FunctionTable}
    {tests filled : List GuardTerm} (walked : GuardWalk env visible before tests filled after)
    (holds : known before) : ∀ call ∈ GuardTerm.allCalls filled, call.BoundFrom env.types.lattice known := by
  induction walked with
  | nil =>
    intro call mem
    cases mem
  | cons test rest ih =>
    rw [GuardTerm.allCalls, List.flatMap_cons]
    exact List.forall_mem_append.mpr ⟨test.bound kept holds, ih (test.keeps kept holds)⟩

end

section

variable {env : Env} {known : FunctionTable → Prop}

mutual

/-- **Every call of a walked statement was bound from a known table.** -/
theorem StmtWalk.bound (kept : Check.KeptByCalls env.types.lattice known) {before after : FunctionTable}
    {visible seen : List LocalVariable} {stmt filled : Stmt} {returned : List (Ty × Location)} :
    StmtWalk env before visible stmt filled returned after seen → known before →
    ∀ call ∈ filled.calls, call.BoundFrom env.types.lattice known
  | .assignment walked, holds => walked.bound kept holds
  | .returnsNothing, _ => fun _ mem => by cases mem
  | .returns walked, holds => walked.bound kept holds
  | .call walked _, holds => walked.bound kept holds
  | .branch walked, holds => walked.bound kept holds
  | .forEach walked _ _ block, holds =>
    List.forall_mem_append.mpr ⟨walked.bound kept holds, block.bound kept (walked.keeps kept holds)⟩
  | .whileTrue walked block, holds =>
    List.forall_mem_append.mpr ⟨walked.bound kept holds, block.bound kept (walked.keeps kept holds)⟩
  | .pass, _ => fun _ mem => by cases mem
  | .hostCode, _ => fun _ mem => by cases mem

/-- **All calls in a block are bound** in tables with the kept property. -/
theorem BlockWalk.bound (kept : Check.KeptByCalls env.types.lattice known) {before after : FunctionTable}
    {visible seen : List LocalVariable} {stmts filled : List Stmt} {returned : List (Ty × Location)} :
    BlockWalk env before visible stmts filled returned after seen → known before →
    ∀ call ∈ Stmt.allCalls filled, call.BoundFrom env.types.lattice known
  | .nil, _ => fun _ mem => by cases mem
  | .cons first rest, holds =>
    List.forall_mem_append.mpr ⟨first.bound kept holds, rest.bound kept (first.keeps kept holds)⟩

/-- So are those in a branch. -/
theorem BranchWalk.bound (kept : Check.KeptByCalls env.types.lattice known) {before after : FunctionTable}
    {visible : List LocalVariable} {choice filled : Branch} {returned : List (Ty × Location)} :
    BranchWalk env before visible choice filled returned after → known before →
    ∀ call ∈ filled.calls, call.BoundFrom env.types.lattice known
  | .last walked block, holds =>
    List.forall_mem_append.mpr ⟨walked.bound kept holds, block.bound kept (walked.keeps kept holds)⟩
  | .otherwise walked block rest, holds => by
    have inner := walked.keeps kept holds
    refine List.forall_mem_append.mpr ⟨List.forall_mem_append.mpr ⟨walked.bound kept holds, block.bound kept inner⟩, ?_⟩
    exact rest.bound kept (block.keeps kept inner)

end

end

end DeclCheck
