import DeclCheck.Proofs.Defects.Tables
import DeclCheck.Proofs.Walk.Stmt

/-!
# Walks without defects

The walk of a body meets struct types in variables, in overloads and in the values of expressions. As long as each of
these structs has a declaration, no step of the walk ends in an error that is not a report, and what the walk adds to
the variables and the function table again mentions declared structs only. This holds of walks that fail as well.
-/

namespace DeclCheck

/-! ## Steps -/

/-- **A member access fails with reports only**, if the struct of the subject has a declaration. -/
theorem errorsIn_memberType {env : Env} {subject : Ty} (built : subject.BuiltFrom env.types.Declares)
    (location : Location) (key : Ident) : ErrorsIn Error.IsReport (memberType env subject location key) := by
  unfold memberType
  split
  · rename_i name args nullable
    obtain ⟨decl, found⟩ := built.1
    rw [found]
    dsimp only
    split
    · exact ErrorsIn.reports (errorsIn_refuse _ trivial)
    · exact ErrorsIn.ok _
  · exact ErrorsIn.reports (errorsIn_refuse _ trivial)

namespace Check

/-- **Whether every struct that a walk can meet has a declaration**: those that overloads return, and those in the
types of variables. -/
structure Grounded (env : Env) (state : BodyState) : Prop where
  functions : state.functions.Grounded env.types
  vars : ∀ entry ∈ state.scopes.declared, entry.2.ty.BuiltFrom env.types.Declares

/-- Whether a step keeps to declared structs, has good results only, and fails with reports only. -/
abbrev Safe (env : Env) {α : Type} (good : α → Prop) (step : Check α) : Prop :=
  Ensures (Grounded env) good Error.IsReport step

variable {env : Env}

/-- A refusal is no defect. -/
theorem safe_refuse {α : Type} (good : α → Prop) (problem : Problem) (location : Location) :
    Safe env good (Check.decide (refuse problem location)) :=
  Ensures.throw rfl

/-- Declaring a variable is safe, if its type is built from declared ones. -/
theorem safe_define {var : LocalVariable} (built : var.ty.BuiltFrom env.types.Declares) :
    Safe env (fun _ => True) (Check.define var) := by
  refine Ensures.get_bind fun state holds => ?_
  have known : ∀ scopes, state.scopes.define var = .ok scopes →
      ∀ entry ∈ scopes.declared, entry.2.ty.BuiltFrom env.types.Declares := by
    intro scopes defined entry mem
    obtain ⟨-, rfl⟩ := Scopes.define_eq_ok defined
    rcases List.mem_cons.mp mem with rfl | old
    · exact built
    · exact holds.vars entry old
  refine Ensures.bind (ensures_decide known (ErrorsIn.reports (Scopes.errorsIn_define _ trivial))) fun scopes fine => ?_
  exact Ensures.modify fun state holds => ⟨holds.functions, fine⟩

/-- A scope may always be entered. -/
theorem safe_enter : Safe env (fun _ => True) Check.enter :=
  Ensures.modify fun _ holds => ⟨holds.functions, holds.vars⟩

/-- It may be left: the variables that stay were there before. -/
theorem safe_exit : Safe env (fun _ => True) Check.exit := by
  refine Ensures.modify fun state holds => ⟨holds.functions, fun entry mem => holds.vars entry ?_⟩
  have left : entry ∈ state.scopes.exit.declared := mem
  unfold Scopes.exit at left
  split at left
  · exact left
  · exact List.mem_of_mem_filter left

/-- A return may always be noted. -/
theorem safe_noteReturn (ty : Ty) (location : Location) : Safe env (fun _ => True) (noteReturn ty location) :=
  Ensures.modify fun _ holds => ⟨holds.functions, holds.vars⟩

/-- A variable that is found has a type built from declared ones. -/
theorem safe_variableType (ident : Ident) :
    Safe env (·.BuiltFrom env.types.Declares) (variableType ident) := by
  refine Ensures.get_bind fun state holds => ?_
  dsimp only
  split
  · rename_i var found
    obtain ⟨entry, located, rfl⟩ := Option.map_eq_some_iff.mp found
    exact Ensures.pure (holds.vars entry (List.mem_of_find?_eq_some located))
  · exact safe_refuse _ _ _

/-- A call that is bound returns such a type, if its arguments have such types. -/
theorem safe_bindCall {actuals : List Ty} (built : ∀ actual ∈ actuals, actual.BuiltFrom env.types.Declares)
    (key : FunctionKey) (signature : String) (location : Location) :
    Safe env (·.returnType.BuiltFrom env.types.Declares) (bindCall env key signature actuals location) := by
  refine Ensures.get_bind fun state holds => ?_
  have known : ∀ bound, Overloading.resolve env.types.lattice state.functions key signature actuals location =
      .ok bound → bound.1.returnType.BuiltFrom env.types.Declares ∧ bound.2.Grounded env.types :=
    fun _ found => Overloading.grounded_resolve holds.functions built found
  refine Ensures.bind (ensures_decide known
    (ErrorsIn.reports (Overloading.errorsIn_resolve _ _ _ _ _ trivial))) fun bound fine => ?_
  exact Ensures.bind (Ensures.set ⟨fine.2, holds.vars⟩) fun _ _ => Ensures.pure fine.1

/-! ## Expressions -/

/-- Whether the struct of a literal, and all structs that its placeholders are bound to, have declarations. -/
def LiteralGrounded (env : Env) (literal : Literal) : Prop :=
  env.types.Declares (.struct literal.name) ∧ literal.bindings.BuiltFrom env.types.Declares

/-- The types of numbers are declared. -/
theorem builtFrom_numberType (literal : String) : (numberType literal).BuiltFrom env.types.Declares := by
  unfold numberType
  split <;> exact ⟨trivial, trivial⟩

/-- A literal is begun with a struct that is declared. -/
theorem literalGrounded_start (grounded : env.types.Grounded) {ctor : Ty} (written : ctor.isWritten = true)
    {literal : Literal} {location : Location} (started : Literal.start env ctor location = .ok literal) :
    LiteralGrounded env literal := by
  obtain ⟨found, args, resolved, bindings⟩ := Literal.start_eq_ok started
  refine ⟨⟨_, found⟩, ?_⟩
  rw [bindings]
  have built := grounded.resolveAll (Ty.allWritten_args written) resolved
  exact builtFrom_bindPairs (Ty.allBuiltFrom_iff.mp built)

/-- The values of its members bind placeholders to types that are. -/
theorem LiteralGrounded.accept {literal next : Literal} (known : LiteralGrounded env literal) {declared : Member}
    {actual : Ty} (built : actual.BuiltFrom env.types.Declares) {location : Location}
    (accepted : literal.accept env declared actual location = .ok next) : LiteralGrounded env next := by
  have bound := Literal.builtFrom_accept known.2 built accepted
  obtain ⟨-, rfl⟩ := Literal.accept_eq_ok accepted
  exact ⟨known.1, bound⟩

/-- A case has the type of a declared enum. -/
theorem builtFrom_enumCaseType {enumName : Option Ident} {case : Ident} {ty : Ty}
    (found : enumCaseType env enumName case = .ok ty) : ty.BuiltFrom env.types.Declares := by
  obtain ⟨decl, rfl, -⟩ := enumCaseType_eq_ok found
  trivial

mutual

/-- **The walk of an expression has no defect**, and finds a type whose structs have declarations. -/
theorem safe_expr (grounded : env.types.Grounded) : ∀ expr : Expr, expr.hasWrittenTypes = true →
    Safe env (fun walked => walked.1.BuiltFrom env.types.Declares) (Check.expr env expr)
  | .mk kind _ location, written => by
    rw [Check.expr]
    exact Ensures.bind (safe_exprKind grounded location kind written) fun _ built => Ensures.pure built

/-- **No kind of expression leads to a defect**, and each has a type built from declared ones. -/
theorem safe_exprKind (grounded : env.types.Grounded) (location : Location) :
    ∀ kind : ExprKind, kind.hasWrittenTypes = true →
      Safe env (fun walked => walked.1.BuiltFrom env.types.Declares) (Check.exprKind env location kind)
  | .number literal, _ => by
    rw [Check.exprKind]
    exact Ensures.pure (builtFrom_numberType literal)
  | .string _, _ => by
    rw [Check.exprKind]
    exact Ensures.pure ⟨trivial, trivial⟩
  | .boolean _, _ => by
    rw [Check.exprKind]
    exact Ensures.pure trivial
  | .nil, _ => by
    rw [Check.exprKind]
    exact Ensures.pure trivial
  | .variable ident, _ => by
    rw [Check.exprKind]
    exact Ensures.bind (safe_variableType ident) fun _ built => Ensures.pure built
  | .call callee, written => by
    rw [Check.exprKind]
    exact Ensures.bind (safe_call grounded location callee written) fun _ built => Ensures.pure built
  | .list items, written => by
    rw [Check.exprKind]
    refine Ensures.bind (safe_elements grounded none 1 (fun _ none => by cases none) items written) ?_
    intro walked built
    refine Ensures.pure ⟨trivial, ?_, trivial⟩
    cases common : walked.1 with
    | none => exact ⟨trivial, trivial⟩
    | some ty => exact built ty common
  | .tuple items, written => by
    rw [Check.exprKind]
    refine Ensures.bind (safe_exprs grounded items written) fun walked built => ?_
    exact Ensures.pure ⟨trivial, Ty.allBuiltFrom_iff.mpr built⟩
  | .object ctor members, written => by
    rw [Check.exprKind]
    simp only [ExprKind.hasWrittenTypes, Bool.and_eq_true] at written
    refine Ensures.bind (ensures_decide (fun _ => literalGrounded_start grounded written.1)
      (ErrorsIn.reports (Literal.errorsIn_start (fun _ _ => trivial) trivial))) fun literal known => ?_
    refine Ensures.bind (safe_memberValues grounded known members written.2) fun walked known => ?_
    refine Ensures.bind (ensures_decide (fun _ => Literal.builtFrom_finish known.2 known.1)
      (ErrorsIn.reports (Literal.errorsIn_finish _ trivial))) fun ty built => ?_
    exact Ensures.pure built
  | .access subject key, written => by
    rw [Check.exprKind]
    refine Ensures.bind (safe_expr grounded subject written) fun walked built => ?_
    refine Ensures.bind (ensures_decide (fun _ => builtFrom_memberType grounded.members built)
      (errorsIn_memberType built _ key)) fun ty built => ?_
    exact Ensures.pure built
  | .enumCase enumName case, _ => by
    rw [Check.exprKind]
    refine Ensures.bind (ensures_decide (fun _ => builtFrom_enumCaseType)
      (ErrorsIn.reports (errorsIn_enumCaseType trivial fun _ _ => trivial))) fun ty built => ?_
    exact Ensures.pure built

/-- Nor do calls. -/
theorem safe_call (grounded : env.types.Grounded) (location : Location) :
    ∀ callee : Call Expr, callee.hasWrittenTypes = true →
      Safe env (fun walked => walked.1.BuiltFrom env.types.Declares) (Check.call env location callee)
  | ⟨_, _, args, _⟩, written => by
    rw [Check.call]
    refine Ensures.bind (safe_exprs grounded args written) fun walked built => ?_
    exact Ensures.bind (safe_bindCall built _ _ _) fun _ built => Ensures.pure built

/-- Nor do several expressions. -/
theorem safe_exprs (grounded : env.types.Grounded) :
    ∀ exprs : List Expr, Expr.allHaveWrittenTypes exprs = true →
      Safe env (fun walked => ∀ ty ∈ walked.1, ty.BuiltFrom env.types.Declares) (Check.exprs env exprs)
  | [], _ => by
    rw [Check.exprs]
    refine Ensures.pure fun ty mem => ?_
    cases mem
  | first :: rest, written => by
    rw [Check.exprs]
    simp only [Expr.allHaveWrittenTypes, Bool.and_eq_true] at written
    refine Ensures.bind (safe_expr grounded first written.1) fun walked built => ?_
    refine Ensures.bind (safe_exprs grounded rest written.2) fun walkedRest builtRest => ?_
    refine Ensures.pure fun ty mem => ?_
    rcases List.mem_cons.mp mem with rfl | later
    · exact built
    · exact builtRest ty later

/-- Nor do the elements of a list. -/
theorem safe_elements (grounded : env.types.Grounded) (expected : Option Ty) (position : Nat)
    (known : ∀ ty, expected = some ty → ty.BuiltFrom env.types.Declares) :
    ∀ items : List Expr, Expr.allHaveWrittenTypes items = true →
      Safe env (fun walked => ∀ ty, walked.1 = some ty → ty.BuiltFrom env.types.Declares)
        (Check.elements env expected position items)
  | [], _ => by
    rw [Check.elements]
    exact Ensures.pure known
  | item :: rest, written => by
    rw [Check.elements]
    simp only [Expr.allHaveWrittenTypes, Bool.and_eq_true] at written
    refine Ensures.bind (safe_expr grounded item written.1) fun walked built => ?_
    have common : ∀ ty, commonType expected position walked.1 walked.2.location = .ok ty →
        ty.BuiltFrom env.types.Declares := by
      intro ty agreed
      unfold commonType at agreed
      split at agreed
      · cases agreed
        exact built
      · split at agreed
        · cases agreed
          exact known _ rfl
        · cases agreed
    refine Ensures.bind (ensures_decide common
      (ErrorsIn.reports (errorsIn_commonType _ _ _ trivial))) fun first built => ?_
    have knownNext : ∀ ty, some first = some ty → ty.BuiltFrom env.types.Declares := by
      intro ty same
      cases same
      exact built
    refine Ensures.bind (safe_elements grounded (some first) (position + 1) knownNext rest written.2) ?_
    exact fun _ built => Ensures.pure built

/-- Nor do the members of a literal. -/
theorem safe_memberValues (grounded : env.types.Grounded) {literal : Literal} (known : LiteralGrounded env literal) :
    ∀ members : List (MemberValue Expr), Expr.membersHaveWrittenTypes members = true →
      Safe env (fun walked => LiteralGrounded env walked.1) (Check.memberValues env literal members)
  | [], _ => by
    rw [Check.memberValues]
    exact Ensures.pure known
  | ⟨member, value⟩ :: rest, written => by
    rw [Check.memberValues]
    simp only [Expr.membersHaveWrittenTypes, Bool.and_eq_true] at written
    refine Ensures.bind (ensures_decide_any (ErrorsIn.reports (literal.errorsIn_claim trivial))) fun declared _ => ?_
    refine Ensures.bind (safe_expr grounded value written.1) fun walked built => ?_
    refine Ensures.bind (ensures_decide (fun _ => known.accept built)
      (ErrorsIn.reports (literal.errorsIn_accept declared _ trivial))) fun next known => ?_
    exact Ensures.bind (safe_memberValues grounded known rest written.2) fun _ known => Ensures.pure known

end

/-! ## Statements -/

/-- Declarations are safe where types are written. -/
theorem safe_declare (grounded : env.types.Grounded) {target : Variable}
    (written : target.declaredType.all Ty.isWritten = true) {value : Ty}
    (built : value.BuiltFrom env.types.Declares) (location : Location) :
    Safe env (fun _ => True) (declare env target value location) := by
  have known : ∀ result, declaredType env target value location = .ok result →
      result.1.BuiltFrom env.types.Declares := by
    rintro ⟨ty, declared⟩ typed
    rcases declaredType_eq_ok typed with ⟨-, rfl, -⟩ | ⟨spelled, given, resolved, -⟩
    · exact built
    · rw [given] at written
      exact grounded.resolve written resolved
  have defines : ∀ found : Ty × Variable, found.1.BuiltFrom env.types.Declares → Safe env (fun _ => True)
      (define ⟨found.2.name.name, found.1, found.2.mutable, found.2.name.location⟩ >>= fun _ => pure found.2) :=
    fun found built => Ensures.bind (safe_define built) fun _ _ => Ensures.pure trivial
  have typed : Safe env (fun result => result.1.BuiltFrom env.types.Declares)
      (Check.decide (declaredType env target value location)) :=
    ensures_decide known (ErrorsIn.reports (errorsIn_declaredType value (fun _ _ => trivial) trivial))
  unfold declare
  split
  · exact Ensures.bind (safe_refuse (fun _ => True) _ _) fun _ _ => Ensures.bind typed defines
  · exact Ensures.bind typed defines

/-- Reassignments are safe. -/
theorem safe_rebind (target : Variable) (value : Ty) (location : Location) :
    Safe env (fun _ => True) (rebind env target value location) := by
  refine Ensures.get_bind fun state holds => ?_
  refine Ensures.bind (ensures_decide_any (ErrorsIn.reports (errorsIn_rebindable _ _ trivial trivial))) fun _ _ => ?_
  exact Ensures.pure trivial

/-- So is either kind of assignment. -/
theorem safe_assignment (grounded : env.types.Grounded) {assigned : Assignment}
    (written : assigned.hasWrittenTypes = true) : Safe env (fun _ => True) (Check.assignment env assigned) := by
  simp only [Assignment.hasWrittenTypes, Bool.and_eq_true, Bool.or_eq_true, Bool.not_eq_true'] at written
  unfold Check.assignment
  refine Ensures.bind (safe_expr grounded assigned.value written.1) fun walked built => ?_
  dsimp only
  split
  · rename_i introduces
    have spelled : assigned.target.declaredType.all Ty.isWritten = true := by
      rcases written.2 with rebinds | spelled
      · rw [rebinds] at introduces
        cases introduces
      · exact spelled
    exact Ensures.bind (safe_declare grounded spelled built _) fun _ _ => Ensures.pure trivial
  · exact Ensures.bind (safe_rebind _ _ _) fun _ _ => Ensures.pure trivial

/-- So are guards. -/
theorem safe_guard (grounded : env.types.Grounded) {tests : List GuardTerm}
    (written : GuardTerm.allHaveWrittenTypes tests = true) : Safe env (fun _ => True) (guard env tests) := by
  induction tests with
  | nil => exact Ensures.pure trivial
  | cons term rest ih =>
    simp only [GuardTerm.allHaveWrittenTypes, List.all_cons, Bool.and_eq_true] at written
    rw [guard]
    refine Ensures.bind (safe_expr grounded term.test written.1) fun _ _ => ?_
    exact Ensures.bind (ih written.2) fun _ _ => Ensures.pure trivial

/-- The elements of an iterable have a type built from declared ones. -/
theorem builtFrom_elementType {iterable element : Ty} {location : Location}
    (built : iterable.BuiltFrom env.types.Declares) (iterates : elementType iterable location = .ok element) :
    element.BuiltFrom env.types.Declares := by
  obtain ⟨args, nullable, rfl, rfl⟩ := elementType_eq_ok iterates
  cases args with
  | nil => exact ⟨trivial, trivial⟩
  | cons first rest => exact built.2.1

mutual

/-- **The walk of a statement has no defect.** -/
theorem safe_stmt (grounded : env.types.Grounded) : ∀ stmt : Stmt, stmt.hasWrittenTypes = true →
    Safe env (fun _ => True) (Check.stmt env stmt)
  | .assignment assigned, written => by
    rw [Check.stmt]
    exact Ensures.bind (safe_assignment grounded written) fun _ _ => Ensures.pure trivial
  | .returns none location, _ => by
    rw [Check.stmt]
    exact Ensures.bind (safe_noteReturn _ _) fun _ _ => Ensures.pure trivial
  | .returns (some value) location, written => by
    rw [Check.stmt]
    refine Ensures.bind (safe_expr grounded value written) fun _ _ => ?_
    exact Ensures.bind (safe_noteReturn _ _) fun _ _ => Ensures.pure trivial
  | .call callee location, written => by
    rw [Check.stmt]
    refine Ensures.bind (safe_call grounded location callee written) fun walked _ => ?_
    dsimp only
    split
    · exact Ensures.bind (safe_refuse (fun _ => True) _ _) fun _ _ => Ensures.pure trivial
    · exact Ensures.pure trivial
  | .branch choice, written => by
    rw [Check.stmt]
    exact Ensures.bind (safe_branch grounded choice written) fun _ _ => Ensures.pure trivial
  | .forEach iterator iterable body location, written => by
    rw [Check.stmt]
    simp only [Stmt.hasWrittenTypes, Bool.and_eq_true] at written
    refine Ensures.bind (safe_expr grounded iterable written.1) fun walked built => ?_
    refine Ensures.bind (ensures_decide (fun _ => builtFrom_elementType built)
      (ErrorsIn.reports (errorsIn_elementType walked.1 trivial))) fun element built => ?_
    refine Ensures.bind safe_enter fun _ _ => ?_
    refine Ensures.bind (safe_define built) fun _ _ => ?_
    refine Ensures.bind (safe_block grounded body written.2) fun _ _ => ?_
    exact Ensures.bind safe_exit fun _ _ => Ensures.pure trivial
  | .whileTrue tests body location, written => by
    rw [Check.stmt]
    simp only [Stmt.hasWrittenTypes, Bool.and_eq_true] at written
    refine Ensures.bind (safe_guard grounded written.1) fun _ _ => ?_
    refine Ensures.bind safe_enter fun _ _ => ?_
    refine Ensures.bind (safe_block grounded body written.2) fun _ _ => ?_
    exact Ensures.bind safe_exit fun _ _ => Ensures.pure trivial
  | .pass location, _ => by
    rw [Check.stmt]
    exact Ensures.pure trivial
  | .hostCode code location, _ => by
    rw [Check.stmt]
    exact Ensures.pure trivial

/-- **Blocks are safe.** -/
theorem safe_block (grounded : env.types.Grounded) : ∀ stmts : List Stmt, Stmt.allHaveWrittenTypes stmts = true →
    Safe env (fun _ => True) (Check.block env stmts)
  | [], _ => by
    rw [Check.block]
    exact Ensures.pure trivial
  | first :: rest, written => by
    rw [Check.block]
    simp only [Stmt.allHaveWrittenTypes, Bool.and_eq_true] at written
    refine Ensures.bind (safe_stmt grounded first written.1) fun _ _ => ?_
    exact Ensures.bind (safe_block grounded rest written.2) fun _ _ => Ensures.pure trivial

/-- So are branches. -/
theorem safe_branch (grounded : env.types.Grounded) : ∀ choice : Branch, choice.hasWrittenTypes = true →
    Safe env (fun _ => True) (Check.branch env choice)
  | .mk tests body none location, written => by
    rw [Check.branch]
    simp only [Branch.hasWrittenTypes, Bool.and_eq_true] at written
    refine Ensures.bind (safe_guard grounded written.1) fun _ _ => ?_
    refine Ensures.bind safe_enter fun _ _ => ?_
    refine Ensures.bind (safe_block grounded body written.2) fun _ _ => ?_
    exact Ensures.bind safe_exit fun _ _ => Ensures.pure trivial
  | .mk tests body (some otherwise) location, written => by
    rw [Check.branch]
    simp only [Branch.hasWrittenTypes, Bool.and_eq_true] at written
    refine Ensures.bind (safe_guard grounded written.1.1) fun _ _ => ?_
    refine Ensures.bind safe_enter fun _ _ => ?_
    refine Ensures.bind (safe_block grounded body written.1.2) fun _ _ => ?_
    refine Ensures.bind safe_exit fun _ _ => ?_
    exact Ensures.bind (safe_branch grounded otherwise written.2) fun _ _ => Ensures.pure trivial

end

end Check

end DeclCheck
