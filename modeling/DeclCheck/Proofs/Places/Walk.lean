import DeclCheck.Proofs.Places.Decisions

/-!
# Where walks refuse

The walk of a tree refuses it at one of its places. What carries the induction is that the walk leaves every expression
at its place, since decisions about an expression are taken after it was walked, and that the places of the noted
returns are places of the tree.
-/

namespace DeclCheck

namespace Check

variable {there : Location → Prop} {env : Env} {α : Type}

/-- Whether every return was noted at a place with a property. -/
def NotedWhere (there : Location → Prop) (state : BodyState) : Prop := ∀ entry ∈ state.returns, there entry.2

/-- **Whether a step notes returns and refuses at places with a property**, and has good results only. -/
abbrev Placed (there : Location → Prop) (good : α → Prop) (step : Check α) : Prop :=
  Ensures (NotedWhere there) good (Error.PlacedWhere there) step

/-! ## Steps -/

/-- A refusal is placed where it is said to be. -/
theorem placed_refuse {good : α → Prop} (problem : Problem) {location : Location} (here : there location) :
    Placed there good (Check.decide (refuse problem location)) :=
  Ensures.throw here

/-- A decision places its errors where it finds them. -/
theorem placed_decide {outcome : Except Error α} (errors : ErrorsIn (Error.FoundWhere there) outcome) :
    Placed there (fun _ => True) (Check.decide outcome) :=
  ensures_decide_any errors.placed

/-- A variable is refused where it is declared. -/
theorem placed_define {var : LocalVariable} (here : there var.location) :
    Placed there (fun _ => True) (Check.define var) := by
  refine Ensures.get_bind fun state _ => ?_
  refine Ensures.bind (placed_decide (Scopes.errorsIn_define _ here)) fun scopes _ => ?_
  exact Ensures.modify fun _ noted => noted

theorem placed_enter : Placed there (fun _ => True) Check.enter := Ensures.modify fun _ noted => noted

theorem placed_exit : Placed there (fun _ => True) Check.exit := Ensures.modify fun _ noted => noted

/-- A return is noted where it stands. -/
theorem placed_noteReturn (ty : Ty) {location : Location} (here : there location) :
    Placed there (fun _ => True) (noteReturn ty location) := by
  refine Ensures.modify fun state noted entry mem => ?_
  rcases List.mem_append.mp mem with old | new
  · exact noted entry old
  · obtain rfl := List.mem_singleton.mp new
    exact here

/-- An unknown variable is reported at its name. -/
theorem placed_variableType {ident : Ident} (here : there ident.location) :
    Placed there (fun _ => True) (variableType ident) := by
  refine Ensures.get_bind fun state _ => ?_
  dsimp only
  split
  · exact Ensures.pure trivial
  · exact placed_refuse _ here

/-- A call that cannot be bound is reported where it stands. -/
theorem placed_bindCall (key : FunctionKey) (signature : String) (actuals : List Ty) {location : Location}
    (here : there location) : Placed there (fun _ => True) (bindCall env key signature actuals location) := by
  refine Ensures.get_bind fun state noted => ?_
  refine Ensures.bind (placed_decide (Overloading.errorsIn_resolve _ _ _ _ _ here)) fun bound _ => ?_
  exact Ensures.bind (Ensures.set noted) fun _ _ => Ensures.pure trivial

/-! ## Expressions -/

/-- Whether the places with a property are places of some source text. -/
def Real (there : Location → Prop) : Prop := ∀ place, there place → place.isNowhere = false

/-- A place that is real is taken before any other. -/
theorem Real.orElse (real : Real there) {location : Location} (here : there location) (fallback : Location) :
    there (location.orElse fallback) := by
  unfold Location.orElse
  rw [if_neg (Bool.eq_false_iff.mp (real location here))]
  exact here

mutual

/-- **The walk of an expression refuses it at one of its places**, and leaves it where it stands. -/
theorem placed_expr (real : Real there) : ∀ expr : Expr, (∀ place ∈ expr.places, there place) →
    Placed there (fun walked => there walked.2.location) (Check.expr env expr)
  | .mk kind _ location, spelled => by
    simp only [Expr.places, List.forall_mem_cons] at spelled
    rw [Check.expr]
    exact Ensures.bind (placed_exprKind real spelled.1 kind spelled.2) fun _ _ => Ensures.pure spelled.1

/-- **Errors in an expression are placed in it**, whatever its kind. -/
theorem placed_exprKind (real : Real there) {location : Location} (here : there location) :
    ∀ kind : ExprKind, (∀ place ∈ kind.places, there place) →
      Placed there (fun _ => True) (Check.exprKind env location kind)
  | .number _, _ => by rw [Check.exprKind]; exact Ensures.pure trivial
  | .string _, _ => by rw [Check.exprKind]; exact Ensures.pure trivial
  | .boolean _, _ => by rw [Check.exprKind]; exact Ensures.pure trivial
  | .nil, _ => by rw [Check.exprKind]; exact Ensures.pure trivial
  | .variable ident, spelled => by
    rw [Check.exprKind]
    have named := spelled ident.location List.mem_cons_self
    exact Ensures.bind (placed_variableType named) fun _ _ => Ensures.pure trivial
  | .call callee, spelled => by
    rw [Check.exprKind]
    exact Ensures.bind (placed_call real here callee spelled) fun _ _ => Ensures.pure trivial
  | .list items, spelled => by
    rw [Check.exprKind]
    exact Ensures.bind (placed_elements real none 1 items spelled) fun _ _ => Ensures.pure trivial
  | .tuple items, spelled => by
    rw [Check.exprKind]
    exact Ensures.bind (placed_exprs real items spelled) fun _ _ => Ensures.pure trivial
  | .object ctor members, spelled => by
    simp only [ExprKind.places, List.forall_mem_append] at spelled
    rw [Check.exprKind]
    refine Ensures.bind (placed_decide (Literal.errorsIn_start spelled.1 here)) fun literal _ => ?_
    refine Ensures.bind (placed_memberValues real literal members spelled.2) fun walked _ => ?_
    exact Ensures.bind (placed_decide (walked.1.errorsIn_finish here)) fun _ _ => Ensures.pure trivial
  | .access subject key, spelled => by
    simp only [ExprKind.places, List.forall_mem_cons] at spelled
    rw [Check.exprKind]
    refine Ensures.bind (placed_expr real subject spelled.2) fun walked stands => ?_
    refine Ensures.bind (ensures_decide_any (errorsIn_memberType_placed _ stands spelled.1)) fun _ _ => ?_
    exact Ensures.pure trivial
  | .enumCase none case, spelled => by
    rw [Check.exprKind]
    have named := spelled case.location List.mem_cons_self
    refine Ensures.bind (placed_decide (errorsIn_enumCaseType named fun _ same => ?_)) fun _ _ => ?_
    · cases same
    · exact Ensures.pure trivial
  | .enumCase (some enumName) case, spelled => by
    simp only [ExprKind.places, List.forall_mem_cons] at spelled
    rw [Check.exprKind]
    refine Ensures.bind (placed_decide (errorsIn_enumCaseType spelled.2.1 fun name same => ?_)) fun _ _ => ?_
    · cases same
      exact spelled.1
    · exact Ensures.pure trivial

/-- Errors in a call are placed at its arguments or at the call. -/
theorem placed_call (real : Real there) {location : Location} (here : there location) :
    ∀ callee : Call Expr, (∀ place ∈ callee.places, there place) →
      Placed there (fun _ => True) (Check.call env location callee)
  | ⟨signature, _, args, _⟩, spelled => by
    simp only [Call.places, List.forall_mem_append] at spelled
    rw [Check.call]
    refine Ensures.bind (placed_exprs real args spelled.2) fun walked _ => ?_
    have stands := real.orElse here signature.location
    exact Ensures.bind (placed_bindCall _ _ _ stands) fun _ _ => Ensures.pure trivial

/-- Errors in several expressions are placed in one of them. -/
theorem placed_exprs (real : Real there) : ∀ exprs : List Expr, (∀ place ∈ Expr.allPlaces exprs, there place) →
    Placed there (fun _ => True) (Check.exprs env exprs)
  | [], _ => by rw [Check.exprs]; exact Ensures.pure trivial
  | first :: rest, spelled => by
    simp only [Expr.allPlaces, List.forall_mem_append] at spelled
    rw [Check.exprs]
    refine Ensures.bind (placed_expr real first spelled.1) fun _ _ => ?_
    exact Ensures.bind (placed_exprs real rest spelled.2) fun _ _ => Ensures.pure trivial

/-- The same for the elements of a list. -/
theorem placed_elements (real : Real there) (expected : Option Ty) (position : Nat) :
    ∀ items : List Expr, (∀ place ∈ Expr.allPlaces items, there place) →
      Placed there (fun _ => True) (Check.elements env expected position items)
  | [], _ => by rw [Check.elements]; exact Ensures.pure trivial
  | item :: rest, spelled => by
    simp only [Expr.allPlaces, List.forall_mem_append] at spelled
    rw [Check.elements]
    refine Ensures.bind (placed_expr real item spelled.1) fun walked stands => ?_
    refine Ensures.bind (placed_decide (errorsIn_commonType _ _ _ stands)) fun first _ => ?_
    refine Ensures.bind (placed_elements real (some first) (position + 1) rest spelled.2) fun _ _ => ?_
    exact Ensures.pure trivial

/-- The same for the members of a literal. -/
theorem placed_memberValues (real : Real there) (literal : Literal) :
    ∀ members : List (MemberValue Expr), (∀ place ∈ Expr.memberPlaces members, there place) →
      Placed there (fun _ => True) (Check.memberValues env literal members)
  | [], _ => by rw [Check.memberValues]; exact Ensures.pure trivial
  | ⟨member, value⟩ :: rest, spelled => by
    simp only [Expr.memberPlaces, List.cons_append, List.forall_mem_cons, List.forall_mem_append] at spelled
    obtain ⟨named, given, others⟩ := spelled
    rw [Check.memberValues]
    refine Ensures.bind (placed_decide (literal.errorsIn_claim named)) fun declared _ => ?_
    refine Ensures.bind (placed_expr real value given) fun walked stands => ?_
    refine Ensures.bind (placed_decide (literal.errorsIn_accept declared _ stands)) fun next _ => ?_
    exact Ensures.bind (placed_memberValues real next rest others) fun _ _ => Ensures.pure trivial

end

/-! ## Statements -/

/-- Errors in a declaration are placed at its type, at its name or at its value. -/
theorem placed_declare {target : Variable} (spelled : ∀ place ∈ target.places, there place) (value : Ty)
    {location : Location} (here : there location) :
    Placed there (fun _ => True) (declare env target value location) := by
  simp only [Variable.places, List.forall_mem_cons] at spelled
  have named : ∀ result, declaredType env target value location = .ok result →
      there result.2.name.location := by
    rintro ⟨ty, declared⟩ typed
    rcases declaredType_eq_ok typed with ⟨-, -, rfl⟩ | ⟨_, -, -, -, rfl⟩ <;> exact spelled.1
  have typed : Placed there (fun result => there result.2.name.location)
      (Check.decide (declaredType env target value location)) :=
    ensures_decide named (errorsIn_declaredType value spelled.2 here).placed
  have defines : ∀ found : Ty × Variable, there found.2.name.location → Placed there (fun _ => True)
      (define ⟨found.2.name.name, found.1, found.2.mutable, found.2.name.location⟩ >>= fun _ => pure found.2) :=
    fun _ named => Ensures.bind (placed_define named) fun _ _ => Ensures.pure trivial
  unfold declare
  split
  · exact Ensures.bind (placed_decide (errorsIn_refuse _ here)) fun _ _ => Ensures.bind typed defines
  · exact Ensures.bind typed defines

/-- Errors in a reassignment are placed at its target or at its value. -/
theorem placed_rebind {target : Variable} (named : there target.name.location) (value : Ty) {location : Location}
    (here : there location) : Placed there (fun _ => True) (rebind env target value location) := by
  refine Ensures.get_bind fun state _ => ?_
  exact Ensures.bind (placed_decide (errorsIn_rebindable _ _ named here)) fun _ _ => Ensures.pure trivial

/-- So errors in either kind of assignment are placed in it. -/
theorem placed_assignment (real : Real there) {assigned : Assignment}
    (spelled : ∀ place ∈ assigned.places, there place) :
    Placed there (fun _ => True) (Check.assignment env assigned) := by
  simp only [Assignment.places, List.cons_append, List.forall_mem_cons, List.forall_mem_append] at spelled
  obtain ⟨-, target, value⟩ := spelled
  unfold Check.assignment
  refine Ensures.bind (placed_expr real assigned.value value) fun walked stands => ?_
  dsimp only
  split
  · exact Ensures.bind (placed_declare target _ stands) fun _ _ => Ensures.pure trivial
  · exact Ensures.bind (placed_rebind (target _ List.mem_cons_self) _ stands) fun _ _ => Ensures.pure trivial

/-- Errors in a guard are placed in one of its tests. -/
theorem placed_guard (real : Real there) {tests : List GuardTerm}
    (spelled : ∀ place ∈ GuardTerm.allPlaces tests, there place) : Placed there (fun _ => True) (guard env tests) := by
  induction tests with
  | nil => exact Ensures.pure trivial
  | cons term rest ih =>
    simp only [GuardTerm.allPlaces, List.flatMap_cons, List.forall_mem_append] at spelled
    rw [guard]
    refine Ensures.bind (placed_expr real term.test spelled.1) fun _ _ => ?_
    exact Ensures.bind (ih spelled.2) fun _ _ => Ensures.pure trivial

mutual

/-- **The walk of a statement refuses it at one of its places.** -/
theorem placed_stmt (real : Real there) : ∀ stmt : Stmt, (∀ place ∈ stmt.places, there place) →
    Placed there (fun _ => True) (Check.stmt env stmt)
  | .assignment assigned, spelled => by
    rw [Check.stmt]
    exact Ensures.bind (placed_assignment real spelled) fun _ _ => Ensures.pure trivial
  | .returns none location, spelled => by
    rw [Check.stmt]
    exact Ensures.bind (placed_noteReturn _ (spelled location List.mem_cons_self)) fun _ _ => Ensures.pure trivial
  | .returns (some value) location, spelled => by
    simp only [Stmt.places, List.forall_mem_cons] at spelled
    rw [Check.stmt]
    refine Ensures.bind (placed_expr real value spelled.2) fun _ _ => ?_
    exact Ensures.bind (placed_noteReturn _ spelled.1) fun _ _ => Ensures.pure trivial
  | .call callee location, spelled => by
    simp only [Stmt.places, List.forall_mem_cons] at spelled
    rw [Check.stmt]
    refine Ensures.bind (placed_call real spelled.1 callee spelled.2) fun walked _ => ?_
    dsimp only
    split
    · exact Ensures.bind (placed_decide (errorsIn_refuse _ spelled.1)) fun _ _ => Ensures.pure trivial
    · exact Ensures.pure trivial
  | .branch choice, spelled => by
    rw [Check.stmt]
    exact Ensures.bind (placed_branch real choice spelled) fun _ _ => Ensures.pure trivial
  | .forEach iterator iterable body location, spelled => by
    simp only [Stmt.places, List.cons_append, List.forall_mem_cons, List.forall_mem_append] at spelled
    obtain ⟨-, ⟨named, ranged⟩, inside⟩ := spelled
    rw [Check.stmt]
    refine Ensures.bind (placed_expr real iterable ranged) fun walked stands => ?_
    refine Ensures.bind (placed_decide (errorsIn_elementType walked.1 stands)) fun element _ => ?_
    refine Ensures.bind placed_enter fun _ _ => ?_
    refine Ensures.bind (placed_define (named _ List.mem_cons_self)) fun _ _ => ?_
    refine Ensures.bind (placed_block real body inside) fun _ _ => ?_
    exact Ensures.bind placed_exit fun _ _ => Ensures.pure trivial
  | .whileTrue tests body location, spelled => by
    simp only [Stmt.places, List.cons_append, List.forall_mem_cons, List.forall_mem_append] at spelled
    obtain ⟨-, tested, inside⟩ := spelled
    rw [Check.stmt]
    refine Ensures.bind (placed_guard real tested) fun _ _ => ?_
    refine Ensures.bind placed_enter fun _ _ => ?_
    refine Ensures.bind (placed_block real body inside) fun _ _ => ?_
    exact Ensures.bind placed_exit fun _ _ => Ensures.pure trivial
  | .pass _, _ => by rw [Check.stmt]; exact Ensures.pure trivial
  | .hostCode _ _, _ => by rw [Check.stmt]; exact Ensures.pure trivial

/-- **Errors in a block are placed in one of its statements.** -/
theorem placed_block (real : Real there) : ∀ stmts : List Stmt, (∀ place ∈ Stmt.allPlaces stmts, there place) →
    Placed there (fun _ => True) (Check.block env stmts)
  | [], _ => by rw [Check.block]; exact Ensures.pure trivial
  | first :: rest, spelled => by
    simp only [Stmt.allPlaces, List.forall_mem_append] at spelled
    rw [Check.block]
    refine Ensures.bind (placed_stmt real first spelled.1) fun _ _ => ?_
    exact Ensures.bind (placed_block real rest spelled.2) fun _ _ => Ensures.pure trivial

/-- Errors in a branch are placed in it, or in what is tried otherwise. -/
theorem placed_branch (real : Real there) : ∀ choice : Branch, (∀ place ∈ choice.places, there place) →
    Placed there (fun _ => True) (Check.branch env choice)
  | .mk tests body none location, spelled => by
    simp only [Branch.places, List.cons_append, List.forall_mem_cons, List.forall_mem_append] at spelled
    obtain ⟨-, tested, inside⟩ := spelled
    rw [Check.branch]
    refine Ensures.bind (placed_guard real tested) fun _ _ => ?_
    refine Ensures.bind placed_enter fun _ _ => ?_
    refine Ensures.bind (placed_block real body inside) fun _ _ => ?_
    exact Ensures.bind placed_exit fun _ _ => Ensures.pure trivial
  | .mk tests body (some otherwise) location, spelled => by
    simp only [Branch.places, List.cons_append, List.forall_mem_cons, List.forall_mem_append] at spelled
    obtain ⟨-, ⟨tested, inside⟩, after⟩ := spelled
    rw [Check.branch]
    refine Ensures.bind (placed_guard real tested) fun _ _ => ?_
    refine Ensures.bind placed_enter fun _ _ => ?_
    refine Ensures.bind (placed_block real body inside) fun _ _ => ?_
    refine Ensures.bind placed_exit fun _ _ => ?_
    exact Ensures.bind (placed_branch real otherwise after) fun _ _ => Ensures.pure trivial

end

end Check

end DeclCheck
