import DeclCheck.Proofs.Annotation.Slots
import DeclCheck.Proofs.Ty.Resolved
import DeclCheck.Proofs.Walk.Stmt
import DeclCheck.Proofs.Walk.Types

/-!
# Walks fill all slots

From tables in which all types are resolved, a walk finds resolved types only, notes one at every place,
and leaves a function table in which all types are resolved. A specialisation could bring back a written
name only from the arguments of its call, and these are resolved because they were walked before.
-/

namespace DeclCheck

/-- Whether all overloads are of resolved types. -/
def FunctionTable.Resolved (functions : FunctionTable) : Prop :=
  functions.Every fun _ decl => decl.overload.isResolved = true

/-- Whether all structs have members of resolved types. -/
def TypeTable.Resolved (types : TypeTable) : Prop :=
  ∀ ⦃name : String⦄ ⦃decl : StructDecl⦄, types.structs.find? name = some decl →
    decl.hasResolvedMembers = true

/-- Whether all visible variables are of resolved types. -/
def LocalVariable.AllResolved (visible : List LocalVariable) : Prop :=
  ∀ var ∈ visible, var.ty.isResolved = true

/-! ## Overloads -/

namespace Overloading

/-- Arguments of resolved types bind placeholders to resolved types. -/
theorem resolved_bindings (decl : FunctionDecl) {actuals : List Ty}
    (resolved : Ty.allResolved actuals = true) : Bindings.Resolved (bindings decl actuals) :=
  Bindings.resolved_iff.mpr
    (builtFrom_bindings decl (Ty.allBuiltFrom_iff.mp (Ty.allResolved_iff_builtFrom.mp resolved)))

/-- A specialisation to resolved arguments is of resolved types if the candidate is. -/
theorem resolved_specialise {lattice : Lattice} {candidate decl : FunctionDecl} {actuals : List Ty}
    (resolved : Ty.allResolved actuals = true) (known : candidate.overload.isResolved = true)
    (special : specialise lattice candidate actuals = .ok decl) : decl.overload.isResolved = true := by
  have bound := resolved_bindings candidate resolved
  simp only [FunctionDecl.overload, Overload.isResolved, Bool.and_eq_true] at known ⊢
  rw [specialise_eq_ok special]
  refine ⟨Ty.allResolved_iff.mpr fun ty mem => ?_, Ty.isResolved_substitute bound _ known.2⟩
  simp only [substituted, FunctionDecl.paramTypes, List.map_map, List.mem_map] at mem
  obtain ⟨param, listed, rfl⟩ := mem
  refine Ty.isResolved_substitute bound _ (Ty.allResolved_iff.mp known.1 _ ?_)
  exact List.mem_map.mpr ⟨param, listed, rfl⟩

/-- **A call with resolved arguments is bound to an overload of resolved types**, and keeps all overloads
of the table so. -/
theorem resolved_resolve {lattice : Lattice} {functions after : FunctionTable} {key : FunctionKey}
    {signature : String} {actuals : List Ty} {location : Location} {decl : FunctionDecl}
    (known : functions.Resolved) (resolved : Ty.allResolved actuals = true)
    (bound : resolve lattice functions key signature actuals location = .ok (decl, after)) :
    decl.overload.isResolved = true ∧ after.Resolved := by
  refine ⟨?_, every_resolve known (fun _ _ => resolved_specialise resolved) bound⟩
  rcases resolve_listed_or_specialised bound with ⟨listed, -⟩ | ⟨candidate, listed, -, special, -⟩
  · exact known.of_mem listed
  · exact resolved_specialise resolved (known.of_mem listed) special

end Overloading

/-! ## Struct literals and members -/

/-- So do written arguments that are resolved. -/
theorem resolved_bindPairs {names : List String} {args : List Ty}
    (resolved : Ty.allResolved args = true) : Bindings.Resolved (bindPairs (names.zip args)) :=
  Bindings.resolved_iff.mpr
    (builtFrom_bindPairs (Ty.allBuiltFrom_iff.mp (Ty.allResolved_iff_builtFrom.mp resolved)))

namespace Literal

/-- Whether the struct of a literal and what its placeholders are bound to are resolved. -/
def Resolved (literal : Literal) : Prop :=
  literal.decl.hasResolvedMembers = true ∧ literal.bindings.Resolved

variable {env : Env} {literal next : Literal} {location : Location} {ty : Ty}

/-- A literal begins with a struct whose members are resolved. -/
theorem resolved_start (types : env.types.Resolved) {ctor : Ty}
    (started : start env ctor location = .ok literal) : literal.Resolved := by
  obtain ⟨found, args, resolved, bindings⟩ := start_eq_ok started
  refine ⟨types found, ?_⟩
  rw [bindings]
  exact resolved_bindPairs (TypeTable.allResolved_of_resolveAll _ resolved)

/-- Values of resolved types keep it so. -/
theorem Resolved.accept (known : literal.Resolved) {declared : Member} {actual : Ty}
    (resolved : actual.isResolved = true)
    (accepted : literal.accept env declared actual location = .ok next) : next.Resolved := by
  have bound := builtFrom_accept (Bindings.resolved_iff.mp known.2) (Ty.isResolved_iff.mp resolved) accepted
  obtain ⟨-, rfl⟩ := accept_eq_ok accepted
  exact ⟨known.1, Bindings.resolved_iff.mpr bound⟩

/-- So it has a resolved type. -/
theorem Resolved.finish (known : literal.Resolved) (finished : literal.finish location = .ok ty) :
    ty.isResolved = true :=
  Ty.isResolved_iff.mpr (builtFrom_finish (Bindings.resolved_iff.mp known.2) rfl finished)

end Literal

/-- **A member of a resolved type has one.** -/
theorem resolved_memberType {env : Env} {subject ty : Ty} {location : Location} {key : Ident}
    (types : env.types.Resolved) (resolved : subject.isResolved = true)
    (found : memberType env subject location key = .ok ty) : ty.isResolved = true := by
  refine Ty.isResolved_iff.mpr (builtFrom_memberType ?_ (Ty.isResolved_iff.mp resolved) found)
  intro name decl member listed mem
  exact Ty.isResolved_iff.mp (List.all_eq_true.mp (types listed) member mem)

/-- The types of numbers are resolved. -/
theorem isResolved_numberType (literal : String) : (numberType literal).isResolved = true := by
  unfold numberType
  split <;> rfl

/-! ## Expressions -/

section

variable {env : Env} {visible : List LocalVariable}

/-- The type that elements have in common is resolved, if theirs are. -/
theorem resolved_commonType {expected : Option Ty} {actual common : Ty} {position : Nat}
    {location : Location} (known : ∀ first, expected = some first → first.isResolved = true)
    (resolved : actual.isResolved = true)
    (agreed : Check.commonType expected position actual location = .ok common) :
    common.isResolved = true := by
  cases expected with
  | none => cases agreed; exact resolved
  | some first =>
    simp only [Check.commonType] at agreed
    split at agreed
    · cases agreed; exact known _ rfl
    · cases agreed

mutual

/-- **The walk of an expression finds a resolved type and annotates all of it.** -/
theorem ExprWalk.annotated (types : env.types.Resolved) (seen : LocalVariable.AllResolved visible)
    {before after : FunctionTable} {expr filled : Expr} {ty : Ty} :
    ExprWalk env visible before expr ty filled after → before.Resolved →
    ty.isResolved = true ∧ filled.isAnnotated = true ∧ after.Resolved
  | .mk walked, known => by
    obtain ⟨resolved, annotated, kept⟩ := walked.annotated types seen known
    refine ⟨resolved, ?_, kept⟩
    simp only [Expr.isAnnotated, Option.any_some, resolved, annotated, Bool.and_self]

/-- Each kind of expression has a resolved type and is filled. -/
theorem KindWalk.annotated (types : env.types.Resolved) (seen : LocalVariable.AllResolved visible)
    {before after : FunctionTable} {location : Location} {kind filled : ExprKind} {ty : Ty} :
    KindWalk env visible before location kind ty filled after → before.Resolved →
    ty.isResolved = true ∧ filled.isAnnotated = true ∧ after.Resolved
  | .number, known => ⟨isResolved_numberType _, rfl, known⟩
  | .string, known => ⟨rfl, rfl, known⟩
  | .boolean, known => ⟨rfl, rfl, known⟩
  | .nil, known => ⟨rfl, rfl, known⟩
  | .variable found, known => ⟨seen _ (List.mem_of_find?_eq_some found), rfl, known⟩
  | .call walked, known => walked.annotated types seen known
  | .list walked, known => by
    obtain ⟨resolved, annotated, kept⟩ := walked.annotated types seen known fun _ none => by cases none
    refine ⟨?_, annotated, kept⟩
    rename_i common
    cases common with
    | none => rfl
    | some first =>
      simp only [Ty.list, Ty.isResolved, Ctor.isResolved, Ty.allResolved, Option.getD_some,
        resolved first rfl, Bool.and_self]
  | .tuple walked, known => by
    obtain ⟨resolved, annotated, kept⟩ := walked.annotated types seen known
    refine ⟨?_, annotated, kept⟩
    simp only [Ty.tuple, Ty.isResolved, Ctor.isResolved, resolved, Bool.and_self]
  | .object started walked finished, known => by
    obtain ⟨literal, annotated, kept⟩ :=
      walked.annotated types seen known (Literal.resolved_start types started)
    have resolved := literal.finish finished
    refine ⟨resolved, ?_, kept⟩
    simp only [ExprKind.isAnnotated, resolved, annotated, Bool.and_self]
  | .access walked found, known => by
    obtain ⟨resolved, annotated, kept⟩ := walked.annotated types seen known
    exact ⟨resolved_memberType types resolved found, annotated, kept⟩
  | .enumCase found, known => by
    obtain ⟨decl, rfl, -⟩ := enumCaseType_eq_ok found
    exact ⟨rfl, rfl, known⟩

/-- A call is bound to an overload, and has a resolved type. -/
theorem CallWalk.annotated (types : env.types.Resolved) (seen : LocalVariable.AllResolved visible)
    {before after : FunctionTable} {location : Location} {callee filled : Call Expr} {ty : Ty} :
    CallWalk env visible before location callee ty filled after → before.Resolved →
    ty.isResolved = true ∧ filled.isAnnotated = true ∧ after.Resolved
  | .mk walked bound, known => by
    obtain ⟨resolved, annotated, between⟩ := walked.annotated types seen known
    obtain ⟨overload, kept⟩ := Overloading.resolved_resolve between resolved bound
    have parts := overload
    simp only [FunctionDecl.overload, Overload.isResolved, Bool.and_eq_true] at parts
    refine ⟨parts.2, ?_, kept⟩
    simp only [Call.isAnnotated, Option.any_some, annotated, Bool.and_true]
    exact overload

/-- Several expressions are filled. -/
theorem ExprsWalk.annotated (types : env.types.Resolved) (seen : LocalVariable.AllResolved visible)
    {before after : FunctionTable} {exprs filled : List Expr} {found : List Ty} :
    ExprsWalk env visible before exprs found filled after → before.Resolved →
    Ty.allResolved found = true ∧ Expr.allAnnotated filled = true ∧ after.Resolved
  | .nil, known => ⟨rfl, rfl, known⟩
  | .cons first rest, known => by
    obtain ⟨resolved, annotated, between⟩ := first.annotated types seen known
    obtain ⟨resolvedRest, annotatedRest, kept⟩ := rest.annotated types seen between
    simp only [Ty.allResolved, Expr.allAnnotated, Bool.and_eq_true]
    exact ⟨⟨resolved, resolvedRest⟩, ⟨annotated, annotatedRest⟩, kept⟩

/-- So are the elements of a list. -/
theorem ElementsWalk.annotated (types : env.types.Resolved)
    (seen : LocalVariable.AllResolved visible) {before after : FunctionTable}
    {expected common : Option Ty} {position : Nat} {items filled : List Expr} :
    ElementsWalk env visible before expected position items common filled after → before.Resolved →
    (∀ first, expected = some first → first.isResolved = true) →
    (∀ first, common = some first → first.isResolved = true) ∧ Expr.allAnnotated filled = true ∧
      after.Resolved
  | .nil, known, given => ⟨given, rfl, known⟩
  | .cons walked agreed rest, known, given => by
    obtain ⟨resolved, annotated, between⟩ := walked.annotated types seen known
    have first := resolved_commonType given resolved agreed
    obtain ⟨shared, annotatedRest, kept⟩ :=
      rest.annotated types seen between fun _ same => by cases same; exact first
    simp only [Expr.allAnnotated, Bool.and_eq_true]
    exact ⟨shared, ⟨annotated, annotatedRest⟩, kept⟩

/-- So are the members of a literal. -/
theorem MembersWalk.annotated (types : env.types.Resolved)
    (seen : LocalVariable.AllResolved visible) {before after : FunctionTable}
    {literal complete : Literal} {members filled : List (MemberValue Expr)} :
    MembersWalk env visible before literal members complete filled after → before.Resolved →
    literal.Resolved →
    complete.Resolved ∧ Expr.membersAnnotated filled = true ∧ after.Resolved
  | .nil, known, given => ⟨given, rfl, known⟩
  | .cons _ walked accepted rest, known, given => by
    obtain ⟨resolved, annotated, between⟩ := walked.annotated types seen known
    obtain ⟨literal, annotatedRest, kept⟩ :=
      rest.annotated types seen between (given.accept resolved accepted)
    simp only [Expr.membersAnnotated, Bool.and_eq_true]
    exact ⟨literal, ⟨annotated, annotatedRest⟩, kept⟩

end

end

/-! ## Statements -/

section

variable {env : Env}

/-- A variable of a resolved type may join others. -/
theorem LocalVariable.AllResolved.cons {visible : List LocalVariable} {var : LocalVariable}
    (seen : AllResolved visible) (resolved : var.ty.isResolved = true) : AllResolved (var :: visible) := by
  intro other mem
  rcases List.mem_cons.mp mem with rfl | old
  · exact resolved
  · exact seen other old

/-- An assignment is filled, and leaves variables of resolved types. -/
theorem AssignmentWalk.annotated (types : env.types.Resolved) {before after : FunctionTable}
    {visible shown : List LocalVariable} {assigned filled : Assignment}
    (walked : AssignmentWalk env before visible assigned filled after shown)
    (seen : LocalVariable.AllResolved visible) (known : before.Resolved) :
    filled.isAnnotated = true ∧ after.Resolved ∧ LocalVariable.AllResolved shown := by
  cases walked with
  | declaration introduces value valued typed fresh =>
    obtain ⟨resolved, annotated, kept⟩ := value.annotated types seen known
    rcases Check.declaredType_eq_ok typed with
      ⟨unwritten, rfl, rfl⟩ | ⟨written, given, resolving, taken, rfl⟩
    · refine ⟨?_, kept, seen.cons resolved⟩
      simp [Assignment.isAnnotated, annotated, resolved, unwritten]
    · have declared := TypeTable.isResolved_of_resolve written resolving
      refine ⟨?_, kept, seen.cons declared⟩
      simp [Assignment.isAnnotated, annotated, declared]
  | reassignment rebinds value rebound =>
    obtain ⟨resolved, annotated, kept⟩ := value.annotated types seen known
    obtain ⟨var, found, -, -, -, rfl⟩ := Check.rebindable_eq_ok rebound
    refine ⟨?_, kept, seen⟩
    simp [Assignment.isAnnotated, annotated, rebinds, seen var (List.mem_of_find?_eq_some found)]

/-- The tests of a guard are filled. -/
theorem GuardWalk.annotated (types : env.types.Resolved) {before after : FunctionTable}
    {visible : List LocalVariable} {tests filled : List GuardTerm}
    (walked : GuardWalk env visible before tests filled after)
    (seen : LocalVariable.AllResolved visible) (known : before.Resolved) :
    GuardTerm.allAnnotated filled = true ∧ after.Resolved := by
  induction walked with
  | nil => exact ⟨rfl, known⟩
  | cons test _ ih =>
    obtain ⟨-, annotated, between⟩ := test.annotated types seen known
    obtain ⟨annotatedRest, kept⟩ := ih between
    simp only [GuardTerm.allAnnotated, List.all_cons, Bool.and_eq_true] at annotatedRest ⊢
    exact ⟨⟨annotated, annotatedRest⟩, kept⟩

/-- The elements of a resolved iterable have a resolved type. -/
theorem resolved_elementType {iterable element : Ty} {location : Location}
    (resolved : iterable.isResolved = true)
    (iterates : Check.elementType iterable location = .ok element) : element.isResolved = true := by
  obtain ⟨args, nullable, rfl, rfl⟩ := Check.elementType_eq_ok iterates
  cases args with
  | nil => rfl
  | cons first rest => exact Ty.isResolved_args resolved first List.mem_cons_self

mutual

/-- **The walk of a statement annotates all of it.** -/
theorem StmtWalk.annotated (types : env.types.Resolved) {before after : FunctionTable}
    {visible shown : List LocalVariable} {stmt filled : Stmt} {returned : List (Ty × Location)} :
    StmtWalk env before visible stmt filled returned after shown →
    LocalVariable.AllResolved visible → before.Resolved →
    filled.isAnnotated = true ∧ after.Resolved ∧ LocalVariable.AllResolved shown
  | .assignment walked, seen, known => walked.annotated types seen known
  | .returnsNothing, seen, known => ⟨rfl, known, seen⟩
  | .returns walked, seen, known => by
    obtain ⟨-, annotated, kept⟩ := walked.annotated types seen known
    exact ⟨annotated, kept, seen⟩
  | .call walked _, seen, known => by
    obtain ⟨-, annotated, kept⟩ := walked.annotated types seen known
    exact ⟨annotated, kept, seen⟩
  | .branch walked, seen, known => by
    obtain ⟨annotated, kept⟩ := walked.annotated types seen known
    exact ⟨annotated, kept, seen⟩
  | .forEach walked iterates _ block, seen, known => by
    obtain ⟨resolved, annotated, between⟩ := walked.annotated types seen known
    have element := resolved_elementType resolved iterates
    obtain ⟨annotatedBody, kept, -⟩ := block.annotated types (seen.cons element) between
    refine ⟨?_, kept, seen⟩
    simp only [Stmt.isAnnotated, Option.any_some, element, annotated, annotatedBody, Bool.and_self]
  | .whileTrue walked block, seen, known => by
    obtain ⟨annotated, between⟩ := walked.annotated types seen known
    obtain ⟨annotatedBody, kept, -⟩ := block.annotated types seen between
    refine ⟨?_, kept, seen⟩
    simp only [Stmt.isAnnotated, annotated, annotatedBody, Bool.and_self]
  | .pass, seen, known => ⟨rfl, known, seen⟩
  | .hostCode, seen, known => ⟨rfl, known, seen⟩

/-- **All statements of a block are filled.** -/
theorem BlockWalk.annotated (types : env.types.Resolved) {before after : FunctionTable}
    {visible shown : List LocalVariable} {stmts filled : List Stmt} {returned : List (Ty × Location)} :
    BlockWalk env before visible stmts filled returned after shown →
    LocalVariable.AllResolved visible → before.Resolved →
    Stmt.allAnnotated filled = true ∧ after.Resolved ∧ LocalVariable.AllResolved shown
  | .nil, seen, known => ⟨rfl, known, seen⟩
  | .cons first rest, seen, known => by
    obtain ⟨annotated, between, inner⟩ := first.annotated types seen known
    obtain ⟨annotatedRest, kept, last⟩ := rest.annotated types inner between
    simp only [Stmt.allAnnotated, Bool.and_eq_true]
    exact ⟨⟨annotated, annotatedRest⟩, kept, last⟩

/-- So are those of a branch. -/
theorem BranchWalk.annotated (types : env.types.Resolved) {before after : FunctionTable}
    {visible : List LocalVariable} {choice filled : Branch} {returned : List (Ty × Location)} :
    BranchWalk env before visible choice filled returned after →
    LocalVariable.AllResolved visible → before.Resolved →
    filled.isAnnotated = true ∧ after.Resolved
  | .last walked block, seen, known => by
    obtain ⟨annotated, between⟩ := walked.annotated types seen known
    obtain ⟨annotatedBody, kept, -⟩ := block.annotated types seen between
    simp only [Branch.isAnnotated, Bool.and_eq_true]
    exact ⟨⟨annotated, annotatedBody⟩, kept⟩
  | .otherwise walked block rest, seen, known => by
    obtain ⟨annotated, between⟩ := walked.annotated types seen known
    obtain ⟨annotatedBody, ended, -⟩ := block.annotated types seen between
    obtain ⟨annotatedRest, kept⟩ := rest.annotated types seen ended
    simp only [Branch.isAnnotated, Bool.and_eq_true]
    exact ⟨⟨⟨annotated, annotatedBody⟩, annotatedRest⟩, kept⟩

end

end

end DeclCheck
