import DeclCheck.Check.Stmt
import DeclCheck.Proofs.Locations.Mirrors

/-!
# Walks without locations

The walk of a body never reads a location, except to place an error, and never reads a slot. So the walk of a tree
without locations and with empty slots, from a state without locations, is the walk of the tree with all locations
forgotten in what it reaches: its result, its error and its state.
-/

namespace DeclCheck

/-! ## Literals, members and enum cases -/

/-- The types of numbers have no places. -/
@[simp] theorem numberType_unplaced (literal : String) : (numberType literal).unplaced = numberType literal := by
  rw [numberType]
  split <;> rfl

/-- A list type loses the places of its elements' type. -/
theorem Ty.list_unplaced (element : Option Ty) :
    (Ty.list (element.getD Ty.any)).unplaced = Ty.list ((element.map Ty.unplaced).getD Ty.any) := by
  cases element <;> rfl

/-- A tuple type loses those of its components. -/
theorem Ty.tuple_unplaced (types : List Ty) : (Ty.tuple types).unplaced = Ty.tuple (types.map Ty.unplaced) :=
  congrArg (Ty.app _ · _) (Ty.allUnplaced_eq_map types)

/-- Written arguments bind the same placeholders. -/
theorem bindPairs_unplaced (names : List String) (args : List Ty) :
    bindPairs (names.zip (args.map Ty.unplaced)) = (bindPairs (names.zip args)).mapValues Ty.unplaced := by
  rw [bindPairs, bindPairs, List.zip_map_right]
  refine foldl_image (Prod.map id Ty.unplaced) (Dict.mapValues Ty.unplaced) (fun bound pair => ?_) _ Dict.empty
  exact Dict.insert_mapValues Ty.unplaced bound pair.1 pair.2

/-- Placeholders that are bound already stay as they are. -/
theorem bindMissing_unplaced (bindings found : Bindings) :
    bindMissing (bindings.mapValues Ty.unplaced) (found.mapValues Ty.unplaced) =
      (bindMissing bindings found).mapValues Ty.unplaced :=
  foldl_image (fun entry : String × Ty => (entry.1, entry.2.unplaced)) (Dict.mapValues Ty.unplaced)
    (fun bound entry => Dict.insertNew_mapValues Ty.unplaced bound entry.1 entry.2) found.entries bindings

namespace Literal

/-- The literal under way, written nowhere. -/
def unplaced (literal : Literal) : Literal :=
  { literal with decl := literal.decl.unplaced, bindings := literal.bindings.mapValues Ty.unplaced }

variable (env : Env) (literal : Literal)

/-- A literal is begun alike. -/
theorem start_unplaced (ctor : Ty) (location : Location) :
    start env.unplaced ctor.unplaced .nowhere = unplacing unplaced (start env ctor location) := by
  have resolved := env.types.resolveAll_unplaced env.generics ctor.args
  rw [Ty.allUnplaced_eq_map] at resolved
  simp only [start, Env.unplaced, TypeTable.unplaced, Ty.name?_unplaced, Ty.location_unplaced, Ty.args_unplaced,
    Dict.find?_mapValues, List.isEmpty_map, List.length_map]
  cases env.types.structs.find? (ctor.name?.getD "") with
  | none => rfl
  | some decl =>
    simp only [Option.map_some, StructDecl.genericNames_unplaced]
    split
    · rfl
    · refine unplacing_bind resolved fun args => ?_
      rw [bindPairs_unplaced]
      rfl

/-- A member may be given alike. -/
theorem claim_unplaced (member : Ident) :
    literal.unplaced.claim member.unplaced = unplacing Member.unplaced (literal.claim member) := by
  have given : literal.unplaced.given = literal.given := rfl
  have found : literal.unplaced.decl.member? member.name = _ := literal.decl.member?_unplaced member.name
  simp only [claim, Ident.name_unplaced, given, found]
  cases literal.decl.member? member.name with
  | none => rfl
  | some declared =>
    simp only [Option.map_some]
    split <;> rfl

/-- The value of a member is accepted alike, and it binds the same placeholders. -/
theorem accept_unplaced (declared : Member) (actual : Ty) (location : Location) :
    literal.unplaced.accept env.unplaced declared.unplaced actual.unplaced .nowhere =
      unplacing unplaced (literal.accept env declared actual location) := by
  have bound := declared.ty.bind_unplaced .empty actual
  rw [Dict.mapValues_empty] at bound
  obtain ⟨name, decl, explicit, given, bindings⟩ := literal
  cases explicit with
  | true =>
    simp only [accept, unplaced, Member.unplaced, Env.unplaced, TypeTable.unplaced, if_true, Ty.substitute_unplaced,
      Lattice.isSubtype_unplaced]
    split <;> rfl
  | false =>
    simp only [accept, unplaced, Member.unplaced, Env.unplaced, TypeTable.unplaced, Bool.false_eq_true, if_false,
      bound, bindMissing_unplaced, Ty.substitute_unplaced, Lattice.isSubtype_unplaced]
    split <;> rfl

/-- The arguments that were bound are the same, and the same one is missing. -/
theorem boundArgs_unplaced (bindings : Bindings) (location : Location) (names : List String) :
    boundArgs (bindings.mapValues Ty.unplaced) .nowhere names =
      unplacing (List.map Ty.unplaced) (boundArgs bindings location names) := by
  induction names with
  | nil => rfl
  | cons name rest ih =>
    simp only [boundArgs, Dict.find?_mapValues]
    cases bindings.find? name with
    | none => rfl
    | some bound => exact unplacing_bind ih fun _ => rfl

/-- A literal is finished alike. -/
theorem finish_unplaced (location : Location) :
    literal.unplaced.finish .nowhere = unplacing Ty.unplaced (literal.finish location) := by
  have missing : literal.unplaced.decl.memberNames.filter (· ∉ literal.unplaced.given) =
      literal.decl.memberNames.filter (· ∉ literal.given) :=
    congrArg (List.filter (· ∉ literal.given)) literal.decl.memberNames_unplaced
  simp only [finish, missing]
  split
  · have generics : literal.unplaced.decl.genericNames = literal.decl.genericNames :=
      literal.decl.genericNames_unplaced
    rw [generics]
    refine unplacing_bind (boundArgs_unplaced literal.bindings location _) fun args => ?_
    simp only [Ty.struct, unplacing_pure, Ty.unplaced, Ty.allUnplaced_eq_map, Ctor.unplaced, unplaced]
  · rfl

end Literal

/-- **An access has the same type**, or the same problem. -/
theorem memberType_unplaced (env : Env) (subject : Ty) (location : Location) (key : Ident) :
    memberType env.unplaced subject.unplaced .nowhere key.unplaced =
      unplacing Ty.unplaced (memberType env subject location key) := by
  cases subject with
  | atom shape nullable => rfl
  | app ctor args nullable =>
    cases ctor with
    | unresolved | builtin => rfl
    | struct name =>
      simp only [Ty.unplaced, Ctor.unplaced, memberType, Env.unplaced, TypeTable.unplaced, Dict.find?_mapValues,
        Ty.allUnplaced_eq_map, Ident.name_unplaced]
      cases env.types.structs.find? name with
      | none => rfl
      | some decl =>
        simp only [Option.map_some, StructDecl.member?_unplaced, StructDecl.memberNames_unplaced,
          StructDecl.genericNames_unplaced, bindPairs_unplaced]
        cases decl.member? key.name with
        | none => rfl
        | some declared =>
          simp only [Option.map_some, Member.unplaced, Ty.substitute_unplaced, unplacing_ok]

/-- So has a case of an enum. -/
theorem enumCaseType_unplaced (env : Env) (enumName : Option Ident) (case : Ident) :
    enumCaseType env.unplaced (enumName.map Ident.unplaced) case.unplaced =
      unplacing Ty.unplaced (enumCaseType env enumName case) := by
  cases enumName with
  | none =>
    simp only [Option.map_none, enumCaseType, Env.unplaced, TypeTable.enumWithCase?_unplaced, Ident.name_unplaced]
    cases env.types.enumWithCase? case.name <;> rfl
  | some name =>
    simp only [Option.map_some, enumCaseType, Env.unplaced, TypeTable.unplaced, Dict.find?_mapValues,
      Ident.name_unplaced]
    cases env.types.enums.find? name.name with
    | none => rfl
    | some decl =>
      simp only [Option.map_some, EnumDecl.hasCase_unplaced]
      split <;> rfl

namespace Check

/-! ## Expressions -/

/-- The elements of a list have the same type in common. -/
theorem commonType_unplaced (expected : Option Ty) (position : Nat) (actual : Ty) (location : Location) :
    commonType (expected.map Ty.unplaced) position actual.unplaced .nowhere =
      unplacing Ty.unplaced (commonType expected position actual location) := by
  cases expected with
  | none => rfl
  | some first =>
    simp only [Option.map_some, commonType, Ty.equals_unplaced]
    split <;> rfl

mutual

/-- **The walk of an expression without places mirrors the walk of the expression.** -/
theorem mirrors_expr (env : Env) : ∀ expr : Expr,
    Mirrors BodyState.unplaced (Prod.map Ty.unplaced (Expr.unplaced .kept))
      (Check.expr env.unplaced (expr.unplaced .emptied)) (Check.expr env expr)
  | .mk kind _ location => by
    rw [Expr.unplaced, Check.expr, Check.expr]
    exact Mirrors.bind (mirrors_exprKind env location kind) fun found => Mirrors.pure _

/-- Each kind of expression is walked alike. -/
theorem mirrors_exprKind (env : Env) (location : Location) : ∀ kind : ExprKind,
    Mirrors BodyState.unplaced (Prod.map Ty.unplaced (ExprKind.unplaced .kept))
      (Check.exprKind env.unplaced .nowhere (kind.unplaced .emptied)) (Check.exprKind env location kind)
  | .number literal => by
    rw [ExprKind.unplaced, Check.exprKind, Check.exprKind]
    exact Mirrors.pure_of_eq (Prod.ext (numberType_unplaced literal).symm rfl)
  | .string _ => by
    rw [ExprKind.unplaced, Check.exprKind, Check.exprKind]
    exact Mirrors.pure _
  | .boolean _ => by
    rw [ExprKind.unplaced, Check.exprKind, Check.exprKind]
    exact Mirrors.pure _
  | .nil => by
    rw [ExprKind.unplaced, Check.exprKind, Check.exprKind]
    exact Mirrors.pure _
  | .variable ident => by
    rw [ExprKind.unplaced, Check.exprKind, Check.exprKind]
    exact Mirrors.bind (mirrors_variableType ident) fun ty => Mirrors.pure _
  | .call callee => by
    rw [ExprKind.unplaced, Check.exprKind, Check.exprKind]
    exact Mirrors.bind (mirrors_call env location callee) fun found => Mirrors.pure _
  | .list items => by
    rw [ExprKind.unplaced, Check.exprKind, Check.exprKind]
    refine Mirrors.bind (mirrors_elements env none 1 items) fun found => Mirrors.pure_of_eq (Prod.ext ?_ rfl)
    exact (Ty.list_unplaced found.1).symm
  | .tuple items => by
    rw [ExprKind.unplaced, Check.exprKind, Check.exprKind]
    refine Mirrors.bind (mirrors_exprs env items) fun found => Mirrors.pure_of_eq (Prod.ext ?_ rfl)
    exact (Ty.tuple_unplaced found.1).symm
  | .object ctor members => by
    rw [ExprKind.unplaced, Check.exprKind, Check.exprKind]
    refine Mirrors.bind (mirrors_decide (Literal.start_unplaced env ctor location)) fun literal => ?_
    refine Mirrors.bind (mirrors_memberValues env literal members) fun found => ?_
    refine Mirrors.bind (mirrors_decide (Literal.finish_unplaced found.1 location)) fun ty => ?_
    exact Mirrors.pure _
  | .access subject key => by
    rw [ExprKind.unplaced, Check.exprKind, Check.exprKind]
    refine Mirrors.bind (mirrors_expr env subject) fun found => ?_
    have member := memberType_unplaced env found.1 found.2.location key
    rw [← Expr.location_unplaced .kept found.2] at member
    exact Mirrors.bind (mirrors_decide member) fun ty => Mirrors.pure _
  | .enumCase enumName case => by
    rw [ExprKind.unplaced, Check.exprKind, Check.exprKind]
    exact Mirrors.bind (mirrors_decide (enumCaseType_unplaced env enumName case)) fun ty => Mirrors.pure _

/-- Calls are: they are bound to the same overloads. -/
theorem mirrors_call (env : Env) (location : Location) : ∀ callee : Call Expr,
    Mirrors BodyState.unplaced (Prod.map Ty.unplaced (Call.unplaced .kept))
      (Check.call env.unplaced .nowhere (callee.unplaced .emptied)) (Check.call env location callee)
  | ⟨signature, affix, args, _⟩ => by
    rw [Call.unplaced, Check.call, Check.call]
    refine Mirrors.bind (mirrors_exprs env args) fun found => ?_
    refine Mirrors.bind (mirrors_bindSignature env signature affix found.2 found.1 location) fun decl => ?_
    refine Mirrors.pure_of_eq (Prod.ext rfl ?_)
    rw [FunctionDecl.paramTypes_outline]
    rfl

/-- So are several expressions. -/
theorem mirrors_exprs (env : Env) : ∀ exprs : List Expr,
    Mirrors BodyState.unplaced (Prod.map (List.map Ty.unplaced) (Expr.allUnplaced .kept))
      (Check.exprs env.unplaced (Expr.allUnplaced .emptied exprs)) (Check.exprs env exprs)
  | [] => by
    rw [Expr.allUnplaced, Check.exprs, Check.exprs]
    exact Mirrors.pure _
  | first :: rest => by
    rw [Expr.allUnplaced, Check.exprs, Check.exprs]
    refine Mirrors.bind (mirrors_expr env first) fun found => ?_
    exact Mirrors.bind (mirrors_exprs env rest) fun others => Mirrors.pure _

/-- So are the elements of a list. -/
theorem mirrors_elements (env : Env) (expected : Option Ty) (position : Nat) : ∀ items : List Expr,
    Mirrors BodyState.unplaced (Prod.map (Option.map Ty.unplaced) (Expr.allUnplaced .kept))
      (Check.elements env.unplaced (expected.map Ty.unplaced) position (Expr.allUnplaced .emptied items))
      (Check.elements env expected position items)
  | [] => by
    rw [Expr.allUnplaced, Check.elements, Check.elements]
    exact Mirrors.pure _
  | item :: rest => by
    rw [Expr.allUnplaced, Check.elements, Check.elements]
    refine Mirrors.bind (mirrors_expr env item) fun found => ?_
    have common := commonType_unplaced expected position found.1 found.2.location
    rw [← Expr.location_unplaced .kept found.2] at common
    refine Mirrors.bind (mirrors_decide common) fun first => ?_
    exact Mirrors.bind (mirrors_elements env (some first) (position + 1) rest) fun others => Mirrors.pure _

/-- So are the members of a literal. -/
theorem mirrors_memberValues (env : Env) (literal : Literal) : ∀ members : List (MemberValue Expr),
    Mirrors BodyState.unplaced (Prod.map Literal.unplaced (Expr.membersUnplaced .kept))
      (Check.memberValues env.unplaced literal.unplaced (Expr.membersUnplaced .emptied members))
      (Check.memberValues env literal members)
  | [] => by
    rw [Expr.membersUnplaced, Check.memberValues, Check.memberValues]
    exact Mirrors.pure _
  | ⟨member, value⟩ :: rest => by
    rw [Expr.membersUnplaced, Check.memberValues, Check.memberValues]
    refine Mirrors.bind (mirrors_decide (literal.claim_unplaced member)) fun declared => ?_
    refine Mirrors.bind (mirrors_expr env value) fun found => ?_
    have accepted := literal.accept_unplaced env declared found.1 found.2.location
    rw [← Expr.location_unplaced .kept found.2] at accepted
    refine Mirrors.bind (mirrors_decide accepted) fun extended => ?_
    exact Mirrors.bind (mirrors_memberValues env extended rest) fun others => Mirrors.pure _

end

/-! ## Statements -/

/-- A value may be assigned wherever it stands. -/
theorem assignable_unplaced (env : Env) (name : String) (expected actual : Ty) (location : Location) :
    assignable env.unplaced name expected.unplaced actual.unplaced .nowhere =
      unplacing id (assignable env name expected actual location) := by
  simp only [assignable, Env.unplaced, TypeTable.unplaced, Ty.isNil_unplaced, Ty.nullable_unplaced,
    Lattice.isSubtype_unplaced]
  split
  · split <;> rfl
  · split <;> rfl

/-- A declaration gives the same type. -/
theorem declaredType_unplaced (env : Env) (target : Variable) (value : Ty) (location : Location) :
    declaredType env.unplaced (target.unplaced .emptied) value.unplaced .nowhere =
      unplacing (Prod.map Ty.unplaced (Variable.unplaced .kept)) (declaredType env target value location) := by
  obtain ⟨name, declared, mutable, resolved⟩ := target
  cases declared with
  | none => rfl
  | some written =>
    refine unplacing_bind (env.types.resolve_unplaced env.generics written) fun ty => ?_
    exact unplacing_bind (assignable_unplaced env name.name ty value location) fun _ => rfl

/-- Declarations are walked alike. -/
theorem mirrors_declare (env : Env) (target : Variable) (value : Ty) (location : Location) :
    Mirrors BodyState.unplaced (Variable.unplaced .kept)
      (declare env.unplaced (target.unplaced .emptied) value.unplaced .nowhere)
      (declare env target value location) := by
  have typed := mirrors_decide (declaredType_unplaced env target value location)
  have defined (found : Ty × Variable) :=
    mirrors_define ⟨found.2.name.name, found.1, found.2.mutable, found.2.name.location⟩
  simp only [declare, Ty.isVoid_unplaced]
  split
  · refine Mirrors.bind (mirrors_refuse (.voidAssigned target.name.name) location) fun _ => ?_
    exact Mirrors.bind typed fun found => Mirrors.bind (defined found) fun _ => Mirrors.pure _
  · exact Mirrors.bind typed fun found => Mirrors.bind (defined found) fun _ => Mirrors.pure _

/-- A variable may be reassigned wherever it stands. -/
theorem rebindable_unplaced (env : Env) (target : Ident) (existing : Option LocalVariable) (value : Ty)
    (location : Location) :
    rebindable env.unplaced target.unplaced (existing.map LocalVariable.unplaced) value.unplaced .nowhere =
      unplacing Ty.unplaced (rebindable env target existing value location) := by
  cases existing with
  | none => rfl
  | some var =>
    have mutable : var.unplaced.mutable = var.mutable := rfl
    simp only [Option.map_some, rebindable, mutable, Ty.isVoid_unplaced]
    split
    · rfl
    · split
      · rfl
      · exact unplacing_bind (assignable_unplaced env target.name var.ty value location) fun _ => rfl

/-- Reassignments are walked alike. -/
theorem mirrors_rebind (env : Env) (target : Variable) (value : Ty) (location : Location) :
    Mirrors BodyState.unplaced (Variable.unplaced .kept)
      (rebind env.unplaced (target.unplaced .emptied) value.unplaced .nowhere) (rebind env target value location) := by
  refine Mirrors.get_bind fun state => ?_
  have visible := state.scopes.lookup?_unplaced target.name.name
  have allowed := rebindable_unplaced env target.name (state.scopes.lookup? target.name.name) value location
  rw [← visible] at allowed
  exact Mirrors.bind (mirrors_decide allowed) fun ty => Mirrors.pure _

/-- So is either kind of assignment. -/
theorem mirrors_assignment (env : Env) (assigned : Assignment) :
    Mirrors BodyState.unplaced (Assignment.unplaced .kept) (assignment env.unplaced (assigned.unplaced .emptied))
      (assignment env assigned) := by
  have kind : (assigned.unplaced .emptied).isDeclaration = assigned.isDeclaration := rfl
  simp only [assignment, kind]
  refine Mirrors.bind (mirrors_expr env assigned.value) fun found => ?_
  have place := Expr.location_unplaced .kept found.2
  split
  · have declared := mirrors_declare env assigned.target found.1 found.2.location
    rw [← place] at declared
    exact Mirrors.bind declared fun target => Mirrors.pure _
  · have rebound := mirrors_rebind env assigned.target found.1 found.2.location
    rw [← place] at rebound
    exact Mirrors.bind rebound fun target => Mirrors.pure _

/-- So are guards, test by test. -/
theorem mirrors_guard (env : Env) (tests : List GuardTerm) :
    Mirrors BodyState.unplaced (List.map (GuardTerm.unplaced .kept))
      (guard env.unplaced (tests.map (GuardTerm.unplaced .emptied))) (guard env tests) := by
  induction tests with
  | nil => exact Mirrors.pure []
  | cons term rest ih =>
    refine Mirrors.bind (mirrors_expr env term.test) fun found => ?_
    exact Mirrors.bind ih fun others => Mirrors.pure _

/-- What can be iterated has elements of the same type. -/
theorem elementType_unplaced (iterable : Ty) (location : Location) :
    elementType iterable.unplaced .nowhere = unplacing Ty.unplaced (elementType iterable location) := by
  cases iterable with
  | atom shape nullable => rfl
  | app ctor args nullable =>
    cases ctor with
    | unresolved | struct => rfl
    | builtin kind =>
      cases kind with
      | list => cases args <;> rfl
      | _ => rfl

mutual

/-- **The walk of a statement without places mirrors the walk of the statement.** -/
theorem mirrors_stmt (env : Env) : ∀ stmt : Stmt,
    Mirrors BodyState.unplaced (Stmt.unplaced .kept) (Check.stmt env.unplaced (stmt.unplaced .emptied))
      (Check.stmt env stmt)
  | .assignment assigned => by
    rw [Stmt.unplaced, Check.stmt, Check.stmt]
    exact Mirrors.bind (mirrors_assignment env assigned) fun found => Mirrors.pure (Stmt.assignment found)
  | .returns none location => by
    rw [Stmt.unplaced, Check.stmt, Check.stmt]
    exact Mirrors.bind (mirrors_noteReturn Ty.void location) fun _ => Mirrors.pure _
  | .returns (some value) location => by
    rw [Stmt.unplaced, Check.stmt, Check.stmt]
    refine Mirrors.bind (mirrors_expr env value) fun found => ?_
    exact Mirrors.bind (mirrors_noteReturn found.1 location) fun _ => Mirrors.pure _
  | .call callee location => by
    simp only [Stmt.unplaced, Check.stmt]
    refine Mirrors.bind (mirrors_call env location callee) fun found => ?_
    have void := Ty.isVoid_unplaced found.1
    simp only [Prod.map, void]
    split
    · exact Mirrors.bind (mirrors_refuse (.valueDropped found.1) location) fun _ => Mirrors.pure _
    · exact Mirrors.pure _
  | .branch choice => by
    rw [Stmt.unplaced, Check.stmt, Check.stmt]
    exact Mirrors.bind (mirrors_branch env choice) fun found => Mirrors.pure _
  | .forEach iterator iterable body location => by
    rw [Stmt.unplaced, Check.stmt, Check.stmt]
    refine Mirrors.bind (mirrors_expr env iterable) fun found => ?_
    have element := elementType_unplaced found.1 found.2.location
    rw [← Expr.location_unplaced .kept found.2] at element
    refine Mirrors.bind (mirrors_decide element) fun ty => ?_
    refine Mirrors.bind mirrors_enter fun _ => ?_
    refine Mirrors.bind (mirrors_define ⟨iterator.name.name, ty, false, iterator.name.location⟩) fun _ => ?_
    refine Mirrors.bind (mirrors_block env body) fun walked => ?_
    exact Mirrors.bind mirrors_exit fun _ => Mirrors.pure _
  | .whileTrue tests body location => by
    rw [Stmt.unplaced, Check.stmt, Check.stmt]
    refine Mirrors.bind (mirrors_guard env tests) fun found => ?_
    refine Mirrors.bind mirrors_enter fun _ => ?_
    refine Mirrors.bind (mirrors_block env body) fun walked => ?_
    exact Mirrors.bind mirrors_exit fun _ => Mirrors.pure _
  | .pass _ => by
    rw [Stmt.unplaced, Check.stmt, Check.stmt]
    exact Mirrors.pure _
  | .hostCode _ _ => by
    rw [Stmt.unplaced, Check.stmt, Check.stmt]
    exact Mirrors.pure _

/-- **Blocks are walked alike.** -/
theorem mirrors_block (env : Env) : ∀ stmts : List Stmt,
    Mirrors BodyState.unplaced (Stmt.allUnplaced .kept)
      (Check.block env.unplaced (Stmt.allUnplaced .emptied stmts)) (Check.block env stmts)
  | [] => by
    rw [Stmt.allUnplaced, Check.block, Check.block]
    exact Mirrors.pure []
  | first :: rest => by
    rw [Stmt.allUnplaced, Check.block, Check.block]
    refine Mirrors.bind (mirrors_stmt env first) fun walked => ?_
    exact Mirrors.bind (mirrors_block env rest) fun others => Mirrors.pure _

/-- So are branches, with all that is tried otherwise. -/
theorem mirrors_branch (env : Env) : ∀ choice : Branch,
    Mirrors BodyState.unplaced (Branch.unplaced .kept) (Check.branch env.unplaced (choice.unplaced .emptied))
      (Check.branch env choice)
  | .mk tests body none location => by
    rw [Branch.unplaced, Check.branch, Check.branch]
    refine Mirrors.bind (mirrors_guard env tests) fun found => ?_
    refine Mirrors.bind mirrors_enter fun _ => ?_
    refine Mirrors.bind (mirrors_block env body) fun walked => ?_
    exact Mirrors.bind mirrors_exit fun _ => Mirrors.pure _
  | .mk tests body (some otherwise) location => by
    rw [Branch.unplaced, Check.branch, Check.branch]
    refine Mirrors.bind (mirrors_guard env tests) fun found => ?_
    refine Mirrors.bind mirrors_enter fun _ => ?_
    refine Mirrors.bind (mirrors_block env body) fun walked => ?_
    refine Mirrors.bind mirrors_exit fun _ => ?_
    exact Mirrors.bind (mirrors_branch env otherwise) fun others => Mirrors.pure _

end

end Check

end DeclCheck
