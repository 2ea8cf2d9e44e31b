import DeclCheck.Proofs.Session
import Mathlib.Data.List.Forall2

/-!
# What annotation leaves alone

The checker notes types in a tree and resolves the types written there. All else it leaves as it came: *erasing* from
an accepted unit what the checker notes, resolves and adds gives what the same erasure makes of the unit as it was
given. The type written with an iterator or beside a mere reassignment is not erased, for the checker does not touch it.

Functions gain the placeholders that their parameters introduce, after the generic parameters that they have. So
erasure forgets all generic parameters of a function, and that the given ones come first is said beside it.

What erasure forgets is not compared at all: which types are noted and how a written type was resolved is said
elsewhere. Of a rejected unit no tree is returned, and nothing is said.
-/

namespace DeclCheck

/-! ## Erasing annotations -/

mutual

/-- **The expression without the types that the checker notes or resolves in it.** -/
def Expr.erased : Expr → Expr
  | .mk kind _ location => .mk kind.erased none location

/-- What the expression is, erased. -/
def ExprKind.erased : ExprKind → ExprKind
  | .call callee => .call callee.erased
  | .list items => .list (Expr.allErased items)
  | .tuple items => .tuple (Expr.allErased items)
  | .object _ members => .object .void (Expr.membersErased members)
  | .access subject key => .access subject.erased key
  | kind => kind

/-- The call without the overload that it was bound to. -/
def Call.erased : Call Expr → Call Expr
  | ⟨signature, affix, args, _⟩ => ⟨signature, affix, Expr.allErased args, none⟩

/-- Several expressions, erased. -/
def Expr.allErased : List Expr → List Expr
  | [] => []
  | expr :: rest => expr.erased :: Expr.allErased rest

/-- The members of a struct literal, erased. -/
def Expr.membersErased : List (MemberValue Expr) → List (MemberValue Expr)
  | [] => []
  | ⟨member, value⟩ :: rest => ⟨member, value.erased⟩ :: Expr.membersErased rest

end

/-- A written type forgotten, but not that there is one. -/
def Ty.forgotten (written : Option Ty) : Option Ty := written.map fun _ => .void

/-- The variable without the type that was found for it. -/
def Variable.erased (var : Variable) : Variable := { var with resolvedType := none }

/-- The variable of a declaration without the type that was found for it and the type that was written. -/
def Variable.erasedDeclared (var : Variable) : Variable :=
  { var with declaredType := Ty.forgotten var.declaredType, resolvedType := none }

/-- The assignment, erased. -/
def Assignment.erased (assigned : Assignment) : Assignment :=
  { assigned with
    target := if assigned.isDeclaration then assigned.target.erasedDeclared else assigned.target.erased
    value := assigned.value.erased }

/-- The test of a guard, erased. -/
def GuardTerm.erased (term : GuardTerm) : GuardTerm := { term with test := term.test.erased }

mutual

/-- **The statement without the types that the checker notes or resolves in it.** -/
def Stmt.erased : Stmt → Stmt
  | .assignment assigned => .assignment assigned.erased
  | .returns value location => .returns (value.map Expr.erased) location
  | .call callee location => .call callee.erased location
  | .branch choice => .branch choice.erased
  | .forEach iterator iterable body location =>
    .forEach iterator.erased iterable.erased (Stmt.allErased body) location
  | .whileTrue tests body location => .whileTrue (tests.map GuardTerm.erased) (Stmt.allErased body) location
  | .pass location => .pass location
  | .hostCode code location => .hostCode code location

/-- The statements of a block, erased. -/
def Stmt.allErased : List Stmt → List Stmt
  | [] => []
  | stmt :: rest => stmt.erased :: Stmt.allErased rest

/-- The branch with what is tried otherwise, erased. -/
def Branch.erased : Branch → Branch
  | .mk tests body none location => .mk (tests.map GuardTerm.erased) (Stmt.allErased body) none location
  | .mk tests body (some otherwise) location =>
    .mk (tests.map GuardTerm.erased) (Stmt.allErased body) (some otherwise.erased) location

end

/-- The parameter without its type. -/
def Param.erased (param : Param) : Param := { param with ty := .void }

/-- The generic parameter without its restriction, but not without whether it has one. -/
def GenericParam.erased (generic : GenericParam) : GenericParam :=
  { generic with constraint := Ty.forgotten generic.constraint }

/-- The member without its type. -/
def Member.erased (member : Member) : Member := { member with ty := .void }

/-- The function without the types of its signature, its generic parameters, and what is noted in its body. -/
def FunctionDecl.erased (decl : FunctionDecl) : FunctionDecl :=
  { decl with
    returnType := .void
    params := decl.params.map Param.erased
    body := Stmt.allErased decl.body
    generics := [] }

namespace Decl

/-- **The declaration without the types that the checker notes or resolves in it**, and without the generic parameters
of a function. -/
def erased : Decl → Decl
  | .function decl => .function decl.erased
  | .struct decl => .struct { decl with members := decl.members.map Member.erased }
  | .binding decl => .binding { decl with child := .void, parent := .void }
  | .exampleBlock decl => .exampleBlock { decl with body := Stmt.allErased decl.body }
  | .enum decl => .enum decl
  | .group decl => .group decl
  | .importing decl => .importing decl

/-- The generic parameters of a declaration that is a function. -/
def generics : Decl → List GenericParam
  | .function decl => decl.generics
  | _ => []

/-- Whether a declaration has the generic parameters of another at the beginning of its own, in the same order and with
the same names and places. -/
def KeepsGenerics (given filled : Decl) : Prop :=
  given.generics.map GenericParam.erased <+: filled.generics.map GenericParam.erased

/-- **Whether a declaration is another one with nothing but annotations changed.** -/
structure Annotates (given filled : Decl) : Prop where
  erased : filled.erased = given.erased
  generics : given.KeepsGenerics filled

/-- A declaration that stays as it is is annotated. -/
theorem Annotates.refl (decl : Decl) : decl.Annotates decl := ⟨rfl, List.prefix_rfl⟩

/-- Annotations may be added step by step. -/
theorem Annotates.trans {first second third : Decl} (one : first.Annotates second) (two : second.Annotates third) :
    first.Annotates third :=
  ⟨two.erased.trans one.erased, one.generics.trans two.generics⟩

/-- What has the same generic parameters is annotated if it is the same when erased. -/
theorem Annotates.of_generics_eq {given filled : Decl} (erased : filled.erased = given.erased)
    (generics : filled.generics = given.generics) : given.Annotates filled :=
  ⟨erased, by simp only [KeepsGenerics, generics, List.prefix_rfl]⟩

end Decl

/-- **The unit without the types that the checker notes or resolves in it**, and without the generic parameters of its
functions. -/
def SourceUnit.erased (unit : SourceUnit) : SourceUnit :=
  { unit with declarations := unit.declarations.map Decl.erased }

/-! ## Walks -/

section

variable {env : Env}

mutual

/-- **The walk of an expression changes nothing but annotations.** -/
theorem ExprWalk.erased_eq {before after : FunctionTable} {visible : List LocalVariable} {expr filled : Expr}
    {ty : Ty} :
    ExprWalk env visible before expr ty filled after → filled.erased = expr.erased
  | .mk walked => by rw [Expr.erased, Expr.erased, walked.erased_eq]

/-- A walked expression is of the kind that it was, part by part. -/
theorem KindWalk.erased_eq {before after : FunctionTable} {visible : List LocalVariable} {location : Location}
    {kind filled : ExprKind} {ty : Ty} :
    KindWalk env visible before location kind ty filled after → filled.erased = kind.erased
  | .number => rfl
  | .string => rfl
  | .boolean => rfl
  | .nil => rfl
  | .variable _ => rfl
  | .call walked => by rw [ExprKind.erased, ExprKind.erased, walked.erased_eq]
  | .list walked => by rw [ExprKind.erased, ExprKind.erased, walked.erased_eq]
  | .tuple walked => by rw [ExprKind.erased, ExprKind.erased, walked.erased_eq]
  | .object _ walked _ => by rw [ExprKind.erased, ExprKind.erased, walked.erased_eq]
  | .access walked _ => by rw [ExprKind.erased, ExprKind.erased, walked.erased_eq]
  | .enumCase _ => rfl

/-- A call is bound, and nothing else changes. -/
theorem CallWalk.erased_eq {before after : FunctionTable} {visible : List LocalVariable} {location : Location}
    {callee filled : Call Expr} {ty : Ty} :
    CallWalk env visible before location callee ty filled after → filled.erased = callee.erased
  | .mk walked _ => by rw [Call.erased, Call.erased, walked.erased_eq]

/-- Several walked expressions are erased alike. -/
theorem ExprsWalk.erased_eq {before after : FunctionTable} {visible : List LocalVariable}
    {exprs filled : List Expr} {types : List Ty} :
    ExprsWalk env visible before exprs types filled after → Expr.allErased filled = Expr.allErased exprs
  | .nil => rfl
  | .cons first rest => by rw [Expr.allErased, Expr.allErased, first.erased_eq, rest.erased_eq]

/-- So are the elements of a list. -/
theorem ElementsWalk.erased_eq {before after : FunctionTable} {visible : List LocalVariable}
    {expected common : Option Ty} {position : Nat} {items filled : List Expr} :
    ElementsWalk env visible before expected position items common filled after →
    Expr.allErased filled = Expr.allErased items
  | .nil => rfl
  | .cons walked _ rest => by rw [Expr.allErased, Expr.allErased, walked.erased_eq, rest.erased_eq]

/-- So are the members of a literal. -/
theorem MembersWalk.erased_eq {before after : FunctionTable} {visible : List LocalVariable}
    {literal complete : Literal} {members filled : List (MemberValue Expr)} :
    MembersWalk env visible before literal members complete filled after →
    Expr.membersErased filled = Expr.membersErased members
  | .nil => rfl
  | .cons _ walked _ rest => by rw [Expr.membersErased, Expr.membersErased, walked.erased_eq, rest.erased_eq]

end

/-- What a declaration finds for its variable differs from what was written by types only. -/
theorem Check.erased_declaredType {target declared : Variable} {value ty : Ty} {location : Location}
    (typed : declaredType env target value location = .ok (ty, declared)) :
    declared.erasedDeclared = target.erasedDeclared := by
  rcases declaredType_eq_ok typed with ⟨-, -, rfl⟩ | ⟨written, given, -, -, rfl⟩
  · rfl
  · rw [Variable.erasedDeclared, Variable.erasedDeclared, given]
    rfl

/-- A walked assignment has the target and the value that it had. -/
theorem AssignmentWalk.erased_eq {before after : FunctionTable} {visible seen : List LocalVariable}
    {assigned filled : Assignment} (walked : AssignmentWalk env before visible assigned filled after seen) :
    filled.erased = assigned.erased := by
  cases walked with
  | declaration introduces value _ typed _ =>
    simp only [Assignment.erased, introduces, if_true, value.erased_eq, Check.erased_declaredType typed]
  | reassignment rebinds value _ =>
    simp only [Assignment.erased, rebinds, value.erased_eq]
    rfl

/-- The tests of a guard are erased alike. -/
theorem GuardWalk.erased_eq {before after : FunctionTable} {visible : List LocalVariable}
    {tests filled : List GuardTerm}
    (walked : GuardWalk env visible before tests filled after) :
    filled.map GuardTerm.erased = tests.map GuardTerm.erased := by
  induction walked with
  | nil => rfl
  | cons test _ ih =>
    rw [List.map_cons, List.map_cons, ih]
    simp only [GuardTerm.erased, test.erased_eq]

mutual

/-- **The walk of a statement changes nothing but annotations.** -/
theorem StmtWalk.erased_eq {before after : FunctionTable} {visible seen : List LocalVariable} {stmt filled : Stmt}
    {returned : List (Ty × Location)} :
    StmtWalk env before visible stmt filled returned after seen → filled.erased = stmt.erased
  | .assignment walked => by rw [Stmt.erased, Stmt.erased, walked.erased_eq]
  | .returnsNothing => rfl
  | .returns walked => by simp only [Stmt.erased, Option.map_some, walked.erased_eq]
  | .call walked _ => by rw [Stmt.erased, Stmt.erased, walked.erased_eq]
  | .branch walked => by rw [Stmt.erased, Stmt.erased, walked.erased_eq]
  | .forEach walked _ _ block => by
    rw [Stmt.erased, Stmt.erased, walked.erased_eq, block.erased_eq]
    rfl
  | .whileTrue walked block => by rw [Stmt.erased, Stmt.erased, walked.erased_eq, block.erased_eq]
  | .pass => rfl
  | .hostCode => rfl

/-- **The statements of a block change in annotations only.** -/
theorem BlockWalk.erased_eq {before after : FunctionTable} {visible seen : List LocalVariable}
    {stmts filled : List Stmt} {returned : List (Ty × Location)} :
    BlockWalk env before visible stmts filled returned after seen → Stmt.allErased filled = Stmt.allErased stmts
  | .nil => rfl
  | .cons first rest => by rw [Stmt.allErased, Stmt.allErased, first.erased_eq, rest.erased_eq]

/-- So does a branch. -/
theorem BranchWalk.erased_eq {before after : FunctionTable} {visible : List LocalVariable} {choice filled : Branch}
    {returned : List (Ty × Location)} :
    BranchWalk env before visible choice filled returned after → filled.erased = choice.erased
  | .last walked block => by rw [Branch.erased, Branch.erased, walked.erased_eq, block.erased_eq]
  | .otherwise walked block rest => by
    rw [Branch.erased, Branch.erased, walked.erased_eq, block.erased_eq, rest.erased_eq]

end

end

/-! ## Signatures -/

namespace FunctionDecl

variable {types : TypeTable}

/-- A restriction is resolved, and nothing else changes. -/
theorem erased_resolveConstraint {generic resolved : GenericParam}
    (resolving : resolveConstraint types generic = .ok resolved) : resolved.erased = generic.erased := by
  unfold resolveConstraint at resolving
  split at resolving
  · cases resolving
    rfl
  · rename_i written given
    obtain ⟨constraint, -, made⟩ := bind_eq_ok.mp resolving
    cases made
    simp only [GenericParam.erased, given]
    rfl

/-- **A signature that is closed changes in its types only**, and gains generic parameters at the end. -/
theorem annotates_close {decl closed : FunctionDecl} (closing : decl.close types = .ok closed) :
    (Decl.function decl).Annotates (.function closed) := by
  obtain ⟨generics, params, returnType, restricted, each, -, rfl, -⟩ := close_eq_ok closing
  have same : params.map Param.erased = decl.params.map Param.erased := by
    refine map_eq_of_mapM_eq_ok (fun param {result} stepped => ?_) each
    obtain ⟨ty, -, made⟩ := bind_eq_ok.mp stepped
    cases made
    rfl
  have kept : generics.map GenericParam.erased = (closedGenerics types decl).map GenericParam.erased :=
    map_eq_of_mapM_eq_ok (fun _ => erased_resolveConstraint) restricted
  constructor
  · simp only [Decl.erased, erased, same]
  · simp only [Decl.KeepsGenerics, Decl.generics, kept]
    obtain ⟨implicit, same, -⟩ := closedGenerics_eq_append types decl
    rw [same]
    exact (List.prefix_append _ _).map _

end FunctionDecl

/-! ## Passes -/

/-- Steps for the items of a list relate to each source what they make of the item that belongs to it. -/
theorem forall₂_mapM {ε σ α β γ : Type} {step : α → EStateM ε σ β} {given : γ → α → Prop} {made : γ → β → Prop}
    (each : ∀ {source item result before after}, given source item → step item before = .ok result after →
      made source result)
    {sources : List γ} {items : List α} (paired : List.Forall₂ given sources items) {results : List β}
    {before after : σ} (reached : items.mapM step before = .ok results after) :
    List.Forall₂ made sources results := by
  induction paired generalizing before results with
  | nil =>
    cases reached
    exact .nil
  | cons first _ ih =>
    rw [List.mapM_cons] at reached
    obtain ⟨result, between, stepped, later⟩ := step_bind_eq_ok.mp reached
    obtain ⟨others, ended, steppedRest, made⟩ := step_bind_eq_ok.mp later
    cases made
    exact .cons (each first stepped) (ih steppedRest)

namespace Analysis

variable {before after : Analysis} {decl result : Decl}

/-- The second pass resolves the types of group bindings. -/
theorem annotates_bindGroup (reached : bindGroup decl before = .ok result after) : decl.Annotates result := by
  cases decl with
  | binding binding =>
    obtain ⟨bound, between, stepped, made⟩ := step_bind_eq_ok.mp reached
    obtain ⟨types, binds, -⟩ := onTypes_eq_ok stepped
    obtain ⟨child, name, nullable, lattice, -, -, -, rfl, -⟩ := bindTypes_inserted binds
    cases made
    exact .of_generics_eq rfl rfl
  | struct | enum | group | function | exampleBlock | importing =>
    cases reached
    exact .refl _

/-- The third pass resolves the types of members. -/
theorem annotates_resolveMembers (reached : resolveMembers decl before = .ok result after) :
    decl.Annotates result := by
  cases decl with
  | struct decl =>
    rw [resolveMembers] at reached
    obtain ⟨types, stepped, -⟩ := onTypes_eq_ok reached
    obtain ⟨resolved, resolving, made⟩ := bind_eq_ok.mp stepped
    obtain ⟨members, each, found⟩ := bind_eq_ok.mp resolving
    cases made
    cases found
    have same : members.map Member.erased = decl.members.map Member.erased := by
      refine map_eq_of_mapM_eq_ok (fun member {result} stepped => ?_) each
      obtain ⟨ty, -, made⟩ := bind_eq_ok.mp stepped
      cases made
      rfl
    exact .of_generics_eq (by simp only [Decl.erased, same]) rfl
  | enum | group | function | binding | exampleBlock | importing =>
    cases reached
    exact .refl _

/-- The fourth pass resolves those of signatures, and adds placeholders. -/
theorem annotates_collect (reached : collect decl before = .ok result after) : decl.Annotates result := by
  cases decl with
  | function decl =>
    obtain ⟨closed, closing, rfl, -⟩ := collect_function_eq_ok reached
    exact FunctionDecl.annotates_close closing
  | struct | enum | group | binding | exampleBlock | importing =>
    cases reached
    exact .refl _

/-- The fifth pass fills bodies. -/
theorem annotates_checkBody (reached : checkBody decl before = .ok result after) : decl.Annotates result := by
  cases decl with
  | function decl =>
    obtain ⟨body, returned, functions, seen, rfl, walked, -, -⟩ := checkBody_function_eq_ok reached
    exact .of_generics_eq (by simp only [Decl.erased, FunctionDecl.erased, walked.erased_eq]) rfl
  | exampleBlock decl =>
    obtain ⟨body, returned, functions, seen, rfl, walked, -⟩ := checkBody_example_eq_ok reached
    exact .of_generics_eq (by simp only [Decl.erased, walked.erased_eq]) rfl
  | struct | enum | group | binding | importing =>
    cases reached
    exact .refl _

/-- **The check of declarations changes nothing but annotations**, in each of them. -/
theorem annotates_declarations {decls results : List Decl} (reached : declarations decls before = .ok results after) :
    List.Forall₂ Decl.Annotates decls results := by
  obtain ⟨_, _, _, _, groups, structs, signatures, -, binding, resolving, -, collecting, checking⟩ :=
    declarations_eq_ok reached
  have same : List.Forall₂ Decl.Annotates decls decls := List.forall₂_same.mpr fun decl _ => .refl decl
  have bound := forall₂_mapM (fun so stepped => so.trans (annotates_bindGroup stepped)) same binding
  have resolved := forall₂_mapM (fun so stepped => so.trans (annotates_resolveMembers stepped)) bound resolving
  have closed := forall₂_mapM (fun so stepped => so.trans (annotates_collect stepped)) resolved collecting
  exact forall₂_mapM (fun so stepped => so.trans (annotates_checkBody stepped)) closed checking

end Analysis

/-! ## Units -/

theorem Decl.generics_withOrigin (origin : String) (decl : Decl) :
    (decl.withOrigin origin).generics = decl.generics := by
  cases decl <;> rfl

namespace Session

/-- An accepted unit differs from the one that was given in its declarations only. -/
theorem annotated_eq {session after : Session} {unit annotated : SourceUnit}
    (accepted : session.addUnit unit = (.ok annotated, after)) :
    annotated = { unit with declarations := annotated.declarations } := by
  simp only [addUnit] at accepted
  split at accepted
  · cases accepted
    rfl
  · cases accepted

/-- An accepted unit, erased, is the unit that was given, erased. -/
theorem erased_eq {session after : Session} {unit annotated : SourceUnit}
    (accepted : session.addUnit unit = (.ok annotated, after)) : annotated.erased = unit.withOrigins.erased := by
  obtain ⟨analysis, checked, -⟩ := addUnit_eq_ok accepted
  have same : unit.withOrigins.declarations.map Decl.erased = annotated.declarations.map Decl.erased := by
    rw [← List.forall₂_eq_eq_eq, List.forall₂_map_left_iff, List.forall₂_map_right_iff]
    exact (Analysis.annotates_declarations checked).imp fun _ _ so => so.erased.symm
  rw [annotated_eq accepted, SourceUnit.erased, SourceUnit.erased, same]
  rfl

/-- **Annotation changes nothing else.** An accepted unit, erased, is the unit that was given, erased, with its own name
as the origin of the declarations that have none. And the generic parameters that each function was given come first
among those that it has then, with their names and places and in their order. -/
theorem addUnit_erased {session after : Session} {unit annotated : SourceUnit}
    (accepted : session.addUnit unit = (.ok annotated, after)) :
    annotated.erased = unit.withOrigins.erased ∧
      List.Forall₂ Decl.KeepsGenerics unit.declarations annotated.declarations := by
  refine ⟨erased_eq accepted, ?_⟩
  obtain ⟨analysis, checked, -⟩ := addUnit_eq_ok accepted
  have kept := List.forall₂_map_left_iff.mp (Analysis.annotates_declarations checked)
  refine kept.imp fun given filled so => ?_
  have generics := so.generics
  split at generics
  · rw [Decl.KeepsGenerics, Decl.generics_withOrigin] at generics
    exact generics
  · exact generics

/-- A use of a variable. -/
private def useOf (name : String) : Expr := .mk (.variable ⟨name, .nowhere⟩) none .nowhere

/-- A struct with a placeholder, and a group that it is bound into. A function with a restricted placeholder and a
parameter that introduces another one makes a value of the struct. -/
def boxingUnit : SourceUnit where
  filename := "boxing.pine"
  content := ""
  declarations :=
    [.group ⟨⟨"Kept", .nowhere⟩, "", .nowhere⟩,
      .struct ⟨⟨"Box", .nowhere⟩, [⟨⟨"value", .nowhere⟩, Ty.written "T" []⟩], [⟨"T", .nowhere⟩], "library.pine",
        .nowhere⟩,
      .binding ⟨Ty.written "Box" [], Ty.written "Kept" [], "", .nowhere⟩,
      .function {
        signature := [⟨"keep", .nowhere⟩, ⟨"beside", .nowhere⟩]
        affix := .mixed
        returnType := Ty.written "Box" [Ty.written "U" []]
        params := [⟨⟨"x", .nowhere⟩, Ty.written "T" [], false⟩, ⟨⟨"y", .nowhere⟩, Ty.written "U" [], true⟩]
        body :=
          [.assignment ⟨⟨⟨"boxed", .nowhere⟩, some (Ty.written "Box" [Ty.written "U" []]), false, none⟩, true,
              .mk (.object (Ty.written "Box" []) [⟨⟨"value", .nowhere⟩, useOf "y"⟩]) none .nowhere, .nowhere⟩,
            .returns (some (useOf "boxed")) .nowhere]
        generics := [⟨⟨"T", .nowhere⟩, some (Ty.written "Kept" [])⟩]
        origin := ""
        location := .nowhere }]

/-- In this unit every pass has something to resolve or to add. -/
theorem boxingUnit_erased :
    ∃ annotated after, initial.addUnit boxingUnit = (.ok annotated, after) ∧
      annotated.erased = boxingUnit.withOrigins.erased ∧
      List.Forall₂ Decl.KeepsGenerics boxingUnit.declarations annotated.declarations := by
  have fine : (initial.addUnit boxingUnit).1.toBool = true := by decide +kernel
  obtain ⟨annotated, after, accepted⟩ := exists_accepted fine
  exact ⟨annotated, after, accepted, addUnit_erased accepted⟩

end Session

end DeclCheck
