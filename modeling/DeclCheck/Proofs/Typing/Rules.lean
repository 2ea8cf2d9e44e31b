import DeclCheck.Conformity
import DeclCheck.Check.Literal
import DeclCheck.Proofs.Scopes
import Mathlib.Data.List.Forall2

/-!
# Typing rules

When a tree with its slots filled is right, said without the checker. The rules read the type tables and
the visible variables, and the slots: the type of every expression, the overload of every call, the type
of every variable that a statement introduces or changes. They do not read the function table, since a
call carries the overload that it was bound to.

Nothing is run here. There are no rules for what a body does, so that right trees do not go wrong when they are run is
not a statement of this library.
-/

namespace DeclCheck

/-- Whether a variable takes a value: one of the type of `nil` if the variable's type is that type or
admits it, any other if its type is a subtype. -/
def Lattice.Takes (lattice : Lattice) (expected actual : Ty) : Prop :=
  if actual.isNil then expected.isNil = true ∨ expected.nullable = true
  else lattice.isSubtype actual expected = true

/-- Whether a function of the given return type, if there is one, may return a value of a type. -/
def Returnable (expected : Option Ty) (actual : Ty) : Prop :=
  ∀ declared, expected = some declared →
    actual.equals declared = true ∨ (actual.isNil = true ∧ declared.nullable = true)

/-! ## Expressions -/

mutual

/-- **Whether an expression carries its type.** -/
inductive Expr.Typed (types : TypeTable) (visible : List LocalVariable) : Expr → Ty → Prop
  | mk {kind : ExprKind} {ty : Ty} {location : Location} (typed : ExprKind.Typed types visible kind ty) :
      Expr.Typed types visible (.mk kind (some ty) location) ty

/-- Whether what an expression is has a type. -/
inductive ExprKind.Typed (types : TypeTable) (visible : List LocalVariable) : ExprKind → Ty → Prop
  | number {literal : String} : ExprKind.Typed types visible (.number literal) (numberType literal)
  | string {text : String} : ExprKind.Typed types visible (.string text) (.builtin .string)
  | boolean {value : Bool} : ExprKind.Typed types visible (.boolean value) .boolean
  | nil : ExprKind.Typed types visible .nil .nil
  | variable {ident : Ident} {var : LocalVariable} (mem : var ∈ visible) (named : var.name = ident.name) :
      ExprKind.Typed types visible (.variable ident) var.ty
  | call {callee : Call Expr} {overload : Overload} (typed : Call.Typed types visible callee overload) :
      ExprKind.Typed types visible (.call callee) overload.returnType
  | emptyList : ExprKind.Typed types visible (.list []) (.list .any)
  | list {item : Expr} {items : List Expr} {ty : Ty} {itemTypes : List Ty}
      (first : Expr.Typed types visible item ty) (rest : ExprsTyped types visible items itemTypes)
      (same : ∀ other ∈ itemTypes, other.equals ty = true) :
      ExprKind.Typed types visible (.list (item :: items)) (.list ty)
  | tuple {items : List Expr} {itemTypes : List Ty} (typed : ExprsTyped types visible items itemTypes) :
      ExprKind.Typed types visible (.tuple items) (.tuple itemTypes)
  | object {name : String} {args valueTypes : List Ty} {members : List (MemberValue Expr)}
      {decl : StructDecl} (declared : types.structs.find? name = some decl)
      (arity : args.length = decl.generics.length)
      (typed : ExprsTyped types visible (members.map (·.value)) valueTypes) :
      ExprKind.Typed types visible (.object (.struct name args) members) (.struct name args)
  | access {subject : Expr} {key : Ident} {name : String} {args : List Ty} {nullable : Bool}
      {decl : StructDecl} {member : Member}
      (typed : Expr.Typed types visible subject (.app (.struct name) args nullable))
      (declared : types.structs.find? name = some decl) (found : decl.member? key.name = some member) :
      ExprKind.Typed types visible (.access subject key)
        (member.ty.substitute (bindPairs (decl.genericNames.zip args)))
  | caseOf {enumName case : Ident} {decl : EnumDecl}
      (declared : types.enums.find? enumName.name = some decl) (found : decl.hasCase case.name = true) :
      ExprKind.Typed types visible (.enumCase (some enumName) case) (.enum decl.name.name)
  | caseAlone {case : Ident} {decl : EnumDecl} (found : types.enumWithCase? case.name = some decl) :
      ExprKind.Typed types visible (.enumCase none case) (.enum decl.name.name)

/-- **Whether a call is bound to an overload that its arguments conform to**, position by position. -/
inductive Call.Typed (types : TypeTable) (visible : List LocalVariable) : Call Expr → Overload → Prop
  | mk {signature : Signature} {affix : Affix} {args : List Expr} {actuals : List Ty}
      {overload : Overload} (typed : ExprsTyped types visible args actuals)
      (conform : List.Forall₂ (fun actual param => types.lattice.isSubtype actual param = true)
        actuals overload.params) :
      Call.Typed types visible ⟨signature, affix, args, some overload⟩ overload

/-- Whether expressions carry their types. -/
inductive ExprsTyped (types : TypeTable) (visible : List LocalVariable) : List Expr → List Ty → Prop
  | nil : ExprsTyped types visible [] []
  | cons {expr : Expr} {exprs : List Expr} {ty : Ty} {exprTypes : List Ty}
      (first : Expr.Typed types visible expr ty) (rest : ExprsTyped types visible exprs exprTypes) :
      ExprsTyped types visible (expr :: exprs) (ty :: exprTypes)

end

/-! ## Statements -/

/-- **Whether an assignment is right**, and the variables visible after it. -/
inductive Assignment.Typed (types : TypeTable) (visible : List LocalVariable) :
    Assignment → List LocalVariable → Prop
  /-- A declaration with a type. The variable has that type. -/
  | declared {target : Variable} {value : Expr} {location : Location} {ty expected : Ty}
      (typed : Expr.Typed types visible value ty) (valued : ty.isVoid = false)
      (written : target.declaredType = some expected) (takes : types.lattice.Takes expected ty)
      (resolved : target.resolvedType = some expected) :
      Assignment.Typed types visible ⟨target, true, value, location⟩
        (⟨target.name.name, expected, target.mutable, target.name.location⟩ :: visible)
  /-- A declaration without a type. The variable has the type of the value. -/
  | inferred {target : Variable} {value : Expr} {location : Location} {ty : Ty}
      (typed : Expr.Typed types visible value ty) (valued : ty.isVoid = false)
      (written : target.declaredType = none) (resolved : target.resolvedType = some ty) :
      Assignment.Typed types visible ⟨target, true, value, location⟩
        (⟨target.name.name, ty, target.mutable, target.name.location⟩ :: visible)
  /-- A new value for a visible variable that may change. -/
  | reassigned {target : Variable} {value : Expr} {location : Location} {ty : Ty} {var : LocalVariable}
      (mem : var ∈ visible) (named : var.name = target.name.name) (mutable : var.mutable = true)
      (typed : Expr.Typed types visible value ty) (valued : ty.isVoid = false)
      (takes : types.lattice.Takes var.ty ty) (resolved : target.resolvedType = some var.ty) :
      Assignment.Typed types visible ⟨target, false, value, location⟩ visible

/-- Whether the tests of a guard carry their types. -/
def GuardTyped (types : TypeTable) (visible : List LocalVariable) (tests : List GuardTerm) : Prop :=
  ∃ testTypes, ExprsTyped types visible (tests.map (·.test)) testTypes

mutual

/-- **Whether a statement is right** in a body that may return what `expected` says, from the variables
visible before it to those visible after it. -/
inductive Stmt.Typed (types : TypeTable) (expected : Option Ty) :
    List LocalVariable → Stmt → List LocalVariable → Prop
  | assignment {visible after : List LocalVariable} {assigned : Assignment}
      (typed : Assignment.Typed types visible assigned after) :
      Stmt.Typed types expected visible (.assignment assigned) after
  | returnsNothing {visible : List LocalVariable} {location : Location}
      (returnable : Returnable expected .void) :
      Stmt.Typed types expected visible (.returns none location) visible
  | returns {visible : List LocalVariable} {value : Expr} {ty : Ty} {location : Location}
      (typed : Expr.Typed types visible value ty) (returnable : Returnable expected ty) :
      Stmt.Typed types expected visible (.returns (some value) location) visible
  /-- A call whose value would be dropped is no statement. -/
  | call {visible : List LocalVariable} {callee : Call Expr} {overload : Overload} {location : Location}
      (typed : Call.Typed types visible callee overload) (void : overload.returnType.isVoid = true) :
      Stmt.Typed types expected visible (.call callee location) visible
  | branch {visible : List LocalVariable} {choice : Branch}
      (typed : Branch.Typed types expected visible choice) :
      Stmt.Typed types expected visible (.branch choice) visible
  /-- What the block of a loop declares is not visible after it, and neither is the iterator. -/
  | forEach {visible inner : List LocalVariable} {iterator : Variable} {iterable : Expr}
      {args : List Ty} {nullable : Bool} {body : List Stmt} {location : Location}
      (typed : Expr.Typed types visible iterable (.app (.builtin .list) args nullable))
      (resolved : iterator.resolvedType = some (args.headD .any))
      (block : BlockTyped types expected
        (⟨iterator.name.name, args.headD .any, false, iterator.name.location⟩ :: visible) body inner) :
      Stmt.Typed types expected visible (.forEach iterator iterable body location) visible
  | whileTrue {visible inner : List LocalVariable} {tests : List GuardTerm} {body : List Stmt}
      {location : Location} (guard : GuardTyped types visible tests)
      (block : BlockTyped types expected visible body inner) :
      Stmt.Typed types expected visible (.whileTrue tests body location) visible
  | pass {visible : List LocalVariable} {location : Location} :
      Stmt.Typed types expected visible (.pass location) visible
  | hostCode {visible : List LocalVariable} {code : String} {location : Location} :
      Stmt.Typed types expected visible (.hostCode code location) visible

/-- Whether the statements of a block are right one after another. -/
inductive BlockTyped (types : TypeTable) (expected : Option Ty) :
    List LocalVariable → List Stmt → List LocalVariable → Prop
  | nil {visible : List LocalVariable} : BlockTyped types expected visible [] visible
  | cons {visible between after : List LocalVariable} {stmt : Stmt} {stmts : List Stmt}
      (first : Stmt.Typed types expected visible stmt between)
      (rest : BlockTyped types expected between stmts after) :
      BlockTyped types expected visible (stmt :: stmts) after

/-- Whether a branch is right, with what is tried otherwise. -/
inductive Branch.Typed (types : TypeTable) (expected : Option Ty) :
    List LocalVariable → Branch → Prop
  | last {visible inner : List LocalVariable} {tests : List GuardTerm} {body : List Stmt}
      {location : Location} (guard : GuardTyped types visible tests)
      (block : BlockTyped types expected visible body inner) :
      Branch.Typed types expected visible (.mk tests body none location)
  | otherwise {visible inner : List LocalVariable} {tests : List GuardTerm} {body : List Stmt}
      {next : Branch} {location : Location} (guard : GuardTyped types visible tests)
      (block : BlockTyped types expected visible body inner)
      (rest : Branch.Typed types expected visible next) :
      Branch.Typed types expected visible (.mk tests body (some next) location)

end

/-! ## Declarations -/

/-- **Whether the body of a declaration is right.** The body of an example may return anything. -/
def Decl.Typed (types : TypeTable) : Decl → Prop
  | .function decl =>
    ∃ after, BlockTyped types (some decl.returnType) (Param.variables decl.params) decl.body after
  | .exampleBlock decl => ∃ after, BlockTyped types none [] decl.body after
  | _ => True

end DeclCheck
