import DeclCheck.Tree.Decl

/-!
# Filled slots

When a tree is completely annotated: every slot that the checker fills is filled, and every type in it that
the checker resolves is resolved. These are functions on trees, to be evaluated on what a session returns.
The type written with the target of a mere reassignment or with an iterator is no part of it, for nothing
reads it.
-/

namespace DeclCheck

/-- Whether a call was bound to an overload with resolved types. -/
def Overload.isResolved (overload : Overload) : Bool :=
  Ty.allResolved overload.params && overload.returnType.isResolved

mutual

/-- **Whether an expression and everything inside it carries a resolved type.** -/
def Expr.isAnnotated : Expr → Bool
  | .mk kind slot _ => slot.any Ty.isResolved && kind.isAnnotated

/-- Whether everything inside an expression is annotated. -/
def ExprKind.isAnnotated : ExprKind → Bool
  | .call callee => callee.isAnnotated
  | .list items => Expr.allAnnotated items
  | .tuple items => Expr.allAnnotated items
  | .object ctor members => ctor.isResolved && Expr.membersAnnotated members
  | .access subject _ => subject.isAnnotated
  | _ => true

/-- Whether a call carries a resolved overload and annotated arguments. -/
def Call.isAnnotated : Call Expr → Bool
  | ⟨_, _, args, slot⟩ => slot.any Overload.isResolved && Expr.allAnnotated args

/-- Whether several expressions are annotated. -/
def Expr.allAnnotated : List Expr → Bool
  | [] => true
  | expr :: rest => expr.isAnnotated && Expr.allAnnotated rest

/-- Whether the values of a struct literal are annotated. -/
def Expr.membersAnnotated : List (MemberValue Expr) → Bool
  | [] => true
  | ⟨_, value⟩ :: rest => value.isAnnotated && Expr.membersAnnotated rest

end

/-- Whether an assignment has an annotated value, a target with a resolved type, and no written type left
in a declaration. -/
def Assignment.isAnnotated (assigned : Assignment) : Bool :=
  assigned.value.isAnnotated && assigned.target.resolvedType.any Ty.isResolved &&
    (!assigned.isDeclaration || assigned.target.declaredType.all Ty.isResolved)

/-- Whether the tests of a guard are annotated. -/
def GuardTerm.allAnnotated (tests : List GuardTerm) : Bool := tests.all (·.test.isAnnotated)

mutual

/-- **Whether a statement and everything inside it is annotated.** -/
def Stmt.isAnnotated : Stmt → Bool
  | .assignment assigned => assigned.isAnnotated
  | .returns value _ => value.all Expr.isAnnotated
  | .call callee _ => callee.isAnnotated
  | .branch choice => choice.isAnnotated
  | .forEach iterator iterable body _ =>
    iterator.resolvedType.any Ty.isResolved && iterable.isAnnotated && Stmt.allAnnotated body
  | .whileTrue tests body _ => GuardTerm.allAnnotated tests && Stmt.allAnnotated body
  | .pass _ => true
  | .hostCode _ _ => true

/-- Whether the statements of a block are annotated. -/
def Stmt.allAnnotated : List Stmt → Bool
  | [] => true
  | stmt :: rest => stmt.isAnnotated && Stmt.allAnnotated rest

/-- Whether a branch is annotated, with what is tried otherwise. -/
def Branch.isAnnotated : Branch → Bool
  | .mk tests body none _ => GuardTerm.allAnnotated tests && Stmt.allAnnotated body
  | .mk tests body (some otherwise) _ =>
    GuardTerm.allAnnotated tests && Stmt.allAnnotated body && otherwise.isAnnotated

end

/-! ## Declarations -/

/-- What a call that is bound to a function carries of it. -/
def FunctionDecl.overload (decl : FunctionDecl) : Overload := ⟨decl.paramTypes, decl.returnType⟩

/-- Whether the types of a signature are resolved: parameters, return type, and the restrictions of
generic parameters. -/
def FunctionDecl.hasResolvedSignature (decl : FunctionDecl) : Bool :=
  decl.overload.isResolved && decl.generics.all (·.constraint.all Ty.isResolved)

/-- Whether the members of a struct have resolved types. -/
def StructDecl.hasResolvedMembers (decl : StructDecl) : Bool := decl.members.all (·.ty.isResolved)

/-- Whether both types of a group binding are resolved. -/
def GroupBinding.isResolved (binding : GroupBinding) : Bool :=
  binding.child.isResolved && binding.parent.isResolved

namespace Decl

/-- Whether the types of a declaration that is a group binding are resolved. -/
def hasResolvedBinding : Decl → Bool
  | .binding decl => decl.isResolved
  | _ => true

/-- Whether the member types of a declaration that is a struct are resolved. -/
def hasResolvedMembers : Decl → Bool
  | .struct decl => decl.hasResolvedMembers
  | _ => true

/-- Whether the types in the signature of a declaration that is a function are resolved. -/
def hasResolvedSignature : Decl → Bool
  | .function decl => decl.hasResolvedSignature
  | _ => true

/-- Whether the body of a declaration that has one is annotated. -/
def hasAnnotatedBody : Decl → Bool
  | .function decl => Stmt.allAnnotated decl.body
  | .exampleBlock decl => Stmt.allAnnotated decl.body
  | _ => true

/-- **Whether a declaration is completely annotated.** -/
def isAnnotated (decl : Decl) : Bool :=
  decl.hasResolvedBinding && decl.hasResolvedMembers && decl.hasResolvedSignature &&
    decl.hasAnnotatedBody

end Decl

end DeclCheck
