import DeclCheck.Symbols.Types

/-!
# What a walk notes on a tree

All that matters to placeholders in a checked body, collected in one list: the types noted on expressions and
variables, the overloads that calls are bound to, and the types of the values whose members are accessed. Calls
and accesses are where a body may come to mention placeholders of another declaration.
-/

namespace DeclCheck

/-- **What is noted at one place of a checked body.** -/
inductive Note where
  /-- The type found for an expression, or resolved for a variable. -/
  | typed (ty : Ty)
  /-- The overload that a call is bound to, and the types of the arguments. -/
  | bound (overload : Overload) (actuals : List Ty)
  /-- The type of a value whose member is accessed, and the name of the member. -/
  | accessed (subject : Ty) (key : Ident)
  deriving Repr

/-! ## Expressions -/

mutual

/-- The notes on an expression and everything inside it. -/
def Expr.notes : Expr → List Note
  | .mk kind slot _ => slot.toList.map .typed ++ kind.notes

/-- The notes on everything inside an expression. -/
def ExprKind.notes : ExprKind → List Note
  | .call callee => callee.notes
  | .list items => Expr.allNotes items
  | .tuple items => Expr.allNotes items
  | .object _ members => Expr.memberNotes members
  | .access subject key => subject.ty.toList.map (.accessed · key) ++ subject.notes
  | _ => []

/-- The notes on a call and its arguments. -/
def Call.notes : Call Expr → List Note
  | ⟨_, _, args, slot⟩ =>
    slot.toList.map (.bound · (args.filterMap Expr.ty)) ++ Expr.allNotes args

/-- The notes on several expressions. -/
def Expr.allNotes : List Expr → List Note
  | [] => []
  | expr :: rest => expr.notes ++ Expr.allNotes rest

/-- The notes on the values of a struct literal. -/
def Expr.memberNotes : List (MemberValue Expr) → List Note
  | [] => []
  | ⟨_, value⟩ :: rest => value.notes ++ Expr.memberNotes rest

end

/-! ## Statements -/

/-- The note on a variable. -/
def Variable.notes (var : Variable) : List Note := var.resolvedType.toList.map .typed

/-- The notes on an assignment. -/
def Assignment.notes (assigned : Assignment) : List Note := assigned.target.notes ++ assigned.value.notes

/-- The notes on the tests of a guard. -/
def GuardTerm.allNotes (tests : List GuardTerm) : List Note := tests.flatMap (·.test.notes)

mutual

/-- The notes on a statement and everything inside it. -/
def Stmt.notes : Stmt → List Note
  | .assignment assigned => assigned.notes
  | .returns none _ => []
  | .returns (some value) _ => value.notes
  | .call callee _ => callee.notes
  | .branch choice => choice.notes
  | .forEach iterator iterable body _ => iterator.notes ++ iterable.notes ++ Stmt.allNotes body
  | .whileTrue tests body _ => GuardTerm.allNotes tests ++ Stmt.allNotes body
  | .pass _ => []
  | .hostCode _ _ => []

/-- The notes on the statements of a block. -/
def Stmt.allNotes : List Stmt → List Note
  | [] => []
  | stmt :: rest => stmt.notes ++ Stmt.allNotes rest

/-- The notes on a branch, with what is tried otherwise. -/
def Branch.notes : Branch → List Note
  | .mk tests body none _ => GuardTerm.allNotes tests ++ Stmt.allNotes body
  | .mk tests body (some otherwise) _ =>
    GuardTerm.allNotes tests ++ Stmt.allNotes body ++ otherwise.notes

end

/-! ## Declarations -/

namespace Decl

/-- The notes on the body of a declaration that has one. -/
def notes : Decl → List Note
  | .function decl => Stmt.allNotes decl.body
  | .exampleBlock decl => Stmt.allNotes decl.body
  | _ => []

/-- The placeholders that a declaration introduces to its body. -/
def placeholders : Decl → List String
  | .function decl => decl.genericNames
  | _ => []

end Decl

/-! ## Leaks -/

/-- **Whether a struct type gives no argument for a placeholder that one of its members mentions.** -/
def Ty.LeavesOpen (types : TypeTable) (key : Ident) (name : String) (ty : Ty) : Prop :=
  ∃ struct args nullable decl member, ty = .app (.struct struct) args nullable ∧
    types.structs.find? struct = some decl ∧ decl.member? key.name = some member ∧
    name ∈ member.ty.genericNames ∧ name ∉ decl.genericNames.take args.length

/-- **Whether a placeholder comes into a body at a place.** Either a call is bound to an overload that returns the
placeholder and still mentions it in a parameter type, while no argument mentions it; or a member that mentions the
placeholder is accessed of a struct type that leaves it open. -/
def Note.Leaks (types : TypeTable) (name : String) : Note → Prop
  | .typed _ => False
  | .bound overload actuals =>
    name ∈ overload.returnType.genericNames ∧ (∃ param ∈ overload.params, name ∈ param.genericNames) ∧
      ∀ actual ∈ actuals, name ∉ actual.genericNames
  | .accessed subject key => subject.LeavesOpen types key name

end DeclCheck
