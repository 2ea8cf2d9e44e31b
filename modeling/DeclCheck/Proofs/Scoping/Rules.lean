import DeclCheck.Tree.Decl

/-!
# Scoping rules

When a tree with its slots filled is lexically scoped, said without the checker. What is visible at a place is a
list of introductions, all of them parts of the tree: the parameters of the function, and the declarations and
iterators that stand before the place in its own block or in a block around it. Blocks of branches and loops see
what is visible where they begin, and nothing of them is visible after them.

The rules are about names alone: what type a variable has takes no part in them.
-/

namespace DeclCheck

/-- **A part of the tree that introduces a variable.** -/
inductive Introduction where
  | parameter (param : Param)
  | declaration (target : Variable)
  | iterator (target : Variable)

namespace Introduction

/-- The name of the variable. -/
def name : Introduction → String
  | parameter param => param.name.name
  | declaration target => target.name.name
  | iterator target => target.name.name

/-- The type of the variable, once it is found. -/
def ty? : Introduction → Option Ty
  | parameter param => some param.ty
  | declaration target => target.resolvedType
  | iterator target => target.resolvedType

/-- Whether the variable may be given another value. An iterator never may. -/
def isMutable : Introduction → Bool
  | parameter param => param.mutable
  | declaration target => target.mutable
  | iterator _ => false

/-- Whether a name is introduced once among the visible introductions, by the given one. -/
def IsTheOne (introduction : Introduction) (visible : List Introduction) (name : String) : Prop :=
  visible.filter (·.name == name) = [introduction]

/-- Whether a name is not introduced among the visible introductions. -/
def Unseen (visible : List Introduction) (name : String) : Prop :=
  ∀ introduction ∈ visible, introduction.name ≠ name

end Introduction

open Introduction (IsTheOne Unseen)

/-! ## Expressions -/

mutual

/-- **Whether every variable of an expression has the type of the one introduction of its name.** -/
def Expr.Scoped (visible : List Introduction) : Expr → Prop
  | .mk kind slot _ => kind.Scoped visible slot

/-- Whether what an expression is is scoped. The slot is that of the expression. -/
def ExprKind.Scoped (visible : List Introduction) (slot : Option Ty) : ExprKind → Prop
  | .variable ident => ∃ (introduction : Introduction) (ty : Ty),
      introduction.IsTheOne visible ident.name ∧ introduction.ty? = some ty ∧ slot = some ty
  | .call callee => callee.Scoped visible
  | .list items => Expr.AllScoped visible items
  | .tuple items => Expr.AllScoped visible items
  | .object _ members => Expr.MembersScoped visible members
  | .access subject _ => subject.Scoped visible
  | _ => True

/-- Whether the arguments of a call are scoped. -/
def Call.Scoped (visible : List Introduction) : Call Expr → Prop
  | ⟨_, _, args, _⟩ => Expr.AllScoped visible args

/-- Whether several expressions are scoped. -/
def Expr.AllScoped (visible : List Introduction) : List Expr → Prop
  | [] => True
  | expr :: rest => expr.Scoped visible ∧ Expr.AllScoped visible rest

/-- Whether the values of a struct literal are scoped. -/
def Expr.MembersScoped (visible : List Introduction) : List (MemberValue Expr) → Prop
  | [] => True
  | ⟨_, value⟩ :: rest => value.Scoped visible ∧ Expr.MembersScoped visible rest

end

/-! ## Statements -/

/-- **Whether an assignment is scoped.** A declaration introduces an unseen name, which its own value does not see.
Any other assignment is to the one visible variable of the name, which may change, and has its type. -/
def Assignment.Scoped (visible : List Introduction) (assigned : Assignment) : Prop :=
  assigned.value.Scoped visible ∧
    if assigned.isDeclaration then Unseen visible assigned.target.name.name
    else ∃ (introduction : Introduction) (ty : Ty), introduction.IsTheOne visible assigned.target.name.name ∧
      introduction.isMutable = true ∧ introduction.ty? = some ty ∧ assigned.target.resolvedType = some ty

/-- Whether the tests of a guard are scoped. -/
def GuardTerm.AllScoped (visible : List Introduction) (tests : List GuardTerm) : Prop :=
  ∀ term ∈ tests, term.test.Scoped visible

/-- What a statement introduces for those after it in the same block. -/
def Stmt.introduced : Stmt → List Introduction
  | .assignment assigned => if assigned.isDeclaration then [.declaration assigned.target] else []
  | _ => []

mutual

/-- **Whether a statement is scoped** where the given introductions are visible. -/
def Stmt.Scoped (visible : List Introduction) : Stmt → Prop
  | .assignment assigned => assigned.Scoped visible
  | .returns none _ => True
  | .returns (some value) _ => value.Scoped visible
  | .call callee _ => callee.Scoped visible
  | .branch choice => choice.Scoped visible
  | .forEach iterator iterable body _ =>
    iterable.Scoped visible ∧ Unseen visible iterator.name.name ∧
      Stmt.BlockScoped (.iterator iterator :: visible) body
  | .whileTrue tests body _ => GuardTerm.AllScoped visible tests ∧ Stmt.BlockScoped visible body
  | .pass _ => True
  | .hostCode _ _ => True

/-- Whether the statements of a block are scoped, each where those before it are visible. -/
def Stmt.BlockScoped (visible : List Introduction) : List Stmt → Prop
  | [] => True
  | stmt :: rest => stmt.Scoped visible ∧ Stmt.BlockScoped (stmt.introduced ++ visible) rest

/-- Whether a branch is scoped, with what is tried otherwise. -/
def Branch.Scoped (visible : List Introduction) : Branch → Prop
  | .mk tests body none _ => GuardTerm.AllScoped visible tests ∧ Stmt.BlockScoped visible body
  | .mk tests body (some otherwise) _ =>
    GuardTerm.AllScoped visible tests ∧ Stmt.BlockScoped visible body ∧ otherwise.Scoped visible

end

/-! ## Declarations -/

/-- What the parameters of a function introduce, the last one first. -/
def Param.introductions (params : List Param) : List Introduction :=
  (params.map Introduction.parameter).reverse

/-- **Whether the body of a declaration is scoped**: that of a function under its parameters, whose names differ,
and that of an example where nothing is visible. -/
def Decl.Scoped : Decl → Prop
  | .function decl =>
    (decl.params.map (·.name.name)).Nodup ∧ Stmt.BlockScoped (Param.introductions decl.params) decl.body
  | .exampleBlock decl => Stmt.BlockScoped [] decl.body
  | _ => True

end DeclCheck
