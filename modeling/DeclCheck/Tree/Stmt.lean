import DeclCheck.Tree.Expr

/-!
# Statements

The statements of function bodies and example blocks. A guard is a chain of tests joined by `and` and
`or`; the chain of an `else` is empty.
-/

namespace DeclCheck

/-- The variable side of an assignment, or the iterator of a loop. -/
structure Variable where
  name : Ident
  declaredType : Option Ty
  mutable : Bool
  /-- Filled by the checker. -/
  resolvedType : Option Ty
  deriving Repr, Inhabited

/-- How a test is joined to the tests before it. -/
inductive Junction where
  | and
  | or
  deriving DecidableEq, Repr, Inhabited

/-- One test of a guard. -/
structure GuardTerm where
  junction : Option Junction
  test : Expr
  deriving Repr, Inhabited

/-- An assignment. It introduces a variable when it is a declaration, and rebinds one otherwise. -/
structure Assignment where
  target : Variable
  isDeclaration : Bool
  value : Expr
  location : Location
  deriving Repr, Inhabited

mutual

/-- **A statement.** -/
inductive Stmt where
  | assignment (assignment : Assignment)
  | returns (value : Option Expr) (location : Location)
  /-- A call made for its effects. -/
  | call (call : Call Expr) (location : Location)
  | branch (branch : Branch)
  | forEach (iterator : Variable) (iterable : Expr) (body : List Stmt) (location : Location)
  | whileTrue (guard : List GuardTerm) (body : List Stmt) (location : Location)
  | pass (location : Location)
  /-- Code of the host platform, taken verbatim. -/
  | hostCode (code : String) (location : Location)

/-- A guarded block and what is tried when its guard fails. -/
inductive Branch where
  | mk (guard : List GuardTerm) (body : List Stmt) (otherwise : Option Branch) (location : Location)

end

deriving instance Repr for Stmt

instance : Inhabited Stmt := ⟨.pass .nowhere⟩

end DeclCheck
