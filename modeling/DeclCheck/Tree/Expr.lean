import DeclCheck.Tree.Basic

/-!
# Expressions

Expressions arrive from the parser with their type slot empty. The checker fills the slot of every
expression, and the overload slot of every call.
-/

namespace DeclCheck

/-- The overload a call was bound to: its parameter types and its return type. -/
structure Overload where
  params : List Ty
  returnType : Ty
  deriving Repr, Inhabited

/-- **A function call.** `ε` is the type of its arguments; a call is a part of expressions and of
statements alike. -/
structure Call (ε : Type) where
  signature : Signature
  affix : Affix
  args : List ε
  /-- Filled by overload resolution. -/
  resolved : Option Overload
  deriving Repr

namespace Call

variable {ε : Type}

/-- The key of the overloads that the call may be bound to. -/
def key (call : Call ε) : FunctionKey := .ofSignature call.signature call.args.length

/-- How the call looks. -/
def shown (call : Call ε) : String := call.signature.shown call.affix

/-- Where the call was written: at its first token. -/
def location (call : Call ε) : Location := call.signature.location

end Call

/-- One member given in a struct literal. -/
structure MemberValue (ε : Type) where
  member : Ident
  value : ε
  deriving Repr

mutual

/-- **An expression**: what it is, the type found for it, and where it was written. -/
inductive Expr where
  | mk (kind : ExprKind) (ty : Option Ty) (location : Location)

/-- What an expression is. -/
inductive ExprKind where
  /-- A numeric literal as written. -/
  | number (literal : String)
  | string (text : String)
  | boolean (value : Bool)
  | nil
  | variable (name : Ident)
  | call (call : Call Expr)
  | list (items : List Expr)
  | tuple (items : List Expr)
  /-- A struct literal. -/
  | object (ctor : Ty) (members : List (MemberValue Expr))
  /-- Access to a member of a struct value. -/
  | access (subject : Expr) (key : Ident)
  /-- A case of an enum, named with its enum or alone. -/
  | enumCase (enumName : Option Ident) (case : Ident)

end

deriving instance Repr for Expr

namespace Expr

/-- What the expression is. -/
def kind : Expr → ExprKind
  | mk kind _ _ => kind

/-- The type found for the expression. -/
def ty : Expr → Option Ty
  | mk _ ty _ => ty

/-- Where the expression was written. -/
def location : Expr → Location
  | mk _ _ location => location

instance : Inhabited Expr := ⟨mk .nil none .nowhere⟩

end Expr

end DeclCheck
