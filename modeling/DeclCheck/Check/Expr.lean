import DeclCheck.Check.Literal

/-!
# Checking expressions

`Check.expr` finds the type of an expression and fills the slots of the expression and of everything
inside it. Parts are walked from left to right, and the first error ends the walk.
-/

namespace DeclCheck

namespace Check

/-- The type that all elements of a list share, once one more element is known. The first element
decides. -/
def commonType (expected : Option Ty) (position : Nat) (actual : Ty) (location : Location) :
    Except Error Ty :=
  match expected with
  | none => .ok actual
  | some first =>
    if first.equals actual then .ok first
    else refuse (.mixedList position first actual) location

mutual

/-- **Find the type of an expression and note it on the expression.** -/
def expr (env : Env) : Expr → Check (Ty × Expr)
  | .mk kind _ location => do
    let (ty, kind) ← exprKind env location kind
    return (ty, .mk kind (some ty) location)

/-- The type of what an expression is. The location is that of the expression. -/
def exprKind (env : Env) (location : Location) : ExprKind → Check (Ty × ExprKind)
  | .number literal => return (numberType literal, .number literal)
  | .string text => return (Ty.builtin .string, .string text)
  | .boolean value => return (Ty.boolean, .boolean value)
  | .nil => return (Ty.nil, .nil)
  | .variable ident => do
    let ty ← variableType ident
    return (ty, .variable ident)
  | .call callee => do
    let (ty, callee) ← call env location callee
    return (ty, .call callee)
  | .list items => do
    let (first, items) ← elements env none 1 items
    return (Ty.list (first.getD Ty.any), .list items)
  | .tuple items => do
    let (types, items) ← exprs env items
    return (Ty.tuple types, .tuple items)
  | .object ctor members => do
    let literal ← Check.decide (Literal.start env ctor location)
    let (literal, members) ← memberValues env literal members
    let ty ← Check.decide (literal.finish location)
    return (ty, .object ty members)
  | .access subject key => do
    let (subjectType, subject) ← expr env subject
    let ty ← Check.decide (memberType env subjectType subject.location key)
    return (ty, .access subject key)
  | .enumCase enumName case => do
    let ty ← Check.decide (enumCaseType env enumName case)
    return (ty, .enumCase enumName case)

/-- Walk the arguments of a call, then bind it to an overload. The type is the return type of the
overload. A call without a place of its own stands where its first token does. -/
def call (env : Env) (location : Location) : Call Expr → Check (Ty × Call Expr)
  | ⟨signature, affix, args, _⟩ => do
    let (actuals, args) ← exprs env args
    let decl ← bindCall env (.ofSignature signature args.length) (signature.shown affix) actuals
      (location.orElse signature.location)
    return (decl.returnType, ⟨signature, affix, args, some ⟨decl.paramTypes, decl.returnType⟩⟩)

/-- Walk several expressions. -/
def exprs (env : Env) : List Expr → Check (List Ty × List Expr)
  | [] => return ([], [])
  | first :: rest => do
    let (ty, first) ← expr env first
    let (types, rest) ← exprs env rest
    return (ty :: types, first :: rest)

/-- Walk the elements of a list from a position on, and compare each with the first one. -/
def elements (env : Env) (expected : Option Ty) (position : Nat) :
    List Expr → Check (Option Ty × List Expr)
  | [] => return (expected, [])
  | item :: rest => do
    let (actual, item) ← expr env item
    let first ← Check.decide (commonType expected position actual item.location)
    let (common, rest) ← elements env (some first) (position + 1) rest
    return (common, item :: rest)

/-- Walk the members of a struct literal. -/
def memberValues (env : Env) (literal : Literal) :
    List (MemberValue Expr) → Check (Literal × List (MemberValue Expr))
  | [] => return (literal, [])
  | ⟨member, value⟩ :: rest => do
    let declared ← Check.decide (literal.claim member)
    let (actual, value) ← expr env value
    let literal ← Check.decide (literal.accept env declared actual value.location)
    let (literal, rest) ← memberValues env literal rest
    return (literal, ⟨member, value⟩ :: rest)

end

end Check

end DeclCheck
