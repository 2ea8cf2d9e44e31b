import DeclCheck.Proofs.Locations.Tables

/-!
# Trees without locations

A tree before its check is known up to locations and up to what its slots hold; a checked tree is known up to
locations only. So the slots of a tree are kept or emptied while its locations are forgotten.
-/

namespace DeclCheck

/-- What becomes of the slots of a tree. -/
inductive Slots where
  | kept
  | emptied
  deriving DecidableEq, Repr

namespace Slots

/-- The slot, with its content written nowhere if it is kept. -/
def unplaced {α : Type} (change : α → α) : Slots → Option α → Option α
  | kept, slot => slot.map change
  | emptied, _ => none

end Slots

/-- The overload with types written nowhere. -/
def Overload.unplaced (overload : Overload) : Overload :=
  ⟨overload.params.map Ty.unplaced, overload.returnType.unplaced⟩

/-! ## Expressions -/

mutual

/-- **The expression without the places it was written at.** -/
def Expr.unplaced (slots : Slots) : Expr → Expr
  | .mk kind ty _ => .mk (kind.unplaced slots) (slots.unplaced Ty.unplaced ty) .nowhere

/-- What the expression is, written nowhere. -/
def ExprKind.unplaced (slots : Slots) : ExprKind → ExprKind
  | .number literal => .number literal
  | .string text => .string text
  | .boolean value => .boolean value
  | .nil => .nil
  | .variable name => .variable name.unplaced
  | .call callee => .call (callee.unplaced slots)
  | .list items => .list (Expr.allUnplaced slots items)
  | .tuple items => .tuple (Expr.allUnplaced slots items)
  | .object ctor members => .object ctor.unplaced (Expr.membersUnplaced slots members)
  | .access subject key => .access (subject.unplaced slots) key.unplaced
  | .enumCase enumName case => .enumCase (enumName.map Ident.unplaced) case.unplaced

/-- The call written nowhere. -/
def Call.unplaced (slots : Slots) : Call Expr → Call Expr
  | ⟨signature, affix, args, resolved⟩ =>
    ⟨signature.map Ident.unplaced, affix, Expr.allUnplaced slots args, slots.unplaced Overload.unplaced resolved⟩

/-- Several expressions written nowhere. -/
def Expr.allUnplaced (slots : Slots) : List Expr → List Expr
  | [] => []
  | expr :: rest => expr.unplaced slots :: Expr.allUnplaced slots rest

/-- The members of a struct literal written nowhere. -/
def Expr.membersUnplaced (slots : Slots) : List (MemberValue Expr) → List (MemberValue Expr)
  | [] => []
  | ⟨member, value⟩ :: rest => ⟨member.unplaced, value.unplaced slots⟩ :: Expr.membersUnplaced slots rest

end

/-- No place is left in an expression. -/
@[simp] theorem Expr.location_unplaced (slots : Slots) (expr : Expr) : (expr.unplaced slots).location = .nowhere := by
  cases expr
  rfl

/-- No expression is lost with its place. -/
@[simp] theorem Expr.length_allUnplaced (slots : Slots) (exprs : List Expr) :
    (Expr.allUnplaced slots exprs).length = exprs.length := by
  induction exprs with
  | nil => rfl
  | cons expr rest ih => rw [allUnplaced, List.length_cons, ih, List.length_cons]

/-! ## Statements -/

/-- The variable written nowhere. -/
def Variable.unplaced (slots : Slots) (var : Variable) : Variable where
  name := var.name.unplaced
  declaredType := var.declaredType.map Ty.unplaced
  mutable := var.mutable
  resolvedType := slots.unplaced Ty.unplaced var.resolvedType

/-- The test written nowhere. -/
def GuardTerm.unplaced (slots : Slots) (term : GuardTerm) : GuardTerm :=
  ⟨term.junction, term.test.unplaced slots⟩

/-- The assignment written nowhere. -/
def Assignment.unplaced (slots : Slots) (assigned : Assignment) : Assignment where
  target := assigned.target.unplaced slots
  isDeclaration := assigned.isDeclaration
  value := assigned.value.unplaced slots
  location := .nowhere

mutual

/-- **The statement without the places it was written at.** -/
def Stmt.unplaced (slots : Slots) : Stmt → Stmt
  | .assignment assigned => .assignment (assigned.unplaced slots)
  | .returns none _ => .returns none .nowhere
  | .returns (some value) _ => .returns (some (value.unplaced slots)) .nowhere
  | .call callee _ => .call (callee.unplaced slots) .nowhere
  | .branch choice => .branch (choice.unplaced slots)
  | .forEach iterator iterable body _ =>
    .forEach (iterator.unplaced slots) (iterable.unplaced slots) (Stmt.allUnplaced slots body) .nowhere
  | .whileTrue tests body _ =>
    .whileTrue (tests.map (GuardTerm.unplaced slots)) (Stmt.allUnplaced slots body) .nowhere
  | .pass _ => .pass .nowhere
  | .hostCode code _ => .hostCode code .nowhere

/-- The block written nowhere. -/
def Stmt.allUnplaced (slots : Slots) : List Stmt → List Stmt
  | [] => []
  | stmt :: rest => stmt.unplaced slots :: Stmt.allUnplaced slots rest

/-- The branch written nowhere, with what is tried otherwise. -/
def Branch.unplaced (slots : Slots) : Branch → Branch
  | .mk tests body none _ =>
    .mk (tests.map (GuardTerm.unplaced slots)) (Stmt.allUnplaced slots body) none .nowhere
  | .mk tests body (some otherwise) _ =>
    .mk (tests.map (GuardTerm.unplaced slots)) (Stmt.allUnplaced slots body) (some (otherwise.unplaced slots)) .nowhere

end

/-! ## Declarations and units -/

/-- The function written nowhere. -/
def FunctionDecl.unplaced (slots : Slots) (decl : FunctionDecl) : FunctionDecl :=
  decl.unplacedWith (Stmt.allUnplaced slots decl.body)

/-- The import written nowhere. -/
def ImportDecl.unplaced (decl : ImportDecl) : ImportDecl := ⟨decl.filename.unplaced, decl.origin, .nowhere⟩

/-- The example written nowhere. -/
def ExampleDecl.unplaced (slots : Slots) (decl : ExampleDecl) : ExampleDecl :=
  ⟨Stmt.allUnplaced slots decl.body, decl.origin, .nowhere⟩

namespace Decl

/-- **The declaration without the places it was written at.** -/
def unplaced (slots : Slots) : Decl → Decl
  | .function decl => .function (decl.unplaced slots)
  | .struct decl => .struct decl.unplaced
  | .enum decl => .enum decl.unplaced
  | .group decl => .group decl.unplaced
  | .binding decl => .binding decl.unplaced
  | .importing decl => .importing decl.unplaced
  | .exampleBlock decl => .exampleBlock (decl.unplaced slots)

@[simp] theorem origin_unplaced (slots : Slots) (decl : Decl) : (decl.unplaced slots).origin = decl.origin := by
  cases decl <;> rfl

@[simp] theorem withOrigin_unplaced (slots : Slots) (origin : String) (decl : Decl) :
    (decl.unplaced slots).withOrigin origin = (decl.withOrigin origin).unplaced slots := by
  cases decl <;> rfl

end Decl

namespace SourceUnit

/-- **The unit without places.** Its name and its text stay. -/
def unplaced (slots : Slots) (unit : SourceUnit) : SourceUnit :=
  { unit with declarations := unit.declarations.map (Decl.unplaced slots) }

/-- Origins are no places: it does not matter when they are filled in. -/
theorem withOrigins_unplaced (slots : Slots) (unit : SourceUnit) :
    (unit.unplaced slots).withOrigins = unit.withOrigins.unplaced slots := by
  simp only [withOrigins, unplaced, List.map_map]
  congr 2
  funext decl
  simp only [Function.comp_apply, Decl.origin_unplaced, Decl.withOrigin_unplaced]
  split <;> rfl

end SourceUnit

end DeclCheck
