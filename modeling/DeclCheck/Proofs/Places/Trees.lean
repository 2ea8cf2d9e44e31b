import DeclCheck.Tree.Decl

/-!
# The places of a tree

The places that a unit names: where its declarations, identifiers, written types, statements and expressions stand. The
slots that the checker fills do not count, since no source text spells them.
-/

namespace DeclCheck

/-! ## Types -/

mutual

/-- **The places of a type**, those of its arguments included. Only written names and placeholders have one. -/
def Ty.places : Ty → List Location
  | .atom (.generic _ location) _ => [location]
  | .atom _ _ => []
  | .app (.unresolved _ location) args _ => location :: Ty.allPlaces args
  | .app _ args _ => Ty.allPlaces args

/-- The places of several types. -/
def Ty.allPlaces : List Ty → List Location
  | [] => []
  | ty :: rest => ty.places ++ Ty.allPlaces rest

end

/-- The places of a type that need not be there. -/
def Ty.optionalPlaces (ty : Option Ty) : List Location := (ty.map Ty.places).getD []

/-! ## Expressions -/

mutual

/-- **The places of an expression**, its own first. -/
def Expr.places : Expr → List Location
  | .mk kind _ location => location :: kind.places

/-- The places inside an expression. -/
def ExprKind.places : ExprKind → List Location
  | .number _ | .string _ | .boolean _ | .nil => []
  | .variable ident => [ident.location]
  | .call callee => callee.places
  | .list items => Expr.allPlaces items
  | .tuple items => Expr.allPlaces items
  | .object ctor members => ctor.places ++ Expr.memberPlaces members
  | .access subject key => key.location :: subject.places
  | .enumCase none case => [case.location]
  | .enumCase (some enumName) case => [enumName.location, case.location]

/-- The places of a call: those of its tokens and of its arguments. -/
def Call.places : Call Expr → List Location
  | ⟨signature, _, args, _⟩ => signature.map (·.location) ++ Expr.allPlaces args

/-- The places of several expressions. -/
def Expr.allPlaces : List Expr → List Location
  | [] => []
  | expr :: rest => expr.places ++ Expr.allPlaces rest

/-- The places of the members given in a struct literal. -/
def Expr.memberPlaces : List (MemberValue Expr) → List Location
  | [] => []
  | ⟨member, value⟩ :: rest => member.location :: value.places ++ Expr.memberPlaces rest

end

/-! ## Statements -/

/-- The places of a variable that is declared or assigned. -/
def Variable.places (target : Variable) : List Location :=
  target.name.location :: Ty.optionalPlaces target.declaredType

/-- The places of an assignment. -/
def Assignment.places (assigned : Assignment) : List Location :=
  assigned.location :: assigned.target.places ++ assigned.value.places

/-- The places of the tests of a guard. -/
def GuardTerm.allPlaces (tests : List GuardTerm) : List Location := tests.flatMap (·.test.places)

mutual

/-- **The places of a statement.** -/
def Stmt.places : Stmt → List Location
  | .assignment assigned => assigned.places
  | .returns none location => [location]
  | .returns (some value) location => location :: value.places
  | .call callee location => location :: callee.places
  | .branch choice => choice.places
  | .forEach iterator iterable body location =>
    location :: iterator.places ++ iterable.places ++ Stmt.allPlaces body
  | .whileTrue tests body location => location :: GuardTerm.allPlaces tests ++ Stmt.allPlaces body
  | .pass location => [location]
  | .hostCode _ location => [location]

/-- The places of a block. -/
def Stmt.allPlaces : List Stmt → List Location
  | [] => []
  | stmt :: rest => stmt.places ++ Stmt.allPlaces rest

/-- The places of a branch and of what is tried otherwise. -/
def Branch.places : Branch → List Location
  | .mk tests body none location => location :: GuardTerm.allPlaces tests ++ Stmt.allPlaces body
  | .mk tests body (some otherwise) location =>
    location :: GuardTerm.allPlaces tests ++ Stmt.allPlaces body ++ otherwise.places

end

/-! ## Declarations -/

/-- The places of a parameter. -/
def Param.places (param : Param) : List Location := param.name.location :: param.ty.places

/-- The places of a generic parameter. -/
def GenericParam.places (generic : GenericParam) : List Location :=
  generic.name.location :: Ty.optionalPlaces generic.constraint

/-- The places of a function. -/
def FunctionDecl.places (decl : FunctionDecl) : List Location :=
  decl.location :: decl.signature.map (·.location) ++ decl.generics.flatMap GenericParam.places ++
    decl.params.flatMap Param.places ++ decl.returnType.places ++ Stmt.allPlaces decl.body

/-- The places of a member of a struct. -/
def Member.places (member : Member) : List Location := member.name.location :: member.ty.places

/-- The places of a struct. -/
def StructDecl.places (decl : StructDecl) : List Location :=
  decl.location :: decl.name.location :: decl.generics.map (·.location) ++ decl.members.flatMap Member.places

/-- **The places of a declaration.** -/
def Decl.places : Decl → List Location
  | .function decl => decl.places
  | .struct decl => decl.places
  | .enum decl => decl.location :: decl.name.location :: decl.cases.map (·.location)
  | .group decl => [decl.location, decl.name.location]
  | .binding decl => decl.location :: decl.child.places ++ decl.parent.places
  | .importing decl => [decl.location, decl.filename.location]
  | .exampleBlock decl => decl.location :: Stmt.allPlaces decl.body

theorem Decl.places_withOrigin (origin : String) (decl : Decl) : (decl.withOrigin origin).places = decl.places := by
  cases decl <;> rfl

/-- **The places of a unit.** -/
def SourceUnit.places (unit : SourceUnit) : List Location := unit.declarations.flatMap Decl.places

/-- Origins are no places. -/
theorem SourceUnit.places_withOrigins (unit : SourceUnit) : unit.withOrigins.places = unit.places := by
  simp only [places, withOrigins, List.flatMap_map]
  congr 1
  funext decl
  split
  · exact Decl.places_withOrigin _ decl
  · rfl

end DeclCheck
