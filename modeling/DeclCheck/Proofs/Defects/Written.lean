import DeclCheck.Proofs.Ty.BuiltFrom
import DeclCheck.Proofs.Written

/-!
# Trees as they are written

Whether every type that a unit spells is as it is written. Only types that the checker reads count: those of
parameters, returned values, members and restrictions, of group bindings, of declared variables, and of struct
literals. The slots of a tree do not count, since the checker only writes them.
-/

namespace DeclCheck

/-! ## Expressions -/

mutual

/-- **Whether the types in an expression are as they are written.** -/
def Expr.hasWrittenTypes : Expr → Bool
  | .mk kind _ _ => kind.hasWrittenTypes

/-- Whether the types in what an expression is are as they are written. -/
def ExprKind.hasWrittenTypes : ExprKind → Bool
  | .call callee => callee.hasWrittenTypes
  | .list items => Expr.allHaveWrittenTypes items
  | .tuple items => Expr.allHaveWrittenTypes items
  | .object ctor members => ctor.isWritten && Expr.membersHaveWrittenTypes members
  | .access subject _ => subject.hasWrittenTypes
  | _ => true

/-- Whether the types in the arguments of a call are as they are written. -/
def Call.hasWrittenTypes : Call Expr → Bool
  | ⟨_, _, args, _⟩ => Expr.allHaveWrittenTypes args

/-- Whether the types in several expressions are as they are written. -/
def Expr.allHaveWrittenTypes : List Expr → Bool
  | [] => true
  | expr :: rest => expr.hasWrittenTypes && Expr.allHaveWrittenTypes rest

/-- Whether the types in the values of a struct literal are as they are written. -/
def Expr.membersHaveWrittenTypes : List (MemberValue Expr) → Bool
  | [] => true
  | ⟨_, value⟩ :: rest => value.hasWrittenTypes && Expr.membersHaveWrittenTypes rest

end

/-! ## Statements -/

/-- Whether the types in an assignment are as they are written. The type beside a mere reassignment is not read. -/
def Assignment.hasWrittenTypes (assigned : Assignment) : Bool :=
  assigned.value.hasWrittenTypes && (!assigned.isDeclaration || assigned.target.declaredType.all Ty.isWritten)

/-- Whether the types in the tests of a guard are as they are written. -/
def GuardTerm.allHaveWrittenTypes (tests : List GuardTerm) : Bool := tests.all (·.test.hasWrittenTypes)

mutual

/-- **Whether the types in a statement are as they are written.** -/
def Stmt.hasWrittenTypes : Stmt → Bool
  | .assignment assigned => assigned.hasWrittenTypes
  | .returns value _ => value.all Expr.hasWrittenTypes
  | .call callee _ => callee.hasWrittenTypes
  | .branch choice => choice.hasWrittenTypes
  | .forEach _ iterable body _ => iterable.hasWrittenTypes && Stmt.allHaveWrittenTypes body
  | .whileTrue tests body _ => GuardTerm.allHaveWrittenTypes tests && Stmt.allHaveWrittenTypes body
  | .pass _ => true
  | .hostCode _ _ => true

/-- Whether the types in the statements of a block are as they are written. -/
def Stmt.allHaveWrittenTypes : List Stmt → Bool
  | [] => true
  | stmt :: rest => stmt.hasWrittenTypes && Stmt.allHaveWrittenTypes rest

/-- Whether the types in a branch are as they are written. -/
def Branch.hasWrittenTypes : Branch → Bool
  | .mk tests body none _ => GuardTerm.allHaveWrittenTypes tests && Stmt.allHaveWrittenTypes body
  | .mk tests body (some otherwise) _ =>
    GuardTerm.allHaveWrittenTypes tests && Stmt.allHaveWrittenTypes body && otherwise.hasWrittenTypes

end

/-! ## Declarations -/

/-- Whether the members of a struct are of types as they are written. -/
def StructDecl.hasWrittenMembers (decl : StructDecl) : Bool := decl.members.all (·.ty.isWritten)

/-- Whether the types of a signature are as they are written. -/
def FunctionDecl.hasWrittenSignature (decl : FunctionDecl) : Bool :=
  decl.params.all (·.ty.isWritten) && decl.returnType.isWritten &&
    decl.generics.all (·.constraint.all Ty.isWritten)

namespace Decl

/-- Whether the members of a declaration that is a struct are of types as they are written. -/
def hasWrittenMembers : Decl → Bool
  | .struct decl => decl.hasWrittenMembers
  | _ => true

/-- Whether the signature of a declaration that is a function is as it is written. -/
def hasWrittenSignature : Decl → Bool
  | .function decl => decl.hasWrittenSignature
  | _ => true

/-- Whether the types in the body of a declaration that has one are as they are written. -/
def hasWrittenBody : Decl → Bool
  | .function decl => Stmt.allHaveWrittenTypes decl.body
  | .exampleBlock decl => Stmt.allHaveWrittenTypes decl.body
  | _ => true

/-- **Whether all types of a declaration are as they are written.** -/
def hasWrittenTypes (decl : Decl) : Bool :=
  decl.isWritten && decl.hasWrittenMembers && decl.hasWrittenSignature && decl.hasWrittenBody

theorem hasWrittenTypes_withOrigin (origin : String) (decl : Decl) :
    (decl.withOrigin origin).hasWrittenTypes = decl.hasWrittenTypes := by
  cases decl <;> rfl

end Decl

/-- **Whether all types of a unit are as they are written.** -/
def SourceUnit.hasWrittenTypes (unit : SourceUnit) : Bool := unit.declarations.all Decl.hasWrittenTypes

/-- Origins do not change what is written. -/
theorem SourceUnit.hasWrittenTypes_withOrigins {unit : SourceUnit} (written : unit.hasWrittenTypes = true) :
    ∀ decl ∈ unit.withOrigins.declarations, decl.hasWrittenTypes = true := by
  intro decl mem
  obtain ⟨source, listed, rfl⟩ := List.mem_map.mp mem
  have own : source.hasWrittenTypes = true := List.all_eq_true.mp written source listed
  split
  · rw [Decl.hasWrittenTypes_withOrigin]
    exact own
  · exact own

namespace Session

/-- **The states of a session that was given units of one form only**, accepted or not. -/
inductive Given (form : SourceUnit → Prop) : Session → Prop
  | initial : Given form .initial
  | add {session : Session} (before : Given form session) {unit : SourceUnit} (formed : form unit) :
      Given form (session.addUnit unit).2

end Session

/-! ## Written names alone -/

namespace Ty

mutual

/-- A type as it is written has no constructors but written names. -/
theorem builtFrom_of_isWritten {allowed : Ctor → Prop} :
    ∀ {ty : Ty}, ty.isWritten = true → ty.BuiltFrom fun ctor => ctor.isResolved = true → allowed ctor
  | .atom _ _, _ => trivial
  | .app (.unresolved _ _) args _, written => by
    have inner : allWritten args = true := written
    refine ⟨fun resolved => ?_, allBuiltFrom_of_allWritten inner⟩
    cases resolved
  | .app (.builtin _) _ _, written => by cases written
  | .app (.struct _) _ _, written => by cases written

/-- Written types have no resolved constructors at all. -/
theorem allBuiltFrom_of_allWritten {allowed : Ctor → Prop} :
    ∀ {types : List Ty}, allWritten types = true →
      AllBuiltFrom (fun ctor => ctor.isResolved = true → allowed ctor) types
  | [], _ => trivial
  | ty :: rest, written => by
    simp only [allWritten, Bool.and_eq_true] at written
    exact ⟨builtFrom_of_isWritten written.1, allBuiltFrom_of_allWritten written.2⟩

end

/-- The arguments of a written type are written. -/
theorem allWritten_args {ty : Ty} (written : ty.isWritten = true) : allWritten ty.args = true := by
  cases ty with
  | atom shape nullable => rfl
  | app ctor args nullable =>
    cases ctor with
    | unresolved => exact written
    | builtin | struct => cases written

end Ty

end DeclCheck
