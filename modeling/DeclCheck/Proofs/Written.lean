import DeclCheck.Proofs.Session

/-!
# Types as they are written

A type comes from a source text as a name with arguments, or as `Void`. What the names mean is found by the
checker, so nothing that it enters into the lattice stands for a name that was never declared. Units in this
form are *written*, and what holds of the type tables before any unit and is kept by all that written
declarations do holds in every state of a session that was given written units only.
-/

namespace DeclCheck

mutual

/-- **Whether a type is as it is written**: a name with arguments of the same kind, or `Void`. -/
def Ty.isWritten : Ty → Bool
  | .atom .void _ => true
  | .app (.unresolved _ _) args _ => Ty.allWritten args
  | _ => false

/-- Whether several types are as they are written. -/
def Ty.allWritten : List Ty → Bool
  | [] => true
  | ty :: rest => ty.isWritten && Ty.allWritten rest

end

/-- **Whether the types that a declaration brings into the lattice are as they are written.** All others are
resolved wherever they are used. -/
def Decl.isWritten : Decl → Bool
  | .binding decl => decl.child.isWritten && decl.parent.isWritten
  | _ => true

/-- Whether a unit is as it is written. -/
def SourceUnit.isWritten (unit : SourceUnit) : Bool := unit.declarations.all Decl.isWritten

theorem Decl.isWritten_withOrigin (origin : String) (decl : Decl) :
    (decl.withOrigin origin).isWritten = decl.isWritten := by
  cases decl <;> rfl

/-- Origins do not change what is written. -/
theorem SourceUnit.isWritten_withOrigins {unit : SourceUnit} (written : unit.isWritten = true) :
    ∀ decl ∈ unit.withOrigins.declarations, decl.isWritten = true := by
  intro decl mem
  obtain ⟨source, listed, rfl⟩ := List.mem_map.mp mem
  have own : source.isWritten = true := List.all_eq_true.mp written source listed
  split
  · rw [Decl.isWritten_withOrigin]
    exact own
  · exact own

namespace Session

/-- **The states of a session that was given written units only**, accepted or not. -/
inductive Written : Session → Prop
  | initial : Written .initial
  | add {session : Session} (before : Written session) {unit : SourceUnit}
      (written : unit.isWritten = true) : Written (session.addUnit unit).2

/-- **What written declarations keep of the type tables holds in every state.** -/
theorem Written.types {known : TypeTable → Prop} (initial : known .initial)
    (keep : ∀ decls : List Decl, (∀ decl ∈ decls, decl.isWritten = true) → Analysis.TypesKeep known decls)
    {session : Session} (written : session.Written) : known session.symbols.types := by
  induction written with
  | initial => exact initial
  | add _ unit ih =>
    rw [symbols_addUnit]
    exact Analysis.keepsTypes_declarations (keep _ (SourceUnit.isWritten_withOrigins unit)) _ ih

end Session

end DeclCheck
