import DeclCheck.Proofs.Overloading.Choice
import DeclCheck.Proofs.Passes
import DeclCheck.Session

/-!
# Sessions

The states that a session can be in, and what holds in all of them. A unit may be accepted or rejected:
what was entered into the tables before an error stays there, so a property of all states has to survive
every prefix of a check.
-/

namespace DeclCheck

/-- A type as it comes from the parser: a name with arguments. -/
def Ty.written (name : String) (args : List Ty) : Ty := .app (.unresolved name .nowhere) args false

namespace Session

/-- **The states of a session**: the initial one, and those after any unit, accepted or not. -/
inductive Reachable : Session → Prop
  | initial : Reachable .initial
  | add {session : Session} (reachable : Reachable session) (unit : SourceUnit) :
      Reachable (session.addUnit unit).2

/-- The tables after a unit are those that its check has reached. -/
theorem symbols_addUnit (session : Session) (unit : SourceUnit) :
    (session.addUnit unit).2.symbols =
      (stateAfter (Analysis.declarations unit.withOrigins.declarations
        (.start session.symbols))).symbols := by
  simp only [addUnit]
  cases Analysis.declarations unit.withOrigins.declarations (.start session.symbols) with
  | error error analysis => rfl
  | ok declarations analysis => rfl

/-- An accepted unit comes with the declarations of its check. -/
theorem addUnit_eq_ok {session after : Session} {unit annotated : SourceUnit}
    (accepted : session.addUnit unit = (.ok annotated, after)) :
    ∃ analysis, Analysis.declarations unit.withOrigins.declarations (.start session.symbols) =
        .ok annotated.declarations analysis ∧
      after.symbols = analysis.symbols := by
  simp only [addUnit] at accepted
  split at accepted
  · rename_i declarations analysis checked
    cases accepted
    exact ⟨analysis, checked, rfl⟩
  · cases accepted

/-- A unit whose check ends without an error is accepted. -/
theorem exists_accepted {session : Session} {unit : SourceUnit} (fine : (session.addUnit unit).1.toBool = true) :
    ∃ annotated after, session.addUnit unit = (.ok annotated, after) := by
  cases added : session.addUnit unit with
  | mk outcome after =>
    rw [added] at fine
    cases outcome with
    | error diagnostic => cases fine
    | ok annotated => exact ⟨annotated, after, rfl⟩

/-- **In every state of a session each overload is listed under its own key.** -/
theorem Reachable.keyed {session : Session} (reachable : session.Reachable) :
    session.symbols.functions.Keyed := by
  induction reachable with
  | initial => exact FunctionTable.keyed_empty
  | @add session _ unit ih =>
    rw [symbols_addUnit]
    refine Analysis.keeps_declarations (fun lattice => ?_) (fun functions decl keyed => ?_) _ _ ih
    · exact fun _ _ _ _ _ _ _ keyed bound => Overloading.keyed_resolve keyed bound
    · exact FunctionTable.Keyed.insert keyed decl

/-! ## A unit that is accepted -/

/-- An expression as it comes from the parser. -/
private def bare (kind : ExprKind) : Expr := .mk kind none .nowhere

/-- A function of an integer that declares an integer, gives it the value of a recursive call for each
element of a list, and returns it. -/
def twice : FunctionDecl where
  signature := [⟨"twice", .nowhere⟩]
  affix := .after
  returnType := (.written "Integer" [])
  params := [⟨⟨"n", .nowhere⟩, (.written "Integer" []), false⟩]
  body :=
    [.assignment ⟨⟨⟨"m", .nowhere⟩, some (.written "Integer" []), true, none⟩, true, bare (.number "1"), .nowhere⟩,
      .forEach ⟨⟨"i", .nowhere⟩, none, false, none⟩ (bare (.list [bare (.number "1"), bare (.number "2")]))
        [.assignment ⟨⟨⟨"m", .nowhere⟩, none, false, none⟩, false,
          bare (.call ⟨[⟨"twice", .nowhere⟩], .after, [bare (.variable ⟨"n", .nowhere⟩)], none⟩),
          .nowhere⟩]
        .nowhere,
      .returns (some (bare (.variable ⟨"m", .nowhere⟩))) .nowhere]
  generics := []
  origin := ""
  location := .nowhere

/-- The unit that declares `twice`. -/
def twiceUnit : SourceUnit := ⟨"twice.pine", "", [.function twice]⟩

theorem accepts_twiceUnit :
    ∃ annotated after, initial.addUnit twiceUnit = (.ok annotated, after) :=
  ⟨_, _, rfl⟩

end Session

end DeclCheck
