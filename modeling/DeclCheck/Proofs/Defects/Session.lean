import DeclCheck.Proofs.Defects.Walk

/-!
# Sessions without defects

Each pass over written declarations keeps the tables grounded and fails with reports only, so a session that is given
written units only never shows a defect of the checker. Rejected units count: they leave the tables grounded wherever
their check stopped.

Not covered are units with types that no source text spells. And a check that never returns shows no defect either: that
checks return is not established here.
-/

namespace DeclCheck

namespace Analysis

variable {α : Type}

/-- Whether the tables that a check has reached are grounded. -/
def Grounded (analysis : Analysis) : Prop := analysis.symbols.Grounded

/-! ## The type tables -/

/-- A step on the type tables ensures what it keeps. -/
theorem ensures_onTypes_grounded {good : α → Prop} {step : TypeTable → Except Error (α × TypeTable)}
    (keeps : ∀ {types value after}, types.Grounded → step types = .ok (value, after) →
      after.Grounded ∧ (∀ ctor, types.Declares ctor → after.Declares ctor) ∧ good value)
    (errors : ∀ types, ErrorsIn Error.IsReport (step types)) :
    Ensures Grounded good Error.IsReport (onTypes step) := by
  refine ensures_onTypes (fun holds stepped => ?_) errors
  obtain ⟨grounded, wider, fine⟩ := keeps holds.types stepped
  exact ⟨⟨grounded, holds.functions.mono wider⟩, fine⟩

/-- A registration keeps the tables grounded, and its errors are reports. -/
theorem ensures_register {register : TypeTable → Except Error TypeTable}
    (keeps : ∀ {types after}, types.Grounded → register types = .ok after → after.Grounded)
    (grows : ∀ {types after}, register types = .ok after → types.Extends after)
    (errors : ∀ types, ErrorsIn Error.IsReport (register types)) :
    Ensures Grounded (fun _ => True) Error.IsReport (onTypes fun types => (register types).map (((), ·))) := by
  refine ensures_onTypes_grounded (fun {types _ after} grounded stepped => ?_) fun types => (errors types).map _
  cases outcome : register types with
  | error error => rw [outcome] at stepped; cases stepped
  | ok found =>
    rw [outcome] at stepped
    cases stepped
    exact ⟨keeps grounded outcome, (grows outcome).declares, trivial⟩

/-- So does the first pass. -/
theorem ensures_registerName {decl : Decl} (written : decl.hasWrittenMembers = true) :
    Ensures Grounded (fun _ => True) Error.IsReport (registerName decl) := by
  cases decl with
  | struct decl =>
    exact ensures_register (fun grounded => grounded.registerStruct written) TypeTable.extends_registerStruct
      fun types => ErrorsIn.reports (types.errorsIn_registerStruct trivial)
  | enum decl =>
    exact ensures_register TypeTable.Grounded.registerEnum TypeTable.extends_registerEnum
      fun types => ErrorsIn.reports (types.errorsIn_registerEnum trivial)
  | group decl =>
    exact ensures_register TypeTable.Grounded.registerGroup TypeTable.extends_registerGroup
      fun types => ErrorsIn.reports (types.errorsIn_registerGroup trivial)
  | function | binding | exampleBlock | importing => exact Ensures.pure trivial

/-- The second pass leaves all but the bindings as they are written. -/
theorem ensures_bindGroup {decl : Decl} (written : decl.hasWrittenTypes = true) :
    Ensures Grounded (fun result => result.hasWrittenMembers = true ∧ result.hasWrittenSignature = true ∧
      result.hasWrittenBody = true) Error.IsReport (bindGroup decl) := by
  simp only [Decl.hasWrittenTypes, Bool.and_eq_true] at written
  cases decl with
  | binding binding =>
    simp only [Decl.isWritten, Bool.and_eq_true] at written
    have binds : Ensures Grounded (fun _ => True) Error.IsReport (onTypes (bindTypes binding)) := by
      refine ensures_onTypes_grounded (fun grounded reached => ?_) (errorsIn_bindTypes written.1.1.1.2)
      exact ⟨grounded.bindTypes written.1.1.1.1 reached, (extends_bindTypes reached).declares, trivial⟩
    exact Ensures.bind binds fun _ _ => Ensures.pure ⟨rfl, rfl, rfl⟩
  | struct | enum | group | function | exampleBlock | importing =>
    exact Ensures.pure ⟨written.1.1.2, written.1.2, written.2⟩

/-- The third pass leaves functions and examples as they are written. -/
theorem ensures_resolveMembers {decl : Decl} (members : decl.hasWrittenMembers = true)
    (signature : decl.hasWrittenSignature = true) (body : decl.hasWrittenBody = true) :
    Ensures Grounded (fun result => result.hasWrittenSignature = true ∧ result.hasWrittenBody = true)
      Error.IsReport (resolveMembers decl) := by
  cases decl with
  | struct decl =>
    rw [resolveMembers]
    refine ensures_onTypes_grounded (fun {types _ _} grounded reached => ?_) fun types => ?_
    · obtain ⟨resolved, resolving, made⟩ := bind_eq_ok.mp reached
      cases made
      exact ⟨grounded.updateStruct members resolving, TypeTable.declares_updateStruct resolved, rfl, rfl⟩
    · refine ErrorsIn.bind (ErrorsIn.reports ?_) fun _ _ => ErrorsIn.ok _
      exact types.errorsIn_resolveStruct fun _ _ _ _ => trivial
  | enum | group | function | binding | exampleBlock | importing => exact Ensures.pure ⟨signature, body⟩

/-! ## The function table

From here on the type tables are fixed. -/

/-- Whether a check has reached given type tables, and a function table that is grounded in them. -/
def GroundedIn (types : TypeTable) (analysis : Analysis) : Prop :=
  analysis.symbols.types = types ∧ analysis.symbols.functions.Grounded types

/-- Whether the walk of a declaration's body starts from declared structs, and meets written types only. -/
def ReadyIn (types : TypeTable) : Decl → Prop
  | .function decl =>
    (∀ param ∈ decl.params, param.ty.BuiltFrom types.Declares) ∧ Stmt.allHaveWrittenTypes decl.body = true
  | .exampleBlock decl => Stmt.allHaveWrittenTypes decl.body = true
  | _ => True

variable {types : TypeTable}

/-- The fourth pass leaves functions ready to be checked. -/
theorem ensures_collect (grounded : types.Grounded) {decl : Decl} (signature : decl.hasWrittenSignature = true)
    (body : decl.hasWrittenBody = true) :
    Ensures (GroundedIn types) (ReadyIn types) Error.IsReport (collect decl) := by
  cases decl with
  | function decl =>
    rw [collect]
    refine Ensures.get_bind fun analysis holds => ?_
    cases closing : decl.close analysis.symbols.types with
    | error error =>
      have reports : ErrorsIn Error.IsReport (decl.close analysis.symbols.types) :=
        ErrorsIn.reports (FunctionDecl.errorsIn_close _ fun _ _ => trivial)
      exact Ensures.throw (reports error closing)
    | ok closed =>
      rw [holds.1] at closing
      obtain ⟨params, returned⟩ := FunctionDecl.grounded_close grounded signature closing
      have same : closed.body = decl.body := by
        obtain ⟨_, _, _, -, -, -, rfl, -⟩ := FunctionDecl.close_eq_ok closing
        rfl
      have kept : (analysis.symbols.functions.insert closed).Grounded types :=
        FunctionTable.Every.insert holds.2 returned
      refine Ensures.bind (Ensures.set ⟨holds.1, kept⟩) fun _ _ => Ensures.pure ⟨params, ?_⟩
      rw [same]
      exact body
  | exampleBlock decl => exact Ensures.pure body
  | struct | enum | group | binding | importing => exact Ensures.pure trivial

/-- A safe walk keeps all functions grounded. -/
theorem ensures_walk {generics : List String} {body : Env → Check α}
    (safe : Check.Safe ⟨types, generics⟩ (fun _ => True) (body ⟨types, generics⟩)) :
    Ensures (GroundedIn types) (fun _ => True) Error.IsReport (walk generics .empty body) where
  ok holds reached := by
    obtain ⟨rfl, functions⟩ := holds
    obtain ⟨state, stepped, -, rfl⟩ := walk_eq_ok reached
    have kept := (safe.ok ⟨functions, fun _ mem => by cases mem⟩ stepped).1
    exact ⟨⟨rfl, kept.functions⟩, trivial⟩
  error {before _ _} holds reached := by
    obtain ⟨rfl, functions⟩ := holds
    simp only [walk] at reached
    cases stepped : body ⟨before.symbols.types, generics⟩ ⟨before.symbols.functions, .empty, []⟩ with
    | ok value state => rw [stepped] at reached; cases reached
    | error error state =>
      rw [stepped] at reached
      cases reached
      obtain ⟨kept, report⟩ := safe.error ⟨functions, fun _ mem => by cases mem⟩ stepped
      exact ⟨⟨rfl, kept.functions⟩, report⟩

/-- Parameters are declared with types built from declared ones. -/
theorem safe_defineParams {env : Env} {params : List Param}
    (built : ∀ param ∈ params, param.ty.BuiltFrom env.types.Declares) :
    Check.Safe env (fun _ => True) (defineParams params) := by
  induction params with
  | nil => exact Ensures.pure trivial
  | cons param rest ih =>
    refine Ensures.bind (Check.safe_define (built param List.mem_cons_self)) fun _ _ => ?_
    exact ih fun other mem => built other (List.mem_cons_of_mem _ mem)

/-- **The fifth pass meets no defect.** -/
theorem ensures_checkBody (grounded : types.Grounded) {decl : Decl} (ready : ReadyIn types decl) :
    Ensures (GroundedIn types) (fun _ => True) Error.IsReport (checkBody decl) := by
  cases decl with
  | function decl =>
    obtain ⟨params, body⟩ := ready
    refine Ensures.bind (ensures_walk ?_) fun walked _ => ?_
    · exact Ensures.bind (safe_defineParams params) fun _ _ => Check.safe_block grounded decl.body body
    · dsimp only
      cases checked : checkReturns decl.returnType walked.2 with
      | ok allowed => exact Ensures.pure trivial
      | error error => exact Ensures.throw (ErrorsIn.reports (errorsIn_checkReturns _ fun _ _ => trivial) error checked)
  | exampleBlock decl =>
    exact Ensures.bind (ensures_walk (Check.safe_block grounded decl.body ready)) fun _ _ => Ensures.pure trivial
  | struct | enum | group | binding | importing => exact Ensures.pure trivial

/-- **The check of written declarations has no defect.** -/
theorem ensures_declarations {decls : List Decl} (written : ∀ decl ∈ decls, decl.hasWrittenTypes = true) :
    Ensures Grounded (fun _ => True) Error.IsReport (declarations decls) := by
  refine Ensures.bind (Ensures.forM fun decl mem => ensures_registerName ?_) fun _ _ => ?_
  · have own := written decl mem
    simp only [Decl.hasWrittenTypes, Bool.and_eq_true] at own
    exact own.1.1.2
  refine Ensures.bind (Ensures.mapM fun decl mem => ensures_bindGroup (written decl mem)) fun groups bound => ?_
  refine Ensures.bind (Ensures.mapM fun decl mem => ensures_resolveMembers (bound decl mem).1 (bound decl mem).2.1
    (bound decl mem).2.2) fun structs left => ?_
  -- the last two passes leave the type tables as they find them
  refine Ensures.of_each fun analysis grounded => ?_
  refine ⟨GroundedIn analysis.symbols.types, ⟨rfl, grounded.functions⟩, fun after fixed => ?_, ?_⟩
  · obtain ⟨same, functions⟩ := fixed
    rw [← same] at functions
    exact ⟨same ▸ grounded.types, functions⟩
  · refine Ensures.bind (Ensures.mapM fun decl mem =>
      ensures_collect grounded.types (left decl mem).1 (left decl mem).2) fun signatures ready => ?_
    exact (Ensures.mapM fun decl mem => ensures_checkBody grounded.types (ready decl mem)).mono
      fun _ _ => trivial

end Analysis

/-- Where no candidate wins, one of them fails at some position. -/
theorem Overloading.exists_failure_of_winner_eq_none {lattice : Lattice} {candidates : List FunctionDecl}
    {actuals : List Ty} (listed : candidates ≠ []) (lost : winner lattice candidates actuals = none) :
    ∃ position, (failures (candidates.map (assess lattice actuals))).min? = some position := by
  refine exists_failure (fun empty => listed (List.map_eq_nil_iff.mp empty)) (cheapest_eq_none.mp ?_)
  unfold winner at lost
  split at lost
  · cases lost
  · exact Option.map_eq_none_iff.mp lost

/-! ## Sessions -/

/-- No type that is there from the start is a struct. -/
theorem Symbols.grounded_initial : Symbols.initial.Grounded where
  types := {
    nodes := by
      have heads : TypeTable.initial.lattice.types.map Ty.head =
          [.builtin .any, .builtin .number, .builtin .integer, .builtin .string, .builtin .date, .builtin .list,
            .builtin .table, .builtin .tuple, .builtin .struct, .builtin .enum, .enum "Boolean", .enum "Nil"] := rfl
      intro ty mem name head
      have listed : ty.head ∈ TypeTable.initial.lattice.types.map Ty.head := List.mem_map_of_mem mem
      rw [heads, head] at listed
      simp at listed
    members := fun found => by cases found }
  functions := fun _ mem => by cases mem

namespace Session

/-- **A written unit keeps the tables grounded, and its errors are reports.** -/
theorem ensures_addUnit {session : Session} (grounded : session.symbols.Grounded) {unit : SourceUnit}
    (written : unit.hasWrittenTypes = true) :
    (session.addUnit unit).2.symbols.Grounded ∧
      ∀ diagnostic, (session.addUnit unit).1 = .error diagnostic → diagnostic.error.IsReport := by
  have ensures := Analysis.ensures_declarations (SourceUnit.hasWrittenTypes_withOrigins written)
  have start : (Analysis.start session.symbols).Grounded := grounded
  simp only [addUnit]
  cases checked : Analysis.declarations unit.withOrigins.declarations (.start session.symbols) with
  | ok declarations analysis =>
    refine ⟨(ensures.ok start checked).1, fun diagnostic failed => ?_⟩
    cases failed
  | error error analysis =>
    obtain ⟨kept, report⟩ := ensures.error start checked
    refine ⟨kept, fun diagnostic failed => ?_⟩
    cases failed
    exact report

/-- **The tables of a session that was given written units are grounded**, whatever was accepted. -/
theorem Given.grounded {session : Session} (given : session.Given (·.hasWrittenTypes = true)) :
    session.symbols.Grounded := by
  induction given with
  | initial => exact Symbols.grounded_initial
  | add before written ih => exact (ensures_addUnit ih written).1

/-- **No unit shows a defect of the checker.** Whatever units were given before, accepted or not, an error of the next
one is a report about that unit, as long as all of them are written. For in every such session a group that a written
type is resolved to is in the lattice; the structs in a resolved type, in the lattice, in members and in what overloads
return have declarations; and of any overloads one wins a call, or a position is named at which one of them fails. -/
theorem addUnit_reports {session : Session} (given : session.Given (·.hasWrittenTypes = true)) {unit : SourceUnit}
    (written : unit.hasWrittenTypes = true) :
    (∀ diagnostic, (session.addUnit unit).1 = .error diagnostic → diagnostic.error.isInternal = false) ∧
      (∀ generics ty name nullable, ty.isWritten = true →
        session.symbols.types.resolve generics ty = .ok (.atom (.group name) nullable) →
        session.symbols.types.lattice.contains (.atom (.group name) nullable) = true) ∧
      (∀ generics ty found, ty.isWritten = true → session.symbols.types.resolve generics ty = .ok found →
        found.BuiltFrom session.symbols.types.Declares) ∧
      session.symbols.Grounded ∧
      ∀ key actuals, session.symbols.functions.overloads key ≠ [] →
        (∃ decl, Overloading.winner session.symbols.types.lattice (session.symbols.functions.overloads key) actuals =
          some decl) ∨
        ∃ position, (Overloading.failures ((session.symbols.functions.overloads key).map
          (Overloading.assess session.symbols.types.lattice actuals))).min? = some position := by
  have grounded := given.grounded
  refine ⟨(ensures_addUnit grounded written).2, ?_, ?_, grounded, ?_⟩
  · intro generics ty name nullable form resolved
    exact TypeTable.contains_of_resolve form resolved
  · intro generics ty found form resolved
    exact grounded.types.resolve form resolved
  · intro key actuals listed
    cases won : Overloading.winner session.symbols.types.lattice (session.symbols.functions.overloads key) actuals with
    | some decl => exact Or.inl ⟨decl, rfl⟩
    | none => exact Or.inr (Overloading.exists_failure_of_winner_eq_none listed won)

/-- A unit whose struct has a member of an unknown type. It is rejected, and the struct stays. -/
def brokenUnit : SourceUnit where
  filename := "broken.pine"
  content := ""
  declarations := [.struct {
    name := ⟨"Box", .nowhere⟩
    members := [⟨⟨"size", .nowhere⟩, .app (.unresolved "Missing" .nowhere) [] false⟩]
    generics := []
    origin := ""
    location := .nowhere }]

/-- A unit that reads the member. -/
def readingUnit : SourceUnit where
  filename := "reading.pine"
  content := ""
  declarations := [.function {
    signature := [⟨"size", .nowhere⟩]
    affix := .after
    returnType := .app (.unresolved "Integer" .nowhere) [] false
    params := [⟨⟨"box", .nowhere⟩, .app (.unresolved "Box" .nowhere) [] false, false⟩]
    body := [.returns (some (.mk (.access (.mk (.variable ⟨"box", .nowhere⟩) none .nowhere) ⟨"size", .nowhere⟩)
      none .nowhere)) .nowhere]
    generics := []
    origin := ""
    location := .nowhere }]

/-- Reading a member that a rejected unit left as it is written ends in a report. -/
theorem readingUnit_reports :
    ∃ first second, (initial.addUnit brokenUnit).1 = .error first ∧
      ((initial.addUnit brokenUnit).2.addUnit readingUnit).1 = .error second ∧
      second.error.isInternal = false := by
  have given : (initial.addUnit brokenUnit).2.Given (·.hasWrittenTypes = true) := .add .initial rfl
  have written : readingUnit.hasWrittenTypes = true := rfl
  exact ⟨_, _, rfl, rfl, (addUnit_reports given written).1 _ rfl⟩

end Session

end DeclCheck
