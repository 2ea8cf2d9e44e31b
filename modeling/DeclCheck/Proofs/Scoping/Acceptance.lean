import DeclCheck.Proofs.Growth
import DeclCheck.Proofs.Scoping.Soundness
import Mathlib.Data.List.Nodup

/-!
# Accepted units are scoped

Every body that a session accepts is lexically scoped. The list of visible variables that the walk of a body keeps
is the same after a branch or a loop as before it, wherever in the body the walk comes to one.

The walk that is meant is that of the body as it was given, from a function table between the one before the unit and
the one after it. Which of these tables it is depends on the bodies before, and is not said. Nor is it asked whether a
variable is used at all.
-/

namespace DeclCheck

/-! ## The statements that a walk comes to -/

/-- Whether a statement has blocks of its own: a branch or a loop. -/
def Stmt.hasBlocks : Stmt → Bool
  | .branch _ | .forEach _ _ _ _ | .whileTrue _ _ _ => true
  | _ => false

namespace Check

/-- The blocks of a branch that its walk comes to, each with the state from which it is walked. -/
inductive BranchEnters (env : Env) : Branch → BodyState → List Stmt → BodyState → Prop
  | own {tests filled : List GuardTerm} {body : List Stmt} {otherwise : Option Branch} {location : Location}
      {state between : BodyState} (tested : guard env tests state = .ok filled between) :
      BranchEnters env (.mk tests body otherwise location) state body
        { between with scopes := between.scopes.enter }
  | otherwise {tests filled : List GuardTerm} {body filledBody inner : List Stmt} {next : Branch}
      {location : Location} {state between ended begun : BodyState}
      (tested : guard env tests state = .ok filled between)
      (walked : block env body { between with scopes := between.scopes.enter } = .ok filledBody ended)
      (enters : BranchEnters env next { ended with scopes := ended.scopes.exit } inner begun) :
      BranchEnters env (.mk tests body (some next) location) state inner begun

/-- The blocks of a statement that its walk comes to, each with the state from which it is walked. -/
inductive Enters (env : Env) : Stmt → BodyState → List Stmt → BodyState → Prop
  | branch {choice : Branch} {body : List Stmt} {state begun : BodyState}
      (enters : BranchEnters env choice state body begun) : Enters env (.branch choice) state body begun
  | forEach {iterator : Variable} {iterable filled : Expr} {ty element : Ty} {body : List Stmt}
      {location : Location} {state between begun : BodyState}
      (walked : expr env iterable state = .ok (ty, filled) between)
      (iterates : elementType ty filled.location = .ok element)
      (defined : define ⟨iterator.name.name, element, false, iterator.name.location⟩
        { between with scopes := between.scopes.enter } = .ok () begun) :
      Enters env (.forEach iterator iterable body location) state body begun
  | whileTrue {tests filled : List GuardTerm} {body : List Stmt} {location : Location}
      {state between : BodyState} (tested : guard env tests state = .ok filled between) :
      Enters env (.whileTrue tests body location) state body { between with scopes := between.scopes.enter }

/-- **The statements that the walk of a block comes to**, nested ones included, each with the state from which it
is walked. -/
inductive Visits (env : Env) : List Stmt → BodyState → Stmt → BodyState → Prop
  | first {stmt : Stmt} {rest : List Stmt} {state : BodyState} : Visits env (stmt :: rest) state stmt state
  | inside {outer stmt : Stmt} {rest body : List Stmt} {state begun before : BodyState}
      (enters : Enters env outer state body begun) (visits : Visits env body begun stmt before) :
      Visits env (outer :: rest) state stmt before
  | later {earlier filled stmt : Stmt} {rest : List Stmt} {state between before : BodyState}
      (walked : Check.stmt env earlier state = .ok filled between)
      (visits : Visits env rest between stmt before) : Visits env (earlier :: rest) state stmt before

variable {env : Env} {state begun before after : BodyState}

/-- A block of a branch is entered one level up. -/
theorem BranchEnters.leveled {choice : Branch} {body : List Stmt}
    (enters : BranchEnters env choice state body begun) (leveled : state.scopes.Leveled) :
    begun.scopes.Leveled := by
  induction enters with
  | own tested =>
    obtain ⟨scopes, -⟩ := guard_frame tested
    exact (scopes ▸ leveled : Scopes.Leveled _).enter
  | @otherwise _ _ _ _ _ _ _ _ between ended _ tested walked _ ih =>
    obtain ⟨scopes, -⟩ := guard_frame tested
    have same : between.scopes.Leveled := scopes ▸ leveled
    obtain ⟨grown, -⟩ := blockWalk _ walked same.enter
    have restored : ended.scopes.exit = between.scopes := grown.exit_eq same
    exact ih (restored ▸ same)

/-- So is a block of a loop. -/
theorem Enters.leveled {stmt : Stmt} {body : List Stmt} (enters : Enters env stmt state body begun)
    (leveled : state.scopes.Leveled) : begun.scopes.Leveled := by
  cases enters with
  | branch enters => exact enters.leveled leveled
  | forEach walked _ defined =>
    obtain ⟨same, -⟩ := expr_frame walked
    obtain ⟨scopes, defining, rfl⟩ := define_eq_ok defined
    have inside : Scopes.Leveled _ := (same ▸ leveled : Scopes.Leveled _).enter
    exact inside.grown (.of_define defining)
  | whileTrue tested =>
    obtain ⟨same, -⟩ := guard_frame tested
    exact (same ▸ leveled : Scopes.Leveled _).enter

/-- No statement is walked with a variable above the level of the walk. -/
theorem Visits.leveled {body : List Stmt} {stmt : Stmt} (visits : Visits env body state stmt before)
    (leveled : state.scopes.Leveled) : before.scopes.Leveled := by
  induction visits with
  | first => exact leveled
  | inside enters _ ih => exact ih (enters.leveled leveled)
  | later walked _ ih =>
    obtain ⟨grown, -⟩ := stmtWalk _ walked leveled
    exact ih (leveled.grown grown)

end Check

/-! ## Blocks leave the variables as they were -/

/-- A statement with blocks of its own declares nothing outside of them. -/
theorem StmtWalk.seen_eq {env : Env} {before after : FunctionTable} {visible seen : List LocalVariable}
    {stmt filled : Stmt} {returned : List (Ty × Location)}
    (walked : StmtWalk env before visible stmt filled returned after seen) (nested : stmt.hasBlocks = true) :
    seen = visible := by
  cases walked with
  | branch | forEach | whileTrue => rfl
  | assignment | returnsNothing | returns | call | pass | hostCode => cases nested

/-- Scopes that have grown by no variable are as they were. -/
theorem Scopes.Grown.eq_of_visible {scopes after : Scopes} (grown : scopes.Grown after)
    (same : after.visible = scopes.visible) : after = scopes := by
  obtain ⟨level, added, declared, -⟩ := grown
  have length := congrArg List.length same
  simp only [visible, declared, List.map_append, List.length_append, List.length_map] at length
  have none : added = [] := List.eq_nil_of_length_eq_zero (by omega)
  rw [none, List.nil_append] at declared
  cases after
  cases level
  cases declared
  rfl

/-- **After a branch or a loop the variables are those before it.** -/
theorem Check.scopes_eq_of_hasBlocks {env : Env} {stmt filled : Stmt} {before after : BodyState}
    (nested : stmt.hasBlocks = true) (leveled : before.scopes.Leveled)
    (reached : Check.stmt env stmt before = .ok filled after) : after.scopes = before.scopes := by
  obtain ⟨grown, returned, -, walked⟩ := stmtWalk stmt reached leveled
  exact grown.eq_of_visible (walked.seen_eq nested)

/-- **Whether filled statements are what the walk of a body makes** from the given functions and parameters, a walk
that has the same variables after every branch and loop that it comes to as before it. -/
def Check.RestoringWalk (env : Env) (functions : FunctionTable) (params : List Param) (body filled : List Stmt) :
    Prop :=
  ∃ begun ended,
    Analysis.defineParams params ⟨functions, .empty, []⟩ = .ok () begun ∧
    Check.block env body begun = .ok filled ended ∧
    ∀ {stmt before}, Check.Visits env body begun stmt before → stmt.hasBlocks = true →
      ∀ {result after}, Check.stmt env stmt before = .ok result after → after.scopes = before.scopes

/-- The statements of a function or an example block. -/
def Decl.body? : Decl → Option (List Stmt)
  | .function decl => some decl.body
  | .exampleBlock decl => some decl.body
  | _ => none

/-- Whether the body of a declaration is what a walk of the given one makes that restores its variables. -/
def Decl.RestoringWalk (types : TypeTable) (functions : FunctionTable) (given? : Option (List Stmt)) : Decl → Prop
  | .function decl =>
    ∃ given, given? = some given ∧
      Check.RestoringWalk ⟨types, decl.genericNames⟩ functions decl.params given decl.body
  | .exampleBlock decl =>
    ∃ given, given? = some given ∧ Check.RestoringWalk ⟨types, []⟩ functions [] given decl.body
  | _ => given? = none

/-- **Whether a declaration of an accepted unit comes from a restoring walk of the given body**, with functions between
those before the unit and those after it. -/
def Decl.WalkedFrom (before after : Symbols) (given? : Option (List Stmt)) (filled : Decl) : Prop :=
  ∃ functions, before.functions.Extends functions ∧ functions.Extends after.functions ∧
    filled.RestoringWalk after.types functions given?

/-! ## Bodies -/

namespace Analysis

variable {before after : Analysis}

/-- The parameters of a function are introduced under different names. -/
theorem defineParams_represents {params : List Param} {visible : List Introduction} {start state : BodyState}
    (represents : Represents visible start.scopes.visible)
    (reached : defineParams params start = .ok () state) :
    Represents (Param.introductions params ++ visible) state.scopes.visible := by
  induction params generalizing start visible with
  | nil =>
    cases reached
    exact represents
  | cons param rest ih =>
    rw [defineParams] at reached
    obtain ⟨_, between, defining, later⟩ := step_bind_eq_ok.mp reached
    obtain ⟨scopes, defined, rfl⟩ := Check.define_eq_ok defining
    obtain ⟨fresh, listed⟩ := Scopes.define_eq_ok defined
    have first : Represents (.parameter param :: visible) scopes.visible := by
      rw [listed]
      exact represents.cons ⟨rfl, rfl, rfl⟩ fresh
    simpa [Param.introductions] using ih first later

/-- **A body that is walked from its parameters is scoped, and its variables are restored.** -/
theorem block_scoped {env : Env} {params : List Param} {body filled : List Stmt} {functions : FunctionTable}
    {begun ended : BodyState} (defined : defineParams params ⟨functions, .empty, []⟩ = .ok () begun)
    (walked : Check.block env body begun = .ok filled ended) :
    (params.map (·.name.name)).Nodup ∧ Stmt.BlockScoped (Param.introductions params) filled ∧
      Check.RestoringWalk env functions params body filled := by
  obtain ⟨grown, -, seen⟩ := defineParams_eq_ok defined
  have leveled : begun.scopes.Leveled := Scopes.leveled_empty.grown grown
  have represents := defineParams_represents .nil defined
  rw [List.append_nil] at represents
  obtain ⟨-, _, -, derived⟩ := Check.blockWalk body walked leveled
  refine ⟨?_, derived.scoped represents, begun, ended, defined, walked, ?_⟩
  · have distinct := represents.distinct
    rw [seen] at distinct
    refine List.nodup_reverse.mp ?_
    simpa [Param.variables, Scopes.visible_empty, Function.comp_def] using distinct
  · intro stmt before visits nested result after reached
    exact Check.scopes_eq_of_hasBlocks nested (visits.leveled leveled) reached

/-- **The last pass leaves bodies that are scoped**, each the result of a restoring walk of the body that was there. -/
theorem checkBody_scoped {decl result : Decl} (reached : checkBody decl before = .ok result after) :
    result.Scoped ∧ result.RestoringWalk before.symbols.types before.symbols.functions decl.body? := by
  cases decl with
  | function decl =>
    simp only [checkBody] at reached
    obtain ⟨⟨body, returns⟩, between, walked, check⟩ := step_bind_eq_ok.mp reached
    obtain ⟨state, walking, rfl, rfl⟩ := walk_eq_ok walked
    obtain ⟨_, begun, defining, blocked⟩ := step_bind_eq_ok.mp walking
    obtain ⟨distinct, scopedBody, restoring⟩ := block_scoped defining blocked
    cases checked : checkReturns decl.returnType state.returns with
    | error error => simp only [checked] at check; cases check
    | ok allowed =>
      simp only [checked] at check
      cases check
      exact ⟨⟨distinct, scopedBody⟩, decl.body, rfl, restoring⟩
  | exampleBlock decl =>
    simp only [checkBody] at reached
    obtain ⟨⟨body, returns⟩, between, walked, made⟩ := step_bind_eq_ok.mp reached
    obtain ⟨state, walking, rfl, rfl⟩ := walk_eq_ok walked
    have defining : defineParams [] ⟨before.symbols.functions, .empty, []⟩ = .ok () _ := rfl
    obtain ⟨-, scopedBody, restoring⟩ := block_scoped defining walking
    cases made
    exact ⟨scopedBody, decl.body, rfl, restoring⟩
  | struct | enum | group | binding | importing =>
    cases reached
    exact ⟨trivial, rfl⟩

/-! ## Units -/

/-- Whether the last pass may lead from one state to another: it changes no type table, and functions only join. -/
structure LastPassLeads (before after : Analysis) : Prop where
  types : after.symbols.types = before.symbols.types
  functions : before.symbols.functions.Extends after.symbols.functions

theorem LastPassLeads.refl (analysis : Analysis) : LastPassLeads analysis analysis := ⟨rfl, .refl _⟩

/-- What the last pass does adds up. -/
theorem LastPassLeads.trans {between : Analysis} (first : LastPassLeads before between)
    (second : LastPassLeads between after) : LastPassLeads before after where
  types := second.types.trans first.types
  functions key := (first.functions key).trans (second.functions key)

/-- The check of a body adds functions only. -/
theorem leads_checkBody {decl result : Decl} (reached : checkBody decl before = .ok result after) :
    LastPassLeads before after where
  types := by
    have kept : Keeps (KnowsTypes (· = before.symbols.types)) (checkBody decl) := keepsTypes_checkBody decl
    exact kept.of_eq_ok rfl reached
  functions := by
    have calls := FunctionTable.Extends.keptByCalls before.symbols.functions before.symbols.types.lattice
    exact ((keeps_checkBody_at calls decl).of_eq_ok ⟨rfl, .refl _⟩ reached).2

/-- Each declaration is checked in a state between the first and the last one of the last pass. -/
theorem forall₂_mapM_checkBody {decls results : List Decl} (reached : decls.mapM checkBody before = .ok results after) :
    LastPassLeads before after ∧ List.Forall₂ (fun decl result => ∃ start next, LastPassLeads before start ∧
      checkBody decl start = .ok result next ∧ LastPassLeads next after) decls results := by
  induction decls generalizing before results with
  | nil =>
    cases reached
    exact ⟨.refl _, .nil⟩
  | cons decl rest ih =>
    rw [List.mapM_cons] at reached
    obtain ⟨first, between, stepped, later⟩ := step_bind_eq_ok.mp reached
    obtain ⟨others, ended, steppedRest, made⟩ := step_bind_eq_ok.mp later
    cases made
    have leads := leads_checkBody stepped
    obtain ⟨last, each⟩ := ih steppedRest
    refine ⟨leads.trans last, .cons ⟨before, between, .refl _, stepped, last⟩ ?_⟩
    exact each.imp fun _ _ ⟨start, next, begun, checked, left⟩ => ⟨start, next, leads.trans begun, checked, left⟩

/-- The passes before the last one leave bodies alone. -/
theorem body?_bindGroup {decl result : Decl} (reached : bindGroup decl before = .ok result after) :
    result.body? = decl.body? := by
  cases decl with
  | binding binding =>
    obtain ⟨bound, between, -, made⟩ := step_bind_eq_ok.mp reached
    cases made
    rfl
  | struct | enum | group | function | exampleBlock | importing =>
    cases reached
    rfl

theorem body?_resolveMembers {decl result : Decl} (reached : resolveMembers decl before = .ok result after) :
    result.body? = decl.body? := by
  cases decl with
  | struct decl =>
    rw [resolveMembers] at reached
    obtain ⟨types, made, -⟩ := onTypes_eq_ok reached
    obtain ⟨resolved, -, made⟩ := bind_eq_ok.mp made
    cases made
    rfl
  | binding | enum | group | function | exampleBlock | importing =>
    cases reached
    rfl

theorem body?_collect {decl result : Decl} (reached : collect decl before = .ok result after) :
    result.body? = decl.body? := by
  cases decl with
  | function decl =>
    obtain ⟨closed, closing, rfl, -⟩ := collect_function_eq_ok reached
    obtain ⟨_, _, _, -, -, -, rfl, -⟩ := FunctionDecl.close_eq_ok closing
    rfl
  | binding | enum | group | struct | exampleBlock | importing =>
    cases reached
    rfl

end Analysis

theorem Decl.body?_withOrigin (origin : String) (decl : Decl) : (decl.withOrigin origin).body? = decl.body? := by
  cases decl <;> rfl

/-- Origins have nothing to do with bodies. -/
theorem SourceUnit.map_body?_withOrigins (unit : SourceUnit) :
    unit.withOrigins.declarations.map Decl.body? = unit.declarations.map Decl.body? := by
  rw [withOrigins, List.map_map]
  refine List.map_congr_left fun decl _ => ?_
  simp only [Function.comp_apply]
  split
  · exact Decl.body?_withOrigin _ _
  · rfl

/-- **Accepted bodies are lexically scoped**: a variable has the type of the one introduction of its name that
stands before it in its own block or one around it; a declaration introduces an unseen name; other assignments are
to visible variables that may change. Each body is what the walk of the given one makes, and in that walk the variables
after every branch and loop are those before it. -/
theorem Session.addUnit_scoped {session after : Session} {unit annotated : SourceUnit}
    (accepted : session.addUnit unit = (.ok annotated, after)) :
    annotated.erased = unit.withOrigins.erased ∧ (∀ decl ∈ annotated.declarations, decl.Scoped) ∧
      List.Forall₂ (fun given filled => filled.WalkedFrom session.symbols after.symbols given.body?)
        unit.declarations annotated.declarations := by
  refine ⟨erased_eq accepted, ?_⟩
  obtain ⟨analysis, checked, symbols⟩ := addUnit_eq_ok accepted
  obtain ⟨_, _, resolved, closed, groups, structs, signatures, -, binding, resolving, functions, collecting,
    checking⟩ := Analysis.declarations_eq_ok checked
  have each := (Analysis.forall₂_mapM_checkBody checking).2
  constructor
  · intro decl mem
    obtain ⟨given, -, start, next, stepped⟩ := exists_of_mem_mapM checking decl mem
    exact (Analysis.checkBody_scoped stepped).1
  · have bodies : signatures.map Decl.body? = unit.declarations.map Decl.body? := by
      rw [map_eq_of_mapM (fun _ {_ _ _} stepped => Analysis.body?_collect stepped) collecting,
        map_eq_of_mapM (fun _ {_ _ _} stepped => Analysis.body?_resolveMembers stepped) resolving,
        map_eq_of_mapM (fun _ {_ _ _} stepped => Analysis.body?_bindGroup stepped) binding,
        SourceUnit.map_body?_withOrigins]
    have collects : Keeps (Analysis.Knows session.symbols.functions.Extends) (structs.mapM Analysis.collect) :=
      Keeps.mapM (Analysis.keeps_collect fun _ decl grown => grown.insert decl) _
    have grown : session.symbols.functions.Extends closed.symbols.functions := by
      refine collects.of_eq_ok ?_ collecting
      show session.symbols.functions.Extends resolved.symbols.functions
      rw [functions]
      exact .refl _
    have walked : List.Forall₂ (Decl.WalkedFrom session.symbols analysis.symbols) (signatures.map Decl.body?)
        annotated.declarations := by
      refine List.forall₂_map_left_iff.mpr (each.imp ?_)
      rintro decl result ⟨start, next, begun, stepped, left⟩
      have later := (Analysis.leads_checkBody stepped).trans left
      have restoring := (Analysis.checkBody_scoped stepped).2
      rw [← later.types] at restoring
      exact ⟨start.symbols.functions, fun key => (grown key).trans (begun.functions key), later.functions, restoring⟩
    rw [bodies] at walked
    rw [symbols]
    exact List.forall₂_map_left_iff.mp walked

theorem Session.twiceUnit_scoped : ∃ annotated after, initial.addUnit twiceUnit = (.ok annotated, after) ∧
    annotated.erased = twiceUnit.withOrigins.erased ∧ (∀ decl ∈ annotated.declarations, decl.Scoped) ∧
      List.Forall₂ (fun given filled => filled.WalkedFrom initial.symbols after.symbols given.body?)
        twiceUnit.declarations annotated.declarations := by
  obtain ⟨annotated, after, accepted⟩ := accepts_twiceUnit
  exact ⟨annotated, after, accepted, addUnit_scoped accepted⟩

end DeclCheck
