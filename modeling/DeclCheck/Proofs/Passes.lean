import DeclCheck.Check.Analysis
import DeclCheck.Proofs.Walk.Stmt

/-!
# What the passes do

Each pass over the declarations of a unit, read from its success, and what all of them keep whether they
succeed or not. The first three passes work on the type tables, the fourth adds to the function table, and
the fifth walks bodies, which leaves the type tables as they are.
-/

namespace DeclCheck

/-! ## Registrations that succeed -/

namespace TypeTable

variable {types after : TypeTable}

/-- A struct is entered under a name that is new. -/
theorem registerStruct_eq_ok {decl : StructDecl} (registered : types.registerStruct decl = .ok after) :
    types.structs.find? decl.name.name = none ∧
      after = { types with
        lattice := types.lattice.insert
          (Ty.struct decl.name.name (decl.genericNames.map Ty.generic)) (Ty.builtin .struct)
        structs := types.structs.insert decl.name.name decl } := by
  simp only [registerStruct] at registered
  split at registered
  · cases registered
  · rename_i absent
    cases registered
    exact ⟨absent, rfl⟩

/-- An enum is entered under a name that is new. -/
theorem registerEnum_eq_ok {decl : EnumDecl} (registered : types.registerEnum decl = .ok after) :
    types.enums.find? decl.name.name = none ∧
      after = { types with
        lattice := types.lattice.insert (Ty.enum decl.name.name) (Ty.builtin .enum)
        enums := types.enums.insert decl.name.name decl } := by
  simp only [registerEnum] at registered
  split at registered
  · cases registered
  · rename_i absent
    cases registered
    exact ⟨absent, rfl⟩

/-- A group is entered in the lattice only. -/
theorem registerGroup_eq_ok {decl : GroupDecl} (registered : types.registerGroup decl = .ok after) :
    after = { types with lattice := types.lattice.insert (Ty.group decl.name.name) Ty.any } := by
  simp only [registerGroup] at registered
  split at registered
  · cases registered
  · cases registered
    rfl

/-- A struct is resolved member by member. -/
theorem resolveStruct_eq_ok {decl resolved : StructDecl} (resolving : types.resolveStruct decl = .ok resolved) :
    ∃ members, resolved = { decl with members } ∧ ∀ member ∈ members, ∃ source ∈ decl.members,
      member.name = source.name ∧ types.resolve decl.genericNames source.ty = .ok member.ty := by
  obtain ⟨members, each, made⟩ := bind_eq_ok.mp resolving
  cases made
  refine ⟨members, rfl, forall_of_mapM_eq_ok (fun source mem {member} stepped => ?_) each⟩
  obtain ⟨ty, found, made⟩ := bind_eq_ok.mp stepped
  cases made
  exact ⟨source, mem, rfl, found⟩

end TypeTable

namespace FunctionDecl

variable {types : TypeTable} {decl closed : FunctionDecl}

/-- The names of the generic parameters with those that the parameters introduce. -/
def closedNames (types : TypeTable) (decl : FunctionDecl) : List String :=
  (closedGenerics types decl).map (·.name.name)

/-- A fold whose steps add at the end of a list adds there. -/
theorem exists_foldl_append {α β : Type} {step : List α → β → List α} {good : α → Prop} {items : List β}
    (each : ∀ item ∈ items, ∀ list, ∃ added, step list item = list ++ added ∧ ∀ new ∈ added, good new)
    (start : List α) : ∃ added, items.foldl step start = start ++ added ∧ ∀ new ∈ added, good new := by
  induction items generalizing start with
  | nil => exact ⟨[], (List.append_nil start).symm, fun _ mem => nomatch mem⟩
  | cons item rest ih =>
    obtain ⟨first, stepped, goodFirst⟩ := each item List.mem_cons_self start
    obtain ⟨others, folded, goodOthers⟩ :=
      ih (fun other mem => each other (List.mem_cons_of_mem _ mem)) (step start item)
    refine ⟨first ++ others, ?_, List.forall_mem_append.mpr ⟨goodFirst, goodOthers⟩⟩
    rw [List.foldl_cons, folded, stepped, List.append_assoc]

/-- Resolving a restriction leaves the name of the parameter. -/
theorem name_resolveConstraint {types : TypeTable} {generic resolved : GenericParam}
    (resolving : resolveConstraint types generic = .ok resolved) : resolved.name = generic.name := by
  unfold resolveConstraint at resolving
  split at resolving
  · cases resolving
    rfl
  · obtain ⟨constraint, -, made⟩ := bind_eq_ok.mp resolving
    cases made
    rfl

/-- **Placeholders that parameters introduce come after the generic parameters that are given.** They are not
restricted, and each stands where a parameter does. -/
theorem closedGenerics_eq_append (types : TypeTable) (decl : FunctionDecl) :
    ∃ implicit, closedGenerics types decl = decl.generics ++ implicit ∧
      ∀ generic ∈ implicit, generic.constraint = none ∧
        ∃ param ∈ decl.params, generic.name.location = param.name.location := by
  refine exists_foldl_append (fun param listed generics => ?_) _
  refine exists_foldl_append (fun name _ generics => ?_) _
  split
  · exact ⟨[], (List.append_nil _).symm, fun _ mem => nomatch mem⟩
  · refine ⟨_, rfl, fun generic mem => ?_⟩
    cases List.mem_singleton.mp mem
    exact ⟨rfl, param, listed, rfl⟩

/-- **A signature that closes**: its generic parameters with those that its parameters introduce, and all its types
resolved. -/
theorem close_eq_ok (closing : decl.close types = .ok closed) :
    ∃ generics params returnType,
      (closedGenerics types decl).mapM (resolveConstraint types) = .ok generics ∧
      decl.params.mapM (fun param => do
        let ty ← types.resolve (closedNames types decl) param.ty
        return { param with ty }) = .ok params ∧
      types.resolve (closedNames types decl) decl.returnType = .ok returnType ∧
      closed = { decl with generics, params, returnType } ∧ closed.unboundReturnNames = [] := by
  obtain ⟨generics, restricted, next⟩ := bind_eq_ok.mp closing
  obtain ⟨params, each, next⟩ := bind_eq_ok.mp next
  obtain ⟨returnType, returned, made⟩ := bind_eq_ok.mp next
  dsimp only at made
  split at made
  · rename_i bound
    cases made
    exact ⟨generics, params, returnType, restricted, each, returned, rfl, bound⟩
  · cases made

/-- The type of each parameter of a closed signature is that of a written one, resolved. -/
theorem exists_param_of_close (closing : decl.close types = .ok closed) :
    ∀ param ∈ closed.params, ∃ source ∈ decl.params,
      types.resolve (closedNames types decl) source.ty = .ok param.ty := by
  obtain ⟨_, params, _, -, each, -, rfl, -⟩ := close_eq_ok closing
  refine forall_of_mapM_eq_ok (fun source mem {param} stepped => ?_) each
  obtain ⟨ty, found, made⟩ := bind_eq_ok.mp stepped
  cases made
  exact ⟨source, mem, found⟩

end FunctionDecl

namespace Analysis

variable {α : Type} {before after : Analysis}

/-! ## Steps that succeed -/

/-- A step on the type tables leaves all else in place. -/
theorem onTypes_apply (step : TypeTable → Except Error (α × TypeTable)) (before : Analysis) :
    onTypes step before =
      match step before.symbols.types with
      | .ok (value, types) => .ok value { before with symbols := { before.symbols with types } }
      | .error error => .error error before := by
  rw [onTypes, get_bind_apply]
  cases step before.symbols.types with
  | error error => rfl
  | ok found => rfl

/-- What a step on the type tables that succeeds leaves. -/
theorem onTypes_eq_ok {step : TypeTable → Except Error (α × TypeTable)} {value : α}
    (reached : onTypes step before = .ok value after) :
    ∃ types, step before.symbols.types = .ok (value, types) ∧
      after = { before with symbols := { before.symbols with types } } := by
  rw [onTypes_apply] at reached
  split at reached
  · rename_i found types stepped
    cases reached
    exact ⟨types, stepped, rfl⟩
  · cases reached

/-- A registration that succeeds replaces the type tables. -/
theorem onTypes_map_eq_ok {register : TypeTable → Except Error TypeTable}
    (reached : onTypes (fun types => (register types).map (((), ·))) before = .ok () after) :
    register before.symbols.types = .ok after.symbols.types := by
  obtain ⟨types, registered, rfl⟩ := onTypes_eq_ok reached
  cases outcome : register before.symbols.types with
  | error error => rw [outcome] at registered; cases registered
  | ok found => rw [outcome] at registered; cases registered; rfl

/-- A type that is bound into a group is attached under it in the lattice. -/
theorem bindTypes_inserted {binding bound : GroupBinding} {types after : TypeTable}
    (reached : bindTypes binding types = .ok (bound, after)) :
    ∃ child name nullable lattice,
      types.resolve [] binding.child = .ok child ∧
      types.resolve [] binding.parent = .ok (.atom (.group name) nullable) ∧
      types.lattice.insert? child (.atom (.group name) nullable) = some lattice ∧
      bound = { binding with child, parent := .atom (.group name) nullable } ∧
      after = { types with lattice } := by
  obtain ⟨child, resolvedChild, next⟩ := bind_eq_ok.mp reached
  obtain ⟨parent, resolvedParent, next⟩ := bind_eq_ok.mp next
  split at next
  · split at next
    · rename_i name nullable _ _ entered
      cases next
      obtain ⟨lattice, inserted, made⟩ := Option.map_eq_some_iff.mp entered
      exact ⟨child, name, nullable, lattice, resolvedChild, resolvedParent, inserted, rfl, made.symm⟩
    · cases next
  · cases next

/-- A walk starts from the tables at hand, and leaves the functions and variables it has then. -/
theorem walk_eq_ok {generics : List String} {scopes : Scopes} {body : Env → Check α} {value : α}
    {returns : List (Ty × Location)}
    (reached : walk generics scopes body before = .ok (value, returns) after) :
    ∃ state, body ⟨before.symbols.types, generics⟩ ⟨before.symbols.functions, scopes, []⟩ =
        .ok value state ∧ returns = state.returns ∧
      after = ⟨{ before.symbols with functions := state.functions }, generics, state.scopes⟩ := by
  simp only [walk] at reached
  split at reached
  · rename_i found state walked
    cases reached
    exact ⟨state, walked, rfl, rfl⟩
  · cases reached

/-- A function that can be closed is entered. -/
theorem collect_of_close {decl closed : FunctionDecl} {analysis : Analysis}
    (closing : decl.close analysis.symbols.types = .ok closed) :
    collect (.function decl) analysis = .ok (.function closed) { analysis with symbols :=
      { analysis.symbols with functions := analysis.symbols.functions.insert closed } } := by
  rw [collect, get_bind_apply, closing]
  rfl

/-- One that cannot be closed is refused, and nothing is entered. -/
theorem collect_of_close_error {decl : FunctionDecl} {error : Error} {analysis : Analysis}
    (closing : decl.close analysis.symbols.types = .error error) :
    collect (.function decl) analysis = .error error analysis := by
  rw [collect, get_bind_apply, closing]
  rfl

/-- A function that is collected is closed, and joins the function table. -/
theorem collect_function_eq_ok {decl : FunctionDecl} {result : Decl}
    (reached : collect (.function decl) before = .ok result after) :
    ∃ closed, decl.close before.symbols.types = .ok closed ∧ result = .function closed ∧
      after = { before with symbols :=
        { before.symbols with functions := before.symbols.functions.insert closed } } := by
  simp only [collect] at reached
  obtain ⟨state, between, read, next⟩ := step_bind_eq_ok.mp reached
  cases read
  cases closing : decl.close before.symbols.types with
  | error error => simp only [closing] at next; cases next
  | ok closed =>
    simp only [closing] at next
    cases next
    exact ⟨closed, rfl, rfl, rfl⟩

/-- The parameters of a function become its first variables, and nothing else happens. -/
theorem defineParams_eq_ok {params : List Param} {start state : BodyState}
    (reached : defineParams params start = .ok () state) :
    start.scopes.Grown state.scopes ∧ state = { start with scopes := state.scopes } ∧
      state.scopes.visible = Param.variables params ++ start.scopes.visible := by
  induction params generalizing start with
  | nil =>
    cases reached
    exact ⟨.refl _, rfl, rfl⟩
  | cons param rest ih =>
    rw [defineParams] at reached
    obtain ⟨_, between, defining, later⟩ := step_bind_eq_ok.mp reached
    obtain ⟨scopes, defined, rfl⟩ := Check.define_eq_ok defining
    obtain ⟨grown, frame, seen⟩ := ih later
    obtain ⟨-, listed⟩ := Scopes.define_eq_ok defined
    refine ⟨(Scopes.Grown.of_define defined).trans grown, frame, ?_⟩
    rw [seen, listed]
    simp [Scopes.visible, Param.variables]

/-- Returned types that pass equal the declared one, or are that of `nil` where it is admitted. -/
theorem checkReturns_eq_ok {expected : Ty} {returns : List (Ty × Location)}
    (checked : checkReturns expected returns = .ok ()) :
    ∀ entry ∈ returns,
      entry.1.equals expected = true ∨ (entry.1.isNil = true ∧ expected.nullable = true) := by
  induction returns with
  | nil => intro entry mem; cases mem
  | cons first rest ih =>
    intro entry mem
    simp only [checkReturns] at checked
    split at checked
    · rename_i allowed
      rcases List.mem_cons.mp mem with rfl | later
      · simpa using allowed
      · exact ih checked entry later
    · cases checked

/-! ## Bodies -/

/-- The body of a function is walked from its parameters, and what it returns is checked. -/
theorem checkBody_function_eq_ok {decl : FunctionDecl} {result : Decl}
    (reached : checkBody (.function decl) before = .ok result after) :
    ∃ body returned functions seen, result = .function { decl with body } ∧
      BlockWalk ⟨before.symbols.types, decl.genericNames⟩ before.symbols.functions
        (Param.variables decl.params) decl.body body returned functions seen ∧
      checkReturns decl.returnType returned = .ok () ∧
      after.symbols = { before.symbols with functions } := by
  simp only [checkBody] at reached
  obtain ⟨⟨body, returns⟩, between, walked, check⟩ := step_bind_eq_ok.mp reached
  obtain ⟨state, walking, rfl, rfl⟩ := walk_eq_ok walked
  obtain ⟨_, begun, defining, blocked⟩ := step_bind_eq_ok.mp walking
  obtain ⟨grown, frame, seen⟩ := defineParams_eq_ok defining
  obtain ⟨-, returned, noted, derived⟩ :=
    Check.blockWalk decl.body blocked (Scopes.leveled_empty.grown grown)
  rw [frame] at noted derived
  simp only [Scopes.visible_empty, List.append_nil, List.nil_append] at seen noted
  simp only [seen] at derived
  cases checked : checkReturns decl.returnType state.returns with
  | error error => simp only [checked] at check; cases check
  | ok allowed =>
    simp only [checked] at check
    cases check
    rw [noted] at checked
    exact ⟨body, returned, state.functions, _, rfl, derived, checked, rfl⟩

/-- The body of an example is walked without variables. -/
theorem checkBody_example_eq_ok {decl : ExampleDecl} {result : Decl}
    (reached : checkBody (.exampleBlock decl) before = .ok result after) :
    ∃ body returned functions seen, result = .exampleBlock { decl with body } ∧
      BlockWalk ⟨before.symbols.types, []⟩ before.symbols.functions [] decl.body body returned
        functions seen ∧
      after.symbols = { before.symbols with functions } := by
  simp only [checkBody] at reached
  obtain ⟨⟨body, returns⟩, between, walked, made⟩ := step_bind_eq_ok.mp reached
  obtain ⟨state, walking, rfl, rfl⟩ := walk_eq_ok walked
  obtain ⟨-, returned, -, derived⟩ := Check.blockWalk decl.body walking Scopes.leveled_empty
  cases made
  exact ⟨body, returned, state.functions, _, rfl, derived, rfl⟩

/-! ## What all passes keep of the function table -/

/-- Whether a property holds of the function table that a check has reached. -/
def Knows (known : FunctionTable → Prop) (analysis : Analysis) : Prop :=
  known analysis.symbols.functions

/-- Whether a check has reached a lattice, and a function table with a property. -/
def KnowsAt (lattice : Lattice) (known : FunctionTable → Prop) (analysis : Analysis) : Prop :=
  analysis.symbols.types.lattice = lattice ∧ known analysis.symbols.functions

section

variable {known : FunctionTable → Prop}

/-- A step on the type tables does not touch the functions. -/
theorem keeps_onTypes (step : TypeTable → Except Error (α × TypeTable)) :
    Keeps (Knows known) (onTypes step) := by
  intro analysis holds
  rw [onTypes_apply]
  cases step analysis.symbols.types with
  | error error => exact holds
  | ok found => exact holds

/-- A walk keeps of the functions what its steps keep. -/
theorem keeps_walk {lattice : Lattice} {generics : List String} {scopes : Scopes} {body : Env → Check α}
    (keeps : ∀ env, env.types.lattice = lattice → Keeps (fun state => known state.functions) (body env)) :
    Keeps (KnowsAt lattice known) (walk generics scopes body) := by
  rintro analysis ⟨same, holds⟩
  have kept := keeps ⟨analysis.symbols.types, generics⟩ same ⟨analysis.symbols.functions, scopes, []⟩ holds
  simp only [walk]
  cases walked : body ⟨analysis.symbols.types, generics⟩
      ⟨analysis.symbols.functions, scopes, []⟩ with
  | error error state => rw [walked] at kept; exact ⟨same, kept⟩
  | ok value state => rw [walked] at kept; exact ⟨same, kept⟩

/-- The first pass does not touch the functions. -/
theorem keeps_registerName (decl : Decl) : Keeps (Knows known) (registerName decl) := by
  unfold registerName
  split
  · exact keeps_onTypes _
  · exact keeps_onTypes _
  · exact keeps_onTypes _
  · exact Keeps.pure _

/-- Nor does the second. -/
theorem keeps_bindGroup (decl : Decl) : Keeps (Knows known) (bindGroup decl) := by
  unfold bindGroup
  split
  · exact Keeps.bind (keeps_onTypes _) fun _ => Keeps.pure _
  · exact Keeps.pure _

/-- Nor does the third. -/
theorem keeps_resolveMembers (decl : Decl) : Keeps (Knows known) (resolveMembers decl) := by
  unfold resolveMembers
  split
  · exact keeps_onTypes _
  · exact Keeps.pure _

/-- The fourth pass keeps what entering closed functions keeps. -/
theorem keeps_collect_of_close
    (inserts : ∀ {types decl closed functions}, FunctionDecl.close types decl = .ok closed →
      known functions → known (functions.insert closed))
    (decl : Decl) : Keeps (Knows known) (collect decl) := by
  unfold collect
  split
  · rename_i decl
    intro analysis holds
    rw [get_bind_apply]
    cases closing : decl.close analysis.symbols.types with
    | error error => exact holds
    | ok closed => exact inserts closing holds
  · exact Keeps.pure _

/-- So it keeps what entering any functions keeps. -/
theorem keeps_collect (inserts : ∀ functions decl, known functions → known (functions.insert decl))
    (decl : Decl) : Keeps (Knows known) (collect decl) :=
  keeps_collect_of_close (fun _ => inserts _ _) decl

/-- Declaring parameters keeps what the steps of a body keep. -/
theorem keeps_defineParams {env : Env} {property : BodyState → Prop}
    (steps : Check.StepsKeep env property) (params : List Param) :
    Keeps property (defineParams params) := by
  induction params with
  | nil => exact Keeps.pure _
  | cons param rest ih => exact Keeps.bind (steps.define _) fun _ => ih

/-- The fifth pass keeps what calls keep of the function table, in the lattice that it is given. -/
theorem keeps_checkBody_at {lattice : Lattice} (calls : Check.KeptByCalls lattice known) (decl : Decl) :
    Keeps (KnowsAt lattice known) (checkBody decl) := by
  have steps (env : Env) (same : env.types.lattice = lattice) :
      Check.StepsKeep env fun state => known state.functions :=
    Check.stepsKeep_functions (same ▸ calls)
  unfold checkBody
  split
  · rename_i decl
    refine Keeps.bind (keeps_walk fun env same => ?_) fun walked => ?_
    · exact Keeps.bind (keeps_defineParams (steps env same) _) fun _ => Check.keeps_block (steps env same) _
    · dsimp only
      split
      · exact Keeps.pure _
      · exact Keeps.throw _
  · exact Keeps.bind (keeps_walk fun env same => Check.keeps_block (steps env same) _) fun _ => Keeps.pure _
  · exact Keeps.pure _

/-- The fifth pass keeps what calls keep in any lattice. -/
theorem keeps_checkBody (calls : ∀ lattice, Check.KeptByCalls lattice known) (decl : Decl) :
    Keeps (Knows known) (checkBody decl) :=
  fun analysis holds => (keeps_checkBody_at (calls analysis.symbols.types.lattice) decl analysis ⟨rfl, holds⟩).2

/-- **The check of a unit keeps what calls and insertions of closed signatures keep of the function table.** -/
theorem keeps_declarations_of_close (calls : ∀ lattice, Check.KeptByCalls lattice known)
    (inserts : ∀ {types decl closed functions}, FunctionDecl.close types decl = .ok closed →
      known functions → known (functions.insert closed))
    (decls : List Decl) : Keeps (Knows known) (declarations decls) := by
  refine Keeps.bind (Keeps.forM keeps_registerName _) fun _ => ?_
  refine Keeps.bind (Keeps.mapM keeps_bindGroup _) fun _ => ?_
  refine Keeps.bind (Keeps.mapM keeps_resolveMembers _) fun _ => ?_
  refine Keeps.bind (Keeps.mapM (keeps_collect_of_close inserts) _) fun _ => ?_
  exact Keeps.mapM (keeps_checkBody calls) _

/-- **A whole check keeps of the functions what calls and entering functions keep.** -/
theorem keeps_declarations (calls : ∀ lattice, Check.KeptByCalls lattice known)
    (inserts : ∀ functions decl, known functions → known (functions.insert decl))
    (decls : List Decl) : Keeps (Knows known) (declarations decls) :=
  keeps_declarations_of_close calls (fun _ => inserts _ _) decls

end

/-! ## What all passes keep of the type tables -/

/-- Whether a property holds of the type tables that a check has reached. -/
def KnowsTypes (known : TypeTable → Prop) (analysis : Analysis) : Prop :=
  known analysis.symbols.types

/-- Whether the registrations of names that declarations make keep a property of the type tables. -/
structure NamesKeep (known : TypeTable → Prop) (decls : List Decl) : Prop where
  registerStruct : ∀ {decl types after}, .struct decl ∈ decls → known types →
    types.registerStruct decl = .ok after → known after
  registerEnum : ∀ {decl types after}, .enum decl ∈ decls → known types →
    types.registerEnum decl = .ok after → known after
  registerGroup : ∀ {decl types after}, .group decl ∈ decls → known types →
    types.registerGroup decl = .ok after → known after

/-- **Whether everything that declarations do to the type tables keeps a property of these.** Structs are
replaced only after all names have been registered. -/
structure TypesKeep (known : TypeTable → Prop) (decls : List Decl) : Prop
    extends NamesKeep known decls where
  bindTypes : ∀ {binding bound types after}, .binding binding ∈ decls → known types →
    Analysis.bindTypes binding types = .ok (bound, after) → known after
  updateStruct : ∀ {before after : Analysis}, known before.symbols.types →
    decls.forM registerName before = .ok () after →
    ∀ {decl resolved types}, .struct decl ∈ decls → known types →
      types.resolveStruct decl = .ok resolved → known (types.updateStruct resolved)

section

variable {known : TypeTable → Prop} {decls : List Decl} {decl : Decl}

/-- A step on the type tables keeps of them what it is known to keep. -/
theorem keepsTypes_onTypes {step : TypeTable → Except Error (α × TypeTable)}
    (keeps : ∀ {types value after}, known types → step types = .ok (value, after) → known after) :
    Keeps (KnowsTypes known) (onTypes step) := by
  intro analysis holds
  rw [onTypes_apply]
  cases stepped : step analysis.symbols.types with
  | error error => exact holds
  | ok found => exact keeps holds stepped

/-- The same for a registration. -/
theorem keepsTypes_register {register : TypeTable → Except Error TypeTable}
    (keeps : ∀ {types after}, known types → register types = .ok after → known after) :
    Keeps (KnowsTypes known) (onTypes fun types => (register types).map (((), ·))) := by
  refine keepsTypes_onTypes fun {types value after} holds stepped => ?_
  cases outcome : register types with
  | error error => rw [outcome] at stepped; cases stepped
  | ok found => rw [outcome] at stepped; cases stepped; exact keeps holds outcome

/-- The first pass keeps what the registrations of its declarations keep. -/
theorem keepsTypes_registerName (names : NamesKeep known decls) (mem : decl ∈ decls) :
    Keeps (KnowsTypes known) (registerName decl) := by
  cases decl with
  | struct decl => exact keepsTypes_register (names.registerStruct mem)
  | enum decl => exact keepsTypes_register (names.registerEnum mem)
  | group decl => exact keepsTypes_register (names.registerGroup mem)
  | function | binding | exampleBlock | importing => exact Keeps.pure _

/-- The second pass keeps what bindings keep. -/
theorem keepsTypes_bindGroup
    (bind : ∀ {binding bound types after}, .binding binding ∈ decls → known types →
      bindTypes binding types = .ok (bound, after) → known after)
    (mem : decl ∈ decls) : Keeps (KnowsTypes known) (bindGroup decl) := by
  cases decl with
  | binding binding => exact Keeps.bind (keepsTypes_onTypes (bind mem)) fun _ => Keeps.pure _
  | struct | enum | group | function | exampleBlock | importing => exact Keeps.pure _

/-- The second pass changes group bindings only. -/
theorem bindGroup_struct {binding : Decl} {decl : StructDecl}
    (reached : bindGroup binding before = .ok (.struct decl) after) : binding = .struct decl := by
  cases binding with
  | binding binding =>
    obtain ⟨bound, between, -, made⟩ := step_bind_eq_ok.mp reached
    cases made
  | struct decl =>
    cases reached
    rfl
  | enum | group | function | exampleBlock | importing => cases reached

/-- The third pass keeps what replacing structs by resolved ones keeps. -/
theorem keepsTypes_resolveMembers
    (update : ∀ {own resolved types}, decl = .struct own → known types →
      types.resolveStruct own = .ok resolved → known (types.updateStruct resolved)) :
    Keeps (KnowsTypes known) (resolveMembers decl) := by
  cases decl with
  | struct decl =>
    rw [resolveMembers]
    refine keepsTypes_onTypes fun holds reached => ?_
    obtain ⟨resolved, resolving, made⟩ := bind_eq_ok.mp reached
    cases made
    exact update rfl holds resolving
  | enum | group | function | binding | exampleBlock | importing => exact Keeps.pure _

/-- The fourth pass does not touch the type tables. -/
theorem keepsTypes_collect (decl : Decl) : Keeps (KnowsTypes known) (collect decl) := by
  unfold collect
  split
  · rename_i decl
    intro analysis holds
    rw [get_bind_apply]
    cases decl.close analysis.symbols.types with
    | error error => exact holds
    | ok closed => exact holds
  · exact Keeps.pure _

/-- Nor does a walk. -/
theorem keepsTypes_walk (generics : List String) (scopes : Scopes) (body : Env → Check α) :
    Keeps (KnowsTypes known) (walk generics scopes body) := by
  intro analysis holds
  simp only [walk]
  cases body ⟨analysis.symbols.types, generics⟩ ⟨analysis.symbols.functions, scopes, []⟩ with
  | error error state => exact holds
  | ok value state => exact holds

/-- Nor does the fifth pass. -/
theorem keepsTypes_checkBody (decl : Decl) : Keeps (KnowsTypes known) (checkBody decl) := by
  unfold checkBody
  split
  · refine Keeps.bind (keepsTypes_walk _ _ _) fun walked => ?_
    dsimp only
    split
    · exact Keeps.pure _
    · exact Keeps.throw _
  · exact Keeps.bind (keepsTypes_walk _ _ _) fun _ => Keeps.pure _
  · exact Keeps.pure _

/-- Whether what follows the registration of names keeps a property of the type tables. -/
structure UsesKeep (later : TypeTable → Prop) (decls : List Decl) : Prop where
  bindTypes : ∀ {binding bound types after}, .binding binding ∈ decls → later types →
    Analysis.bindTypes binding types = .ok (bound, after) → later after
  updateStruct : ∀ {decl resolved types}, .struct decl ∈ decls → later types →
    types.resolveStruct decl = .ok resolved → later (types.updateStruct resolved)

/-- What follows the registration of names keeps what its operations keep of the type tables. -/
theorem keepsTypes_uses {later : TypeTable → Prop} (uses : UsesKeep later decls) :
    Keeps (KnowsTypes later) (do
      let decls ← decls.mapM bindGroup
      let decls ← decls.mapM resolveMembers
      let decls ← decls.mapM collect
      decls.mapM checkBody) := by
  refine Keeps.bind_of_eq_ok (Keeps.mapM_of_mem fun _ mem => keepsTypes_bindGroup uses.bindTypes mem) ?_
  intro _ groups bound _ binding
  refine Keeps.bind (Keeps.mapM_of_mem fun decl mem => ?_) fun _ => ?_
  · obtain ⟨source, listed, _, _, stepped⟩ := exists_of_mem_mapM binding decl mem
    refine keepsTypes_resolveMembers fun {own _ _} made holds resolving => ?_
    rw [made] at stepped
    rw [bindGroup_struct stepped] at listed
    exact uses.updateStruct listed holds resolving
  · refine Keeps.bind (Keeps.mapM keepsTypes_collect _) fun _ => ?_
    exact Keeps.mapM keepsTypes_checkBody _

/-- **The check of a unit keeps what holds of the type tables** if it is kept while names are registered, and all names
registered bring about a stronger property that the other passes keep. -/
theorem keepsTypes_declarations_of_registered (later : TypeTable → Prop) (names : NamesKeep known decls)
    (enter : ∀ {before after : Analysis}, known before.symbols.types →
      decls.forM registerName before = .ok () after → later after.symbols.types)
    (uses : UsesKeep later decls) (weaker : ∀ {types}, later types → known types) :
    Keeps (KnowsTypes known) (declarations decls) := by
  intro before holds
  have kept := Keeps.forM_of_mem (fun _ mem => keepsTypes_registerName names mem) before holds
  cases registered : decls.forM registerName before with
  | error error after =>
    rw [registered] at kept
    rw [declarations, stateAfter_bind_of_error registered]
    exact kept
  | ok _ after =>
    rw [declarations, stateAfter_bind_of_ok registered]
    exact weaker (keepsTypes_uses uses after (enter holds registered))

/-- **The check of a unit keeps what its operations keep of the type tables**, whether it succeeds or not. -/
theorem keepsTypes_declarations (keep : TypesKeep known decls) :
    Keeps (KnowsTypes known) (declarations decls) := by
  refine keepsTypes_declarations_of_registered
    (fun types => known types ∧ ∃ before after : Analysis, known before.symbols.types ∧
      decls.forM registerName before = .ok () after) keep.toNamesKeep ?_ ?_ And.left
  · intro before after holds registered
    have kept := Keeps.forM_of_mem (fun _ mem => keepsTypes_registerName keep.toNamesKeep mem)
    exact ⟨kept.of_eq_ok holds registered, before, after, holds, registered⟩
  · constructor
    · intro _ _ _ _ mem held reached
      exact ⟨keep.bindTypes mem held.1 reached, held.2⟩
    · intro decl resolved types mem held resolving
      obtain ⟨holds, before, after, early, registered⟩ := held
      exact ⟨keep.updateStruct early registered mem holds resolving, before, after, early, registered⟩

end

/-- **The passes of a unit, one after another**, each from where the one before it led. The first three leave
the function table as it is. -/
theorem declarations_eq_ok {decls result : List Decl}
    (reached : declarations decls before = .ok result after) :
    ∃ named bound resolved closed : Analysis, ∃ groups structs signatures : List Decl,
      decls.forM registerName before = .ok () named ∧
      decls.mapM bindGroup named = .ok groups bound ∧
      groups.mapM resolveMembers bound = .ok structs resolved ∧
      resolved.symbols.functions = before.symbols.functions ∧
      structs.mapM collect resolved = .ok signatures closed ∧
      signatures.mapM checkBody closed = .ok result after := by
  obtain ⟨_, named, registered, next⟩ := step_bind_eq_ok.mp reached
  obtain ⟨groups, bound, binding, next⟩ := step_bind_eq_ok.mp next
  obtain ⟨structs, resolved, resolving, next⟩ := step_bind_eq_ok.mp next
  obtain ⟨signatures, closed, collecting, checking⟩ := step_bind_eq_ok.mp next
  have first : Knows (· = before.symbols.functions) named :=
    (Keeps.forM keeps_registerName _).of_eq_ok rfl registered
  have second : Knows (· = before.symbols.functions) bound :=
    (Keeps.mapM keeps_bindGroup _).of_eq_ok first binding
  have third : Knows (· = before.symbols.functions) resolved :=
    (Keeps.mapM keeps_resolveMembers _).of_eq_ok second resolving
  exact ⟨named, bound, resolved, closed, groups, structs, signatures, registered, binding, resolving,
    third, collecting, checking⟩

end Analysis

end DeclCheck
