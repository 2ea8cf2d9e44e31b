import DeclCheck.Proofs.Locations.Trees
import DeclCheck.Proofs.Walk.Keeps

/-!
# Steps that mirror others

A step *mirrors* another if it does, on states without locations, what the other does with the locations forgotten
afterwards: its result, its error and its state are those of the other without locations. To mirror is kept by
putting steps in a row, so the single operations of a walk decide about the walk.
-/

namespace DeclCheck

/-! ## Steps in a row -/

section

variable {σ α β γ δ : Type} {view : σ → σ} {change : α → β} {after : γ → δ}

/-- What forgetting places makes of what a step reaches. -/
def unplacedResult (view : σ → σ) (change : α → β) : EStateM.Result Error σ α → EStateM.Result Error σ β
  | .ok value state => .ok (change value) (view state)
  | .error error state => .error error.unplaced (view state)

/-- What is the same but for places is both a success or both a failure. -/
theorem unplacedResult_eq {first second : EStateM.Result Error σ α}
    (same : unplacedResult view change first = unplacedResult view change second) :
    (∃ value reached other last, first = .ok value reached ∧ second = .ok other last ∧
        change value = change other ∧ view reached = view last) ∨
      ∃ error reached other last, first = .error error reached ∧ second = .error other last ∧
        error.unplaced = other.unplaced ∧ view reached = view last := by
  cases first with
  | ok value reached =>
    cases second with
    | ok other last =>
      obtain ⟨values, states⟩ := EStateM.Result.ok.inj same
      exact .inl ⟨value, reached, other, last, rfl, rfl, values, states⟩
    | error other last => cases same
  | error error reached =>
    cases second with
    | ok other last => cases same
    | error other last =>
      obtain ⟨errors, states⟩ := EStateM.Result.error.inj same
      exact .inr ⟨error, reached, other, last, rfl, rfl, errors, states⟩

/-- **Whether a step does without places what another does with them.** -/
def Mirrors (view : σ → σ) (change : α → β) (image : EStateM Error σ β) (step : EStateM Error σ α) : Prop :=
  ∀ state, image (view state) = unplacedResult view change (step state)

namespace Mirrors

/-- A value is mirrored by its image. -/
theorem pure (value : α) : Mirrors view change (pure (change value)) (pure value) := fun _ => rfl

/-- So it is by anything equal to its image. -/
theorem pure_of_eq {value : α} {image : β} (same : image = change value) :
    Mirrors view change (Pure.pure image) (Pure.pure value) := by
  rw [same]
  exact Mirrors.pure value

/-- Steps that are mirrored one by one are mirrored in a row. -/
theorem bind {step : EStateM Error σ α} {image : EStateM Error σ β} {next : α → EStateM Error σ γ}
    {nextImage : β → EStateM Error σ δ} (one : Mirrors view change image step)
    (two : ∀ value, Mirrors view after (nextImage (change value)) (next value)) :
    Mirrors view after (image >>= nextImage) (step >>= next) := by
  intro state
  have first := one state
  cases reached : step state with
  | error error between =>
    rw [reached] at first
    simp only [Bind.bind, EStateM.bind, first, reached, unplacedResult]
  | ok value between =>
    rw [reached] at first
    simp only [Bind.bind, EStateM.bind, first, reached, unplacedResult]
    exact two value between

/-- A step that begins by reading the state. -/
theorem get_bind {next : σ → EStateM Error σ γ} {nextImage : σ → EStateM Error σ δ}
    (each : ∀ state, Mirrors view after (nextImage (view state)) (next state)) :
    Mirrors view after (get >>= nextImage) (get >>= next) :=
  fun state => each state state

/-- One step for each item of a list. -/
theorem mapM (change : α → β) (after : γ → δ) {step : α → EStateM Error σ γ} {image : β → EStateM Error σ δ}
    (each : ∀ item, Mirrors view after (image (change item)) (step item)) (items : List α) :
    Mirrors view (List.map after) ((items.map change).mapM image) (items.mapM step) := by
  induction items with
  | nil => exact Mirrors.pure []
  | cons item rest ih =>
    rw [List.map_cons, List.mapM_cons, List.mapM_cons]
    exact Mirrors.bind (each item) fun value => Mirrors.bind ih fun others => Mirrors.pure _

/-- The same for one step for each item of a list. -/
theorem forM (change : α → β) {step : α → EStateM Error σ PUnit} {image : β → EStateM Error σ PUnit}
    (each : ∀ item, Mirrors view id (image (change item)) (step item)) (items : List α) :
    Mirrors view id ((items.map change).forM image) (items.forM step) := by
  induction items with
  | nil => exact Mirrors.pure PUnit.unit
  | cons item rest ih => exact Mirrors.bind (each item) fun _ => ih

end Mirrors

end

/-! ## The states of a walk -/

/-- The environment without places. -/
def Env.unplaced (env : Env) : Env := ⟨env.types.unplaced, env.generics⟩

/-- The variable declared nowhere. -/
def LocalVariable.unplaced (var : LocalVariable) : LocalVariable :=
  { var with ty := var.ty.unplaced, location := .nowhere }

namespace Scopes

/-- The variables, declared nowhere. -/
def unplaced (scopes : Scopes) : Scopes :=
  ⟨scopes.level, scopes.declared.map fun entry => (entry.1, entry.2.unplaced)⟩

variable (scopes : Scopes)

/-- A variable is found under the same name. -/
@[simp] theorem lookup?_unplaced (name : String) :
    scopes.unplaced.lookup? name = (scopes.lookup? name).map LocalVariable.unplaced := by
  simp only [lookup?, unplaced, List.find?_map, Option.map_map]
  rfl

/-- The same names are visible. -/
@[simp] theorem visibleNames_unplaced : scopes.unplaced.visibleNames = scopes.visibleNames := by
  simp only [visibleNames, unplaced, List.map_map]
  rfl

/-- A variable is declared, or refused, alike. -/
theorem define_unplaced (var : LocalVariable) :
    scopes.unplaced.define var.unplaced = unplacing unplaced (scopes.define var) := by
  have name : var.unplaced.name = var.name := rfl
  simp only [define, name, lookup?_unplaced]
  cases scopes.lookup? var.name <;> rfl

/-- The same variables are forgotten when a scope is left. -/
@[simp] theorem exit_unplaced : scopes.unplaced.exit = scopes.exit.unplaced := by
  cases scopes with
  | mk level declared =>
    cases level with
    | zero => rfl
    | succ outer =>
      simp only [exit, unplaced, List.filter_map]
      rfl

end Scopes

/-- A returned type written nowhere. -/
def unplacedReturn (entry : Ty × Location) : Ty × Location := (entry.1.unplaced, .nowhere)

/-- **The state of a walk without places and without the bodies of functions.** -/
def BodyState.unplaced (state : BodyState) : BodyState where
  functions := state.functions.outline
  scopes := state.scopes.unplaced
  returns := state.returns.map unplacedReturn

/-! ## The operations of a walk -/

namespace Check

/-- A decision is mirrored by that on the image. -/
theorem mirrors_decide {α β : Type} {change : α → β} {outcome : Except Error α} {image : Except Error β}
    (same : image = unplacing change outcome) :
    Mirrors BodyState.unplaced change (Check.decide image) (Check.decide outcome) := by
  rw [same]
  cases outcome with
  | error error => exact fun _ => rfl
  | ok value => exact fun _ => rfl

/-- A refusal is mirrored by the same refusal nowhere. -/
theorem mirrors_refuse (problem : Problem) (location : Location) :
    Mirrors BodyState.unplaced (id : Unit → Unit) (Check.decide (refuse problem.unplaced .nowhere))
      (Check.decide (refuse problem location)) :=
  mirrors_decide rfl

/-- Declaring a variable is mirrored. -/
theorem mirrors_define (var : LocalVariable) : Mirrors BodyState.unplaced id (define var.unplaced) (define var) := by
  refine Mirrors.get_bind fun state => ?_
  refine Mirrors.bind (mirrors_decide (state.scopes.define_unplaced var)) fun scopes => ?_
  exact fun _ => rfl

theorem mirrors_enter : Mirrors BodyState.unplaced id enter enter := fun _ => rfl

theorem mirrors_exit : Mirrors BodyState.unplaced id exit exit := by
  intro state
  exact congrArg (fun scopes => EStateM.Result.ok () { state.unplaced with scopes }) state.scopes.exit_unplaced

/-- A return is noted without its place. -/
theorem mirrors_noteReturn (ty : Ty) (location : Location) :
    Mirrors BodyState.unplaced id (noteReturn ty.unplaced .nowhere) (noteReturn ty location) := by
  intro state
  have noted : (state.returns ++ [(ty, location)]).map unplacedReturn =
      state.returns.map unplacedReturn ++ [(ty.unplaced, .nowhere)] := List.map_append
  exact congrArg (fun returns => EStateM.Result.ok () { state.unplaced with returns }) noted.symm

/-- A variable has the same type, or is unknown with the same suggestions. -/
theorem mirrors_variableType (ident : Ident) :
    Mirrors BodyState.unplaced Ty.unplaced (variableType ident.unplaced) (variableType ident) := by
  refine Mirrors.get_bind fun state => ?_
  have found := state.scopes.lookup?_unplaced ident.name
  have names := state.scopes.visibleNames_unplaced
  simp only [BodyState.unplaced, Ident.name_unplaced, found, names]
  cases state.scopes.lookup? ident.name with
  | some var => exact Mirrors.pure var.ty
  | none => exact mirrors_decide rfl

/-- **A call is bound to the outline of the same overload.** -/
theorem mirrors_bindCall (env : Env) (key : FunctionKey) (signature : String) (actuals : List Ty)
    (location : Location) :
    Mirrors BodyState.unplaced FunctionDecl.outline
      (bindCall env.unplaced key signature (actuals.map Ty.unplaced) .nowhere)
      (bindCall env key signature actuals location) := by
  intro state
  have bound := Overloading.resolve_outline env.types.lattice state.functions key signature actuals location
  rw [bindCall_apply, bindCall_apply]
  simp only [BodyState.unplaced, Env.unplaced, TypeTable.unplaced, bound]
  cases Overloading.resolve env.types.lattice state.functions key signature actuals location with
  | error error => rfl
  | ok found => rfl

/-- A call is bound by what its signature says and by how many arguments it has. -/
theorem mirrors_bindSignature (env : Env) (signature : Signature) (affix : Affix) (args : List Expr)
    (actuals : List Ty) (location : Location) :
    Mirrors BodyState.unplaced FunctionDecl.outline
      (bindCall env.unplaced (.ofSignature (signature.map Ident.unplaced) (Expr.allUnplaced .kept args).length)
        (Signature.shown (signature.map Ident.unplaced) affix) (actuals.map Ty.unplaced)
        (Location.nowhere.orElse (Signature.location (signature.map Ident.unplaced))))
      (bindCall env (.ofSignature signature args.length) (signature.shown affix) actuals
        (location.orElse signature.location)) := by
  rw [FunctionKey.ofSignature_unplaced, Signature.shown_unplaced, Expr.length_allUnplaced,
    Signature.location_unplaced, Location.orElse_nowhere]
  exact mirrors_bindCall env _ _ actuals _

end Check

end DeclCheck
