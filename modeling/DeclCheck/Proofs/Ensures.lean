import DeclCheck.Proofs.Steps

/-!
# What steps ensure

`Keeps` speaks of states alone. Where what a step does to the state depends on the values it is given, and where its
errors matter too, there is `Ensures`: from every state with a property, the step leads to a state with the property
whether it succeeds or not, its result is good, and its error is of an allowed kind.
-/

namespace DeclCheck

/-! ## Outcomes -/

section

variable {ε α β : Type} {allowed : ε → Prop}

/-- Whether the error of an outcome, if it is one, is allowed. -/
def ErrorsIn (allowed : ε → Prop) (outcome : Except ε α) : Prop :=
  ∀ error, outcome = .error error → allowed error

theorem ErrorsIn.ok (value : α) : ErrorsIn allowed (.ok value : Except ε α) :=
  fun _ same => nomatch same

theorem ErrorsIn.error {error : ε} (fine : allowed error) : ErrorsIn allowed (.error error : Except ε α) := by
  intro other same
  cases same
  exact fine

/-- Errors that are allowed are allowed where more are. -/
theorem ErrorsIn.mono {wider : ε → Prop} {outcome : Except ε α} (errors : ErrorsIn allowed outcome)
    (admits : ∀ error, allowed error → wider error) : ErrorsIn wider outcome :=
  fun error same => admits error (errors error same)

/-- Errors of either part are errors of both in a row. -/
theorem ErrorsIn.bind {first : Except ε α} {second : α → Except ε β} (one : ErrorsIn allowed first)
    (two : ∀ value, first = .ok value → ErrorsIn allowed (second value)) : ErrorsIn allowed (first >>= second) := by
  cases first with
  | error error => exact ErrorsIn.error (one error rfl)
  | ok value => exact two value rfl

/-- Changing a value makes no error. -/
theorem ErrorsIn.map {outcome : Except ε α} (errors : ErrorsIn allowed outcome) (change : α → β) :
    ErrorsIn allowed (outcome.map change) := by
  cases outcome with
  | error error => exact ErrorsIn.error (errors error rfl)
  | ok value => exact ErrorsIn.ok _

/-- Errors for items of a list are those for one of them. -/
theorem ErrorsIn.mapM {step : α → Except ε β} {items : List α}
    (each : ∀ item ∈ items, ErrorsIn allowed (step item)) : ErrorsIn allowed (items.mapM step) := by
  induction items with
  | nil => exact ErrorsIn.ok []
  | cons item rest ih =>
    rw [List.mapM_cons]
    refine ErrorsIn.bind (each item List.mem_cons_self) fun _ _ => ?_
    have later := ih fun other mem => each other (List.mem_cons_of_mem _ mem)
    exact ErrorsIn.bind later fun _ _ => ErrorsIn.ok _

end

/-! ## Steps on a state -/

section

variable {ε σ α β : Type} {property : σ → Prop} {good : α → Prop} {allowed : ε → Prop}

/-- **What a step ensures from states with a property.** -/
structure Ensures (property : σ → Prop) (good : α → Prop) (allowed : ε → Prop) (step : EStateM ε σ α) : Prop where
  ok : ∀ {before after : σ} {value : α}, property before → step before = .ok value after →
    property after ∧ good value
  error : ∀ {before after : σ} {error : ε}, property before → step before = .error error after →
    property after ∧ allowed error

namespace Ensures

/-- A mere value ensures what holds of it. -/
theorem pure {value : α} (fine : good value) : Ensures property good allowed (pure value : EStateM ε σ α) where
  ok holds reached := by
    cases reached
    exact ⟨holds, fine⟩
  error _ reached := by cases reached

/-- A failure ensures anything, if its error is allowed. -/
theorem throw {error : ε} (fine : allowed error) :
    Ensures property good allowed (throw error : EStateM ε σ α) where
  ok _ reached := by cases reached
  error holds reached := by
    cases reached
    exact ⟨holds, fine⟩

/-- Two steps in a row, the second from every result that the first may have. -/
theorem bind {middle : α → Prop} {good : β → Prop} {first : EStateM ε σ α} {second : α → EStateM ε σ β}
    (one : Ensures property middle allowed first)
    (two : ∀ value, middle value → Ensures property good allowed (second value)) :
    Ensures property good allowed (first >>= second) where
  ok holds reached := by
    obtain ⟨value, between, stepped, later⟩ := step_bind_eq_ok.mp reached
    obtain ⟨kept, fine⟩ := one.ok holds stepped
    exact (two value fine).ok kept later
  error holds reached := by
    rcases step_bind_eq_error.mp reached with failed | ⟨value, between, stepped, later⟩
    · exact one.error holds failed
    · obtain ⟨kept, fine⟩ := one.ok holds stepped
      exact (two value fine).error kept later

/-- A step that begins by reading the state reads one with the property. -/
theorem get_bind {next : σ → EStateM ε σ α}
    (each : ∀ state, property state → Ensures property good allowed (next state)) :
    Ensures property good allowed (get >>= next) where
  ok holds reached := (each _ holds).ok holds reached
  error holds reached := (each _ holds).error holds reached

/-- A change of state ensures what it keeps. -/
theorem modify {change : σ → σ} (keeps : ∀ state, property state → property (change state)) :
    Ensures property (fun _ : PUnit => True) allowed (modify change : EStateM ε σ PUnit) where
  ok holds reached := by
    cases reached
    exact ⟨keeps _ holds, trivial⟩
  error _ reached := by cases reached

/-- A state that is set has to have the property. -/
theorem set {state : σ} (holds : property state) :
    Ensures property (fun _ : PUnit => True) allowed (set state : EStateM ε σ PUnit) where
  ok _ reached := by
    cases reached
    exact ⟨holds, trivial⟩
  error _ reached := by cases reached

/-- What is ensured may be weakened. -/
theorem mono {better : α → Prop} {step : EStateM ε σ α} (ensures : Ensures property better allowed step)
    (weaker : ∀ value, better value → good value) : Ensures property good allowed step where
  ok holds reached := (ensures.ok holds reached).imp_right (weaker _)
  error := ensures.error

/-- A step ensures what it ensures from each state under a property of that state's own. -/
theorem of_each {step : EStateM ε σ α}
    (each : ∀ state, property state → ∃ own : σ → Prop, own state ∧ (∀ after, own after → property after) ∧
      Ensures own good allowed step) : Ensures property good allowed step where
  ok {before _ _} holds reached := by
    obtain ⟨own, here, wider, ensures⟩ := each before holds
    exact (ensures.ok here reached).imp_left (wider _)
  error {before _ _} holds reached := by
    obtain ⟨own, here, wider, ensures⟩ := each before holds
    exact (ensures.error here reached).imp_left (wider _)

/-- What is ensured for each item is ensured of all results. -/
theorem mapM {good : β → Prop} {step : α → EStateM ε σ β} {items : List α}
    (each : ∀ item ∈ items, Ensures property good allowed (step item)) :
    Ensures property (fun results => ∀ result ∈ results, good result) allowed (items.mapM step) := by
  induction items with
  | nil =>
    refine Ensures.pure fun _ mem => ?_
    cases mem
  | cons item rest ih =>
    rw [List.mapM_cons]
    refine Ensures.bind (each item List.mem_cons_self) fun first fine => ?_
    refine Ensures.bind (ih fun other mem => each other (List.mem_cons_of_mem _ mem)) fun later fineRest => ?_
    refine Ensures.pure fun result mem => ?_
    rcases List.mem_cons.mp mem with rfl | last
    · exact fine
    · exact fineRest result last

/-- The same for steps without results. -/
theorem forM {step : α → EStateM ε σ PUnit} {items : List α}
    (each : ∀ item ∈ items, Ensures property (fun _ => True) allowed (step item)) :
    Ensures property (fun _ => True) allowed (items.forM step) := by
  induction items with
  | nil => exact Ensures.pure trivial
  | cons item rest ih =>
    refine Ensures.bind (each item List.mem_cons_self) fun _ _ => ?_
    exact ih fun other mem => each other (List.mem_cons_of_mem _ mem)

end Ensures

end

/-- A decision ensures what its outcome says. -/
theorem Check.ensures_decide {α : Type} {property : BodyState → Prop} {good : α → Prop} {allowed : Error → Prop}
    {outcome : Except Error α} (fine : ∀ value, outcome = .ok value → good value)
    (errors : ErrorsIn allowed outcome) : Ensures property good allowed (Check.decide outcome) := by
  cases outcome with
  | ok value => exact Ensures.pure (fine value rfl)
  | error error => exact Ensures.throw (errors error rfl)

/-- Of a decision whose value does not matter its errors are all that has to be known. -/
theorem Check.ensures_decide_any {α : Type} {property : BodyState → Prop} {allowed : Error → Prop}
    {outcome : Except Error α} (errors : ErrorsIn allowed outcome) :
    Ensures property (fun _ => True) allowed (Check.decide outcome) :=
  Check.ensures_decide (fun _ _ => trivial) errors

end DeclCheck
