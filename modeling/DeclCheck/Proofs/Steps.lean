import DeclCheck.Check.Basic

/-!
# Taking computations apart

A computation of several steps that succeeds is a chain of steps that succeed. This is stated once for
outcomes (`Except`) and once for steps on a state (`EStateM`), where the state after one step is the
state before the next. For properties of the state that hold whether a step succeeds or not there is
`Keeps`.
-/

namespace DeclCheck

/-! ## Outcomes -/

/-- Two outcomes in a row succeed when the first does and the second does with its value. -/
theorem bind_eq_ok {ε α β : Type} {first : Except ε α} {second : α → Except ε β} {result : β} :
    (first >>= second) = .ok result ↔ ∃ value, first = .ok value ∧ second value = .ok result := by
  cases first with
  | error error => simp [bind, Except.bind]
  | ok value => simp [bind, Except.bind]

/-- Two outcomes in a row fail when the first does, or the second with its value. -/
theorem bind_eq_error {ε α β : Type} {first : Except ε α} {second : α → Except ε β} {error : ε} :
    (first >>= second) = .error error ↔
      first = .error error ∨ ∃ value, first = .ok value ∧ second value = .error error := by
  cases first with
  | error error => simp [bind, Except.bind]
  | ok value => simp [bind, Except.bind]

/-- Of outcomes in a row that fail one fails. -/
theorem exists_of_mapM_eq_error {ε α β : Type} {step : α → Except ε β} {items : List α} {error : ε}
    (failed : items.mapM step = .error error) : ∃ item ∈ items, step item = .error error := by
  induction items with
  | nil => cases failed
  | cons item rest ih =>
    rw [List.mapM_cons] at failed
    rcases bind_eq_error.mp failed with first | ⟨result, -, later⟩
    · exact ⟨item, List.mem_cons_self, first⟩
    · rcases bind_eq_error.mp later with inRest | ⟨results, -, made⟩
      · obtain ⟨other, mem, refused⟩ := ih inRest
        exact ⟨other, List.mem_cons_of_mem _ mem, refused⟩
      · cases made

/-- Of outcomes in a row that succeed each has its result. -/
theorem exists_result_of_mapM_eq_ok {ε α β : Type} {step : α → Except ε β} {items : List α} {results : List β}
    (reached : items.mapM step = .ok results) : ∀ item ∈ items, ∃ result ∈ results, step item = .ok result := by
  induction items generalizing results with
  | nil => exact fun _ mem => nomatch mem
  | cons item rest ih =>
    rw [List.mapM_cons] at reached
    obtain ⟨first, stepped, later⟩ := bind_eq_ok.mp reached
    obtain ⟨others, steppedRest, made⟩ := bind_eq_ok.mp later
    cases made
    intro other mem
    rcases List.mem_cons.mp mem with rfl | inRest
    · exact ⟨first, List.mem_cons_self, stepped⟩
    · obtain ⟨result, listed, reachedOther⟩ := ih steppedRest other inRest
      exact ⟨result, List.mem_cons_of_mem _ listed, reachedOther⟩

/-- All results of outcomes in a row are good if each is. -/
theorem forall_of_mapM_eq_ok {ε α β : Type} {step : α → Except ε β} {good : β → Prop} {items : List α}
    {results : List β} (each : ∀ item ∈ items, ∀ {result : β}, step item = .ok result → good result)
    (reached : items.mapM step = .ok results) : ∀ result ∈ results, good result := by
  induction items generalizing results with
  | nil =>
    cases reached
    exact fun _ mem => by cases mem
  | cons item rest ih =>
    rw [List.mapM_cons] at reached
    obtain ⟨first, stepped, later⟩ := bind_eq_ok.mp reached
    obtain ⟨others, steppedRest, made⟩ := bind_eq_ok.mp later
    cases made
    intro result mem
    rcases List.mem_cons.mp mem with rfl | last
    · exact each item List.mem_cons_self stepped
    · exact ih (fun other mem => each other (List.mem_cons_of_mem _ mem)) steppedRest result last

/-- What an outcome does not change of its item is the same for all results and items. -/
theorem map_eq_of_mapM_eq_ok {ε α β γ : Type} {step : α → Except ε β} {ofItem : α → γ} {ofResult : β → γ}
    {items : List α} {results : List β}
    (each : ∀ item {result : β}, step item = .ok result → ofResult result = ofItem item)
    (reached : items.mapM step = .ok results) : results.map ofResult = items.map ofItem := by
  induction items generalizing results with
  | nil => cases reached; rfl
  | cons item rest ih =>
    rw [List.mapM_cons] at reached
    obtain ⟨first, stepped, later⟩ := bind_eq_ok.mp reached
    obtain ⟨others, steppedRest, made⟩ := bind_eq_ok.mp later
    cases made
    rw [List.map_cons, List.map_cons, each item stepped, ih steppedRest]

/-! ## Steps on a state -/

section

variable {ε σ α β : Type}

/-- **Two steps in a row succeed** when the first does and the second does from where it led. -/
theorem step_bind_eq_ok {first : EStateM ε σ α} {second : α → EStateM ε σ β} {result : β}
    {before after : σ} :
    (first >>= second) before = .ok result after ↔
      ∃ value between, first before = .ok value between ∧ second value between = .ok result after := by
  simp only [bind, EStateM.bind]
  cases first before with
  | error error state => simp
  | ok value state =>
    simp only [EStateM.Result.ok.injEq]
    constructor
    · intro reached
      exact ⟨value, state, ⟨rfl, rfl⟩, reached⟩
    · rintro ⟨_, _, ⟨rfl, rfl⟩, reached⟩
      exact reached

/-- Two steps in a row fail when the first does, or the second from where the first led. -/
theorem step_bind_eq_error {first : EStateM ε σ α} {second : α → EStateM ε σ β} {error : ε}
    {before after : σ} :
    (first >>= second) before = .error error after ↔
      first before = .error error after ∨
        ∃ value between, first before = .ok value between ∧ second value between = .error error after := by
  simp only [bind, EStateM.bind]
  cases first before with
  | error failed state => simp
  | ok value state =>
    simp only [reduceCtorEq, false_or, EStateM.Result.ok.injEq]
    constructor
    · intro reached
      exact ⟨value, state, ⟨rfl, rfl⟩, reached⟩
    · rintro ⟨_, _, ⟨rfl, rfl⟩, reached⟩
      exact reached

theorem step_pure_eq_ok {value result : α} {before after : σ} :
    (pure value : EStateM ε σ α) before = .ok result after ↔ result = value ∧ after = before := by
  simp only [pure, EStateM.pure, EStateM.Result.ok.injEq]
  exact ⟨fun ⟨same, still⟩ => ⟨same.symm, still.symm⟩, fun ⟨same, still⟩ => ⟨same.symm, still.symm⟩⟩

/-- A step that begins by reading the state goes on with the state it is in. -/
theorem get_bind_apply (next : σ → EStateM ε σ α) (state : σ) : (get >>= next) state = next state state :=
  rfl

/-- The state that a step leads to, whether it succeeds or not. -/
def stateAfter : EStateM.Result ε σ α → σ
  | .ok _ state => state
  | .error _ state => state

/-- After a step that succeeds, what follows decides the state. -/
theorem stateAfter_bind_of_ok {first : EStateM ε σ α} {second : α → EStateM ε σ β} {before between : σ} {value : α}
    (stepped : first before = .ok value between) :
    stateAfter ((first >>= second) before) = stateAfter (second value between) := by
  simp only [bind, EStateM.bind, stepped]

/-- After one that fails, nothing follows. -/
theorem stateAfter_bind_of_error {first : EStateM ε σ α} {second : α → EStateM ε σ β} {before after : σ} {error : ε}
    (failed : first before = .error error after) : stateAfter ((first >>= second) before) = after := by
  simp only [bind, EStateM.bind, failed, stateAfter]

/-- What is made of the value of a step does not change the state. -/
theorem stateAfter_bind_pure (step : EStateM ε σ α) (change : α → β) (before : σ) :
    stateAfter ((step >>= fun value => pure (change value)) before) = stateAfter (step before) := by
  cases stepped : step before with
  | error error after => exact stateAfter_bind_of_error stepped
  | ok value after => exact stateAfter_bind_of_ok stepped

/-- **Whether a step keeps a property of the state**, also when it fails. -/
def Keeps (property : σ → Prop) (step : EStateM ε σ α) : Prop :=
  ∀ state, property state → property (stateAfter (step state))

variable {property : σ → Prop}

/-- A mere value keeps everything. -/
theorem Keeps.pure (value : α) : Keeps property (pure value : EStateM ε σ α) :=
  fun _ holds => holds

/-- Two steps in a row keep a property that the first keeps, and the second after every value that the first
can give where the property holds. -/
theorem Keeps.bind_of_eq_ok {first : EStateM ε σ α} {second : α → EStateM ε σ β}
    (one : Keeps property first)
    (two : ∀ {before value after}, property before → first before = .ok value after →
      Keeps property (second value)) : Keeps property (first >>= second) := by
  intro state holds
  have between := one state holds
  simp only [Bind.bind, EStateM.bind]
  cases outcome : first state with
  | error error stopped =>
    rw [outcome] at between
    exact between
  | ok value reached =>
    rw [outcome] at between
    exact two holds outcome reached between

/-- What two steps keep, both together keep. -/
theorem Keeps.bind {first : EStateM ε σ α} {second : α → EStateM ε σ β} (one : Keeps property first)
    (two : ∀ value, Keeps property (second value)) : Keeps property (first >>= second) :=
  Keeps.bind_of_eq_ok one fun _ _ => two _

/-- A step that begins by reading the state keeps what it keeps for every state read. -/
theorem Keeps.get_bind {next : σ → EStateM ε σ α} (keeps : ∀ state, Keeps property (next state)) :
    Keeps property (get >>= next) :=
  fun state holds => keeps state state holds

/-- A failure keeps everything. -/
theorem Keeps.throw (error : ε) : Keeps property (throw error : EStateM ε σ α) :=
  fun _ holds => holds

/-- A step that keeps a property leads from where it holds to where it holds. -/
theorem Keeps.of_eq_ok {step : EStateM ε σ α} (keeps : Keeps property step) {value : α}
    {before after : σ} (holds : property before) (reached : step before = .ok value after) :
    property after := by
  have kept := keeps before holds
  rw [reached] at kept
  exact kept

/-- What the step for each item keeps, all of them together keep. -/
theorem Keeps.mapM_of_mem {step : α → EStateM ε σ β} {items : List α}
    (each : ∀ item ∈ items, Keeps property (step item)) : Keeps property (items.mapM step) := by
  induction items with
  | nil => exact Keeps.pure []
  | cons item rest ih =>
    rw [List.mapM_cons]
    refine Keeps.bind (each item List.mem_cons_self) fun _ => ?_
    exact Keeps.bind (ih fun other mem => each other (List.mem_cons_of_mem _ mem)) fun _ => Keeps.pure _

/-- The same for a step that keeps it for any item. -/
theorem Keeps.mapM {step : α → EStateM ε σ β} (each : ∀ item, Keeps property (step item))
    (items : List α) : Keeps property (items.mapM step) :=
  Keeps.mapM_of_mem fun item _ => each item

/-- The same for steps without results. -/
theorem Keeps.forM_of_mem {step : α → EStateM ε σ PUnit} {items : List α}
    (each : ∀ item ∈ items, Keeps property (step item)) : Keeps property (items.forM step) := by
  induction items with
  | nil => exact Keeps.pure _
  | cons item rest ih =>
    refine Keeps.bind (each item List.mem_cons_self) fun _ => ?_
    exact ih fun other mem => each other (List.mem_cons_of_mem _ mem)

theorem Keeps.forM {step : α → EStateM ε σ PUnit} (each : ∀ item, Keeps property (step item))
    (items : List α) : Keeps property (items.forM step) :=
  Keeps.forM_of_mem fun item _ => each item

/-- **One step for each item of a list**, along the items that are left. What holds of the state and these
holds at the end with none left, and each result is good. -/
theorem mapM_along {step : α → EStateM ε σ β} (invariant : List α → σ → Prop) {good : β → Prop}
    {items : List α} {results : List β} {before after : σ}
    (each : ∀ item rest {before after : σ} {result : β}, invariant (item :: rest) before →
      step item before = .ok result after → invariant rest after ∧ good result)
    (holds : invariant items before) (reached : items.mapM step before = .ok results after) :
    invariant [] after ∧ ∀ result ∈ results, good result := by
  induction items generalizing before results with
  | nil =>
    cases reached
    exact ⟨holds, fun _ mem => by cases mem⟩
  | cons item rest ih =>
    rw [List.mapM_cons] at reached
    obtain ⟨first, between, stepped, later⟩ := step_bind_eq_ok.mp reached
    obtain ⟨others, ended, steppedRest, made⟩ := step_bind_eq_ok.mp later
    cases made
    obtain ⟨kept, goodFirst⟩ := each item rest holds stepped
    obtain ⟨keptRest, goodRest⟩ := ih kept steppedRest
    refine ⟨keptRest, fun result mem => ?_⟩
    rcases List.mem_cons.mp mem with rfl | last
    · exact goodFirst
    · exact goodRest result last

/-- One step for each item of a list, where what holds of the state does not depend on the items left. -/
theorem mapM_eq_ok {step : α → EStateM ε σ β} {good : β → Prop} {items : List α} {results : List β}
    {before after : σ}
    (each : ∀ item ∈ items, ∀ {before after : σ} {result : β}, property before →
      step item before = .ok result after → property after ∧ good result)
    (holds : property before) (reached : items.mapM step before = .ok results after) :
    property after ∧ ∀ result ∈ results, good result := by
  have all := mapM_along (fun rest state => property state ∧ rest ⊆ items)
    (fun item rest {_ _ _} held stepped => by
      obtain ⟨kept, goodFirst⟩ := each item (held.2 List.mem_cons_self) held.1 stepped
      exact ⟨⟨kept, fun other mem => held.2 (List.mem_cons_of_mem _ mem)⟩, goodFirst⟩)
    ⟨holds, fun _ mem => mem⟩ reached
  exact ⟨all.1.1, all.2⟩

/-- Each result of one step for each item of a list is that of a step for some item. -/
theorem exists_of_mem_mapM {step : α → EStateM ε σ β} {items : List α} {results : List β}
    {before after : σ} (reached : items.mapM step before = .ok results after) :
    ∀ result ∈ results, ∃ item ∈ items, ∃ before after, step item before = .ok result after := by
  have anywhere : (fun _ : σ => True) before := trivial
  exact (mapM_eq_ok (fun item mem {_ _ _} _ stepped => ⟨trivial, item, mem, _, _, stepped⟩)
    anywhere reached).2

/-- What a step does not change of its item is the same for all results and items. -/
theorem map_eq_of_mapM {γ : Type} {step : α → EStateM ε σ β} {ofItem : α → γ} {ofResult : β → γ}
    {items : List α} {results : List β} {before after : σ}
    (each : ∀ item {before after : σ} {result : β}, step item before = .ok result after →
      ofResult result = ofItem item)
    (reached : items.mapM step before = .ok results after) : results.map ofResult = items.map ofItem := by
  induction items generalizing before results with
  | nil => cases reached; rfl
  | cons item rest ih =>
    rw [List.mapM_cons] at reached
    obtain ⟨first, between, stepped, later⟩ := step_bind_eq_ok.mp reached
    obtain ⟨others, ended, steppedRest, made⟩ := step_bind_eq_ok.mp later
    cases made
    rw [List.map_cons, List.map_cons, each item stepped, ih steppedRest]

/-- An invariant of each step that succeeds holds after all. -/
theorem forM_eq_ok {step : α → EStateM ε σ PUnit} {items : List α} {before after : σ}
    (each : ∀ item ∈ items, ∀ {before after : σ}, property before →
      step item before = .ok ⟨⟩ after → property after)
    (holds : property before) (reached : items.forM step before = .ok ⟨⟩ after) : property after := by
  induction items generalizing before with
  | nil => cases reached; exact holds
  | cons item rest ih =>
    obtain ⟨_, between, stepped, later⟩ := step_bind_eq_ok.mp reached
    exact ih (fun other mem => each other (List.mem_cons_of_mem _ mem))
      (each item List.mem_cons_self holds stepped) later

end

/-! ## Steps of a walk -/

namespace Check

variable {α : Type} {outcome : Except Error α} {value : α} {before after : BodyState}

/-- A decision changes no state. -/
theorem decide_eq_ok : Check.decide outcome before = .ok value after ↔
    outcome = .ok value ∧ after = before := by
  cases outcome with
  | error error =>
    constructor
    · intro reached
      cases reached
    · intro reached
      cases reached.1
  | ok found =>
    rw [Check.decide, step_pure_eq_ok, Except.ok.injEq, eq_comm]

/-- So it keeps everything. -/
theorem keeps_decide {property : BodyState → Prop} (outcome : Except Error α) :
    Keeps property (Check.decide outcome) := by
  cases outcome with
  | error error => exact Keeps.throw error
  | ok value => exact Keeps.pure value

end Check

end DeclCheck
