import DeclCheck.Proofs.Session

/-!
# The order of declarations

The passes over a unit work on three kinds of declarations, each in a phase of its own: what introduces names,
what binds types into groups, and what has a body. A pass leaves the declarations of the other phases alone, so
it does not matter how the three kinds are mixed. Main statement: units that differ by nothing else have the same
outcome. In particular a declaration may use names that stand after it.

Declarations of one phase are never exchanged. Their order can matter, and what comes of it is not said.
-/

namespace DeclCheck

/-- **The part of a check that a declaration takes part in.** -/
inductive Phase where
  | names
  | bindings
  | bodies
  deriving DecidableEq, Repr

/-- The phase of a declaration. Imports take part in none. -/
def Decl.phase? : Decl → Option Phase
  | .struct _ | .enum _ | .group _ => some .names
  | .binding _ => some .bindings
  | .function _ | .exampleBlock _ => some .bodies
  | .importing _ => none

/-- **Whether two lists hold the same items, those of each phase in the same order.** Items without a phase may
stand anywhere. -/
structure Reordered {α : Type} (phaseOf : α → Option Phase) (first second : List α) : Prop where
  perm : first.Perm second
  order : ∀ phase, first.filter (phaseOf · == some phase) = second.filter (phaseOf · == some phase)

/-! ## Passes that work on some items only

Items are tracked as pairs: an item as it was given, and what the passes have made of it so far. -/

section

variable {ε σ τ α : Type}

/-- A step for each item is a step for each busy item, if all others are left alone. -/
theorem forM_eq_filter {busy : α → Bool} {step : α → EStateM ε σ PUnit}
    (idle : ∀ item, busy item = false → step item = pure ⟨⟩) (items : List α) :
    items.forM step = (items.filter busy).forM step := by
  induction items with
  | nil => rfl
  | cons item rest ih =>
    cases works : busy item with
    | true =>
      rw [List.filter_cons_of_pos works]
      show (step item >>= fun _ => rest.forM step) = (step item >>= fun _ => (rest.filter busy).forM step)
      rw [ih]
    | false =>
      rw [List.filter_cons_of_neg (by simp [works]), ← ih]
      show (step item >>= fun _ => rest.forM step) = rest.forM step
      rw [idle item works]
      rfl

/-- **Whether a list is that of the tracked items with the busy ones replaced**, in order, by the results. -/
structure Refilled (busy : τ → Bool) (items : List (τ × α)) (results filled : List α) : Prop where
  length : filled.length = items.length
  worked : ((items.map Prod.fst).zip filled).filter (busy ·.1) =
    ((items.filter (busy ·.1)).map Prod.fst).zip results
  left : ((items.map Prod.fst).zip filled).filter (!busy ·.1) = items.filter (!busy ·.1)

/-- Where a pass has work its result stands. -/
theorem Refilled.cons_worked {busy : τ → Bool} {item : τ × α} {items : List (τ × α)} {result : α}
    {results filled : List α} (works : busy item.1 = true) (rest : Refilled busy items results filled) :
    Refilled busy (item :: items) (result :: results) (result :: filled) where
  length := by rw [List.length_cons, List.length_cons, rest.length]
  worked := by simp [works, rest.worked]
  left := by simp [works, rest.left]

/-- Where it has none the declaration stands as it was. -/
theorem Refilled.cons_left {busy : τ → Bool} {item : τ × α} {items : List (τ × α)}
    {results filled : List α} (idles : busy item.1 = false) (rest : Refilled busy items results filled) :
    Refilled busy (item :: items) results (item.2 :: filled) where
  length := by rw [List.length_cons, List.length_cons, rest.length]
  worked := by simp [idles, rest.worked]
  left := by simp [idles, rest.left]

/-- **A pass that leaves all but the busy items alone succeeds with a pass over these.** -/
theorem mapM_refilled (busy : τ → Bool) {step : α → EStateM ε σ α} {items : List (τ × α)}
    (idle : ∀ item ∈ items, busy item.1 = false → step item.2 = pure item.2) {results : List α}
    {before after : σ}
    (reached : ((items.filter (busy ·.1)).map Prod.snd).mapM step before = .ok results after) :
    ∃ filled, (items.map Prod.snd).mapM step before = .ok filled after ∧
      Refilled busy items results filled := by
  induction items generalizing before results with
  | nil =>
    cases reached
    exact ⟨[], rfl, rfl, rfl, rfl⟩
  | cons item rest ih =>
    have idleRest : ∀ other ∈ rest, busy other.1 = false → step other.2 = pure other.2 :=
      fun other mem => idle other (List.mem_cons_of_mem _ mem)
    cases works : busy item.1 with
    | true =>
      rw [List.filter_cons_of_pos (p := fun item : τ × α => busy item.1) works, List.map_cons,
        List.mapM_cons] at reached
      obtain ⟨result, between, stepped, next⟩ := step_bind_eq_ok.mp reached
      obtain ⟨others, ended, steppedRest, made⟩ := step_bind_eq_ok.mp next
      cases made
      obtain ⟨filled, passed, refilled⟩ := ih idleRest steppedRest
      refine ⟨result :: filled, ?_, refilled.cons_worked works⟩
      rw [List.map_cons, List.mapM_cons]
      exact step_bind_eq_ok.mpr ⟨result, between, stepped, step_bind_eq_ok.mpr ⟨filled, _, passed, rfl⟩⟩
    | false =>
      rw [List.filter_cons_of_neg (p := fun item : τ × α => busy item.1) (by simp [works])] at reached
      obtain ⟨filled, passed, refilled⟩ := ih idleRest reached
      refine ⟨item.2 :: filled, ?_, refilled.cons_left works⟩
      rw [List.map_cons, List.mapM_cons, idle item List.mem_cons_self works]
      exact step_bind_eq_ok.mpr ⟨item.2, before, rfl, step_bind_eq_ok.mpr ⟨filled, _, passed, rfl⟩⟩

/-- A pass that leaves all but the busy items alone fails with a pass over these. -/
theorem mapM_eq_error_of_filter (busy : τ → Bool) {step : α → EStateM ε σ α} {items : List (τ × α)}
    (idle : ∀ item ∈ items, busy item.1 = false → step item.2 = pure item.2) {error : ε} {before after : σ}
    (reached : ((items.filter (busy ·.1)).map Prod.snd).mapM step before = .error error after) :
    (items.map Prod.snd).mapM step before = .error error after := by
  induction items generalizing before with
  | nil => cases reached
  | cons item rest ih =>
    have idleRest : ∀ other ∈ rest, busy other.1 = false → step other.2 = pure other.2 :=
      fun other mem => idle other (List.mem_cons_of_mem _ mem)
    rw [List.map_cons, List.mapM_cons]
    cases works : busy item.1 with
    | true =>
      rw [List.filter_cons_of_pos (p := fun item : τ × α => busy item.1) works, List.map_cons,
        List.mapM_cons] at reached
      rcases step_bind_eq_error.mp reached with failed | ⟨result, between, stepped, next⟩
      · exact step_bind_eq_error.mpr (Or.inl failed)
      · refine step_bind_eq_error.mpr (Or.inr ⟨result, between, stepped, ?_⟩)
        rcases step_bind_eq_error.mp next with failed | ⟨_, _, _, made⟩
        · exact step_bind_eq_error.mpr (Or.inl (ih idleRest failed))
        · cases made
    | false =>
      rw [List.filter_cons_of_neg (p := fun item : τ × α => busy item.1) (by simp [works])] at reached
      rw [idle item List.mem_cons_self works]
      refine step_bind_eq_error.mpr (Or.inr ⟨item.2, before, rfl, ?_⟩)
      exact step_bind_eq_error.mpr (Or.inl (ih idleRest reached))

/-- The busy pairs, then the others, are all pairs in another order. -/
theorem Refilled.perm {busy : τ → Bool} {items : List (τ × α)} {results filled : List α}
    (refilled : Refilled busy items results filled) :
    (((items.filter (busy ·.1)).map Prod.fst).zip results ++ items.filter (!busy ·.1)).Perm
      ((items.map Prod.fst).zip filled) := by
  rw [← refilled.worked, ← refilled.left]
  exact List.filter_append_perm _ _

end

/-! ## Reordered items -/

namespace Reordered

variable {α τ : Type} {phaseOf : τ → Option Phase}

/-- A view that keeps phases keeps the order within each. -/
theorem map {first second : List τ} (reordered : Reordered phaseOf first second) {view : τ → α}
    {phaseOfView : α → Option Phase} (same : ∀ item ∈ first, phaseOfView (view item) = phaseOf item) :
    Reordered phaseOfView (first.map view) (second.map view) where
  perm := reordered.perm.map view
  order phase := by
    have viewed {items : List τ} (listed : items ⊆ first) :
        (items.map view).filter (phaseOfView · == some phase) =
          (items.filter (phaseOf · == some phase)).map view := by
      rw [List.filter_map]
      refine congrArg _ (List.filter_congr fun item mem => ?_)
      rw [Function.comp_apply, same item (listed mem)]
    rw [viewed fun _ mem => mem, viewed fun _ mem => reordered.perm.mem_iff.mpr mem, reordered.order phase]

/-- **Replacing the items of one phase, in order, by the same results keeps lists reordered.** -/
theorem refilled {first second : List (τ × α)} {phase : Phase} {results one two : List α}
    (reordered : Reordered (phaseOf ·.1) first second)
    (refilledOne : Refilled (phaseOf · == some phase) first results one)
    (refilledTwo : Refilled (phaseOf · == some phase) second results two) :
    Reordered (phaseOf ·.1) ((first.map Prod.fst).zip one) ((second.map Prod.fst).zip two) where
  perm := by
    refine refilledOne.perm.symm.trans (List.Perm.trans ?_ refilledTwo.perm)
    rw [reordered.order phase]
    exact (reordered.perm.filter _).append_left _
  order other := by
    by_cases same : other = phase
    · rw [same, refilledOne.worked, refilledTwo.worked, reordered.order phase]
    · -- an item of another phase is none of the replaced ones
      have apart (items : List (τ × α)) : items.filter (phaseOf ·.1 == some other) =
          (items.filter fun item => !(phaseOf item.1 == some phase)).filter (phaseOf ·.1 == some other) := by
        rw [List.filter_filter]
        refine List.filter_congr fun item _ => ?_
        by_cases own : phaseOf item.1 = some other
        · simp [own, same]
        · simp [own]
      rw [apart, refilledOne.left, ← apart, apart ((second.map Prod.fst).zip two), refilledTwo.left, ← apart,
        reordered.order other]

end Reordered

/-! ## Passes over reordered declarations -/

namespace Analysis

/-- Whether a pass works on the declarations of one phase only, and makes declarations of that phase of them. -/
structure WorksIn (phase : Phase) (step : Decl → Pass Decl) : Prop where
  idle : ∀ decl, decl.phase? ≠ some phase → step decl = pure decl
  stays : ∀ {decl result before after}, step decl before = .ok result after → result.phase? = decl.phase?

/-- The second pass works on group bindings only. -/
theorem worksIn_bindGroup : WorksIn .bindings bindGroup where
  idle decl other := by
    cases decl with
    | binding binding => exact absurd rfl other
    | struct | enum | group | function | exampleBlock | importing => rfl
  stays {decl _ _ _} reached := by
    cases decl with
    | binding binding =>
      obtain ⟨bound, between, -, made⟩ := step_bind_eq_ok.mp reached
      cases made
      rfl
    | struct | enum | group | function | exampleBlock | importing => cases reached; rfl

/-- The third pass works on what declares names only. -/
theorem worksIn_resolveMembers : WorksIn .names resolveMembers where
  idle decl other := by
    cases decl with
    | struct decl => exact absurd rfl other
    | enum | group | binding | function | exampleBlock | importing => rfl
  stays {decl _ _ _} reached := by
    cases decl with
    | struct decl =>
      rw [resolveMembers] at reached
      obtain ⟨types, resolving, -⟩ := onTypes_eq_ok reached
      obtain ⟨resolved, -, made⟩ := bind_eq_ok.mp resolving
      cases made
      rfl
    | enum | group | binding | function | exampleBlock | importing => cases reached; rfl

/-- The fourth pass works on functions. -/
theorem worksIn_collect : WorksIn .bodies collect where
  idle decl other := by
    cases decl with
    | function decl => exact absurd rfl other
    | struct | enum | group | binding | exampleBlock | importing => rfl
  stays {decl _ _ _} reached := by
    cases decl with
    | function decl =>
      obtain ⟨closed, -, made, -⟩ := collect_function_eq_ok reached
      rw [made]
      rfl
    | struct | enum | group | binding | exampleBlock | importing => cases reached; rfl

/-- The fifth pass works on what has a body. -/
theorem worksIn_checkBody : WorksIn .bodies checkBody where
  idle decl other := by
    cases decl with
    | function decl => exact absurd rfl other
    | exampleBlock decl => exact absurd rfl other
    | struct | enum | group | binding | importing => rfl
  stays {decl _ _ _} reached := by
    cases decl with
    | function decl =>
      obtain ⟨body, _, _, _, made, -⟩ := checkBody_function_eq_ok reached
      rw [made]
      rfl
    | exampleBlock decl =>
      obtain ⟨body, _, _, _, made, -⟩ := checkBody_example_eq_ok reached
      rw [made]
      rfl
    | struct | enum | group | binding | importing => cases reached; rfl

/-- **Two lists of tracked declarations that are reordered**, each form in the phase of its source. -/
structure Tracked (first second : List (Decl × Decl)) : Prop where
  reordered : Reordered (·.1.phase?) first second
  inPhase : ∀ pair ∈ first, pair.2.phase? = pair.1.phase?

/-- **Whether two outcomes agree**: the same error, or the same forms of the sources, and the same state. -/
inductive Agree (first second : List Decl) :
    EStateM.Result Error Analysis (List Decl) → EStateM.Result Error Analysis (List Decl) → Prop
  | error (error : Error) (after : Analysis) : Agree first second (.error error after) (.error error after)
  | ok {one two : List (Decl × Decl)} (after : Analysis) (ofFirst : one.map Prod.fst = first)
      (ofSecond : two.map Prod.fst = second) (tracked : Tracked one two) :
      Agree first second (.ok (one.map Prod.snd) after) (.ok (two.map Prod.snd) after)

variable {phase : Phase} {step : Decl → Pass Decl}

/-- A pass fills declarations with forms of the same phases. -/
theorem WorksIn.inPhase (works : WorksIn phase step) {items : List (Decl × Decl)} {filled : List Decl}
    {before after : Analysis} (inPhase : ∀ pair ∈ items, pair.2.phase? = pair.1.phase?)
    (passed : (items.map Prod.snd).mapM step before = .ok filled after) :
    ∀ pair ∈ (items.map Prod.fst).zip filled, pair.2.phase? = pair.1.phase? := by
  have phases : filled.map Decl.phase? = (items.map Prod.fst).map Decl.phase? := by
    rw [map_eq_of_mapM (fun _ {_ _ _} reached => works.stays reached) passed, List.map_map, List.map_map]
    exact List.map_congr_left inPhase
  intro pair mem
  obtain ⟨index, bound, rfl⟩ := List.getElem_of_mem mem
  rw [List.length_zip, List.length_map, Nat.lt_min] at bound
  have same := congrArg (·[index]?) phases
  simpa [bound] using same

/-- **A pass over reordered declarations ends alike.** It is the pass over those of its phase, which stand in the
same order in both lists. -/
theorem Tracked.mapM {first second : List (Decl × Decl)} (tracked : Tracked first second)
    (works : WorksIn phase step) (before : Analysis) :
    Agree (first.map Prod.fst) (second.map Prod.fst) ((first.map Prod.snd).mapM step before)
      ((second.map Prod.snd).mapM step before) := by
  have inPhaseSecond : ∀ pair ∈ second, pair.2.phase? = pair.1.phase? :=
    fun pair mem => tracked.inPhase pair (tracked.reordered.perm.mem_iff.mpr mem)
  let busy (decl : Decl) : Bool := decl.phase? == some phase
  have idle {items : List (Decl × Decl)} (inPhase : ∀ pair ∈ items, pair.2.phase? = pair.1.phase?) :
      ∀ item ∈ items, busy item.1 = false → step item.2 = pure item.2 := by
    intro item mem other
    refine works.idle item.2 ?_
    rw [inPhase item mem]
    exact beq_eq_false_iff_ne.mp other
  have sameBusy := tracked.reordered.order phase
  cases ran : ((first.filter (·.1.phase? == some phase)).map Prod.snd).mapM step before with
  | error error after =>
    have failedFirst := mapM_eq_error_of_filter busy (idle tracked.inPhase) ran
    rw [sameBusy] at ran
    have failedSecond := mapM_eq_error_of_filter busy (idle inPhaseSecond) ran
    rw [failedFirst, failedSecond]
    exact .error error after
  | ok results after =>
    obtain ⟨one, passedFirst, refilledFirst⟩ :=
      mapM_refilled busy (idle tracked.inPhase) ran
    rw [sameBusy] at ran
    obtain ⟨two, passedSecond, refilledSecond⟩ :=
      mapM_refilled busy (idle inPhaseSecond) ran
    have apart {items : List (Decl × Decl)} {filled : List Decl} (length : filled.length = items.length) :
        ((items.map Prod.fst).zip filled).map Prod.fst = items.map Prod.fst ∧
          ((items.map Prod.fst).zip filled).map Prod.snd = filled :=
      ⟨List.map_fst_zip (by simp [length]), List.map_snd_zip (by simp [length])⟩
    obtain ⟨ofFirst, filledFirst⟩ := apart refilledFirst.length
    obtain ⟨ofSecond, filledSecond⟩ := apart refilledSecond.length
    have agree := Agree.ok after ofFirst ofSecond
      ⟨tracked.reordered.refilled refilledFirst refilledSecond, works.inPhase tracked.inPhase passedFirst⟩
    rw [passedFirst, passedSecond]
    rwa [filledFirst, filledSecond] at agree

/-- Outcomes that agree go on to outcomes that agree, if all tracked declarations do. -/
theorem Agree.bind {first second : List Decl} {one two : Pass (List Decl)} {next : List Decl → Pass (List Decl)}
    {before : Analysis} (agree : Agree first second (one before) (two before))
    (later : ∀ {one two : List (Decl × Decl)} (after : Analysis), one.map Prod.fst = first →
      two.map Prod.fst = second → Tracked one two →
      Agree first second (next (one.map Prod.snd) after) (next (two.map Prod.snd) after)) :
    Agree first second ((one >>= next) before) ((two >>= next) before) := by
  simp only [Bind.bind, EStateM.bind]
  generalize one before = ranOne, two before = ranTwo at agree
  cases agree with
  | error error after => exact .error error after
  | ok after ofFirst ofSecond tracked => exact later after ofFirst ofSecond tracked

/-- The names of reordered declarations are registered alike. -/
theorem forM_registerName_reordered {first second : List Decl} (reordered : Reordered Decl.phase? first second) :
    first.forM registerName = second.forM registerName := by
  have idle (decl : Decl) (other : (decl.phase? == some .names) = false) : registerName decl = pure ⟨⟩ := by
    cases decl with
    | struct | enum | group => cases other
    | function | binding | exampleBlock | importing => rfl
  rw [forM_eq_filter idle first, forM_eq_filter idle second, reordered.order .names]

/-- **The check of reordered declarations ends alike.** -/
theorem Tracked.declarations {first second : List (Decl × Decl)} (tracked : Tracked first second)
    (before : Analysis) :
    Agree (first.map Prod.fst) (second.map Prod.fst) (declarations (first.map Prod.snd) before)
      (declarations (second.map Prod.snd) before) := by
  simp only [Analysis.declarations, forM_registerName_reordered (tracked.reordered.map tracked.inPhase),
    Bind.bind, EStateM.bind]
  cases (second.map Prod.snd).forM registerName before with
  | error error after => exact .error error after
  | ok _ named =>
    refine Agree.bind (tracked.mapM worksIn_bindGroup named) fun bound ofFirst ofSecond tracked => ?_
    rw [← ofFirst, ← ofSecond]
    refine Agree.bind (tracked.mapM worksIn_resolveMembers bound) fun resolved ofFirst ofSecond tracked => ?_
    rw [← ofFirst, ← ofSecond]
    refine Agree.bind (tracked.mapM worksIn_collect resolved) fun closed ofFirst ofSecond tracked => ?_
    rw [← ofFirst, ← ofSecond]
    exact tracked.mapM worksIn_checkBody closed

end Analysis

/-! ## Units -/

/-- A declaration with the origin that its unit gives it. -/
def Decl.withDefaultOrigin (filename : String) (decl : Decl) : Decl :=
  if decl.origin.isEmpty then decl.withOrigin filename else decl

theorem Decl.phase?_withDefaultOrigin (filename : String) (decl : Decl) :
    (decl.withDefaultOrigin filename).phase? = decl.phase? := by
  unfold withDefaultOrigin
  split
  · cases decl <;> rfl
  · rfl

/-- The checks of two units with reordered declarations end alike. -/
theorem Analysis.agree_withOrigins {first second : SourceUnit} (name : second.filename = first.filename)
    (reordered : Reordered Decl.phase? first.declarations second.declarations) (before : Analysis) :
    Agree first.declarations second.declarations (declarations first.withOrigins.declarations before)
      (declarations second.withOrigins.declarations before) := by
  -- each declaration is tracked from the form that its unit gives it
  let pair (decl : Decl) : Decl × Decl := (decl, decl.withDefaultOrigin first.filename)
  have tracked : Tracked (first.declarations.map pair) (second.declarations.map pair) := by
    refine ⟨reordered.map fun _ _ => rfl, fun made mem => ?_⟩
    obtain ⟨decl, _, rfl⟩ := List.mem_map.mp mem
    exact decl.phase?_withDefaultOrigin first.filename
  have sources (decls : List Decl) : (decls.map pair).map Prod.fst = decls := by
    simp [pair, Function.comp_def]
  have forms (unit : SourceUnit) (same : unit.filename = first.filename) :
      (unit.declarations.map pair).map Prod.snd = unit.withOrigins.declarations := by
    simp [pair, SourceUnit.withOrigins, Decl.withDefaultOrigin, same]
  have agree := tracked.declarations before
  rwa [sources, sources, forms first rfl, forms second name] at agree

/-- **Units that differ only in how declarations of different phases are mixed have the same outcome**: the same
error, or the same form of each declaration, and the same session afterwards. -/
theorem Session.addUnit_reordered (session : Session) {first second : SourceUnit}
    (name : second.filename = first.filename) (text : second.content = first.content)
    (reordered : Reordered Decl.phase? first.declarations second.declarations) :
    (session.addUnit first).2 = (session.addUnit second).2 ∧
      ((∃ diagnostic, (session.addUnit first).1 = .error diagnostic ∧
          (session.addUnit second).1 = .error diagnostic) ∨
        ∃ one two : SourceUnit, (session.addUnit first).1 = .ok one ∧ (session.addUnit second).1 = .ok two ∧
          one.sourceFile = first.sourceFile ∧ two.sourceFile = second.sourceFile ∧
          one.declarations.length = first.declarations.length ∧
          two.declarations.length = second.declarations.length ∧
          Reordered (·.1.phase?) (first.declarations.zip one.declarations)
            (second.declarations.zip two.declarations)) := by
  have agree := Analysis.agree_withOrigins name reordered (.start session.symbols)
  simp only [addUnit]
  generalize Analysis.declarations first.withOrigins.declarations _ = ranFirst,
    Analysis.declarations second.withOrigins.declarations _ = ranSecond at agree ⊢
  have file : second.withOrigins.sourceFile = first.withOrigins.sourceFile := by
    simp only [SourceUnit.sourceFile, SourceUnit.withOrigins, name, text]
  have checked : second.withOrigins.filename = first.withOrigins.filename := name
  cases agree with
  | error error after => exact ⟨rfl, Or.inl ⟨_, rfl, by rw [file]⟩⟩
  | @ok one two after ofFirst ofSecond tracked =>
    refine ⟨by rw [checked], Or.inr ⟨_, _, rfl, rfl, rfl, rfl, ?_, ?_, ?_⟩⟩
    · rw [← ofFirst, List.length_map, List.length_map]
    · rw [← ofSecond, List.length_map, List.length_map]
    · rw [← List.zip_of_prod ofFirst rfl, ← List.zip_of_prod ofSecond rfl]
      exact tracked.reordered

/-! ## A unit that uses names before it declares them -/

namespace Session

/-- A struct with one member. -/
private def box : StructDecl where
  name := ⟨"Box", .nowhere⟩
  members := [⟨⟨"size", .nowhere⟩, Ty.written "Integer" []⟩]
  generics := []
  origin := ""
  location := .nowhere

/-- A function that reads the member. -/
private def boxSize : FunctionDecl where
  signature := [⟨"size", .nowhere⟩]
  affix := .after
  returnType := Ty.written "Integer" []
  params := [⟨⟨"box", .nowhere⟩, Ty.written "Box" [], false⟩]
  body := [.returns (some (.mk (.access (.mk (.variable ⟨"box", .nowhere⟩) none .nowhere)
    ⟨"size", .nowhere⟩) none .nowhere)) .nowhere]
  generics := []
  origin := ""
  location := .nowhere

/-- What introduces names: the struct, and a group. -/
private def boxNames : List Decl := [.struct box, .group ⟨⟨"Sized", .nowhere⟩, "", .nowhere⟩]

/-- What uses them: the function, and a binding of the struct into the group. -/
private def boxUses : List Decl :=
  [.function boxSize, .binding ⟨Ty.written "Box" [], Ty.written "Sized" [], "", .nowhere⟩]

/-- A unit that declares names and then uses them. -/
def namesFirst : SourceUnit := ⟨"box.pine", "", boxNames ++ boxUses⟩

/-- The unit that uses the names first. -/
def usesFirst : SourceUnit := ⟨"box.pine", "", boxUses ++ boxNames⟩

theorem addUnit_usesFirst :
    ∃ one two after, initial.addUnit namesFirst = (.ok one, after) ∧
      initial.addUnit usesFirst = (.ok two, after) ∧
      Reordered (·.1.phase?) (namesFirst.declarations.zip one.declarations)
        (usesFirst.declarations.zip two.declarations) := by
  have sameName : usesFirst.filename = namesFirst.filename := rfl
  have reordered : Reordered Decl.phase? namesFirst.declarations usesFirst.declarations :=
    ⟨List.perm_append_comm, fun phase => by cases phase <;> rfl⟩
  obtain ⟨same, ⟨diagnostic, rejected, -⟩ | ⟨one, two, first, second, -, -, -, -, forms⟩⟩ :=
    addUnit_reordered initial sameName rfl reordered
  · cases rejected
  · exact ⟨one, two, _, Prod.ext first rfl, Prod.ext second same.symm, forms⟩

end Session

end DeclCheck
