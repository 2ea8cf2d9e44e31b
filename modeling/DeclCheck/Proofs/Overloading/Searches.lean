import DeclCheck.Proofs.Lattice.Search
import DeclCheck.Proofs.Overloading.Choice

/-!
# The searches of a call

To bind a call the lattice is searched, and a search may never end. A call that makes such a search never returns, and
what is said of its outcome then says nothing. Here a call is bound once more, search by search in the order of the
assessments, and it has an outcome only as far as all of them end.

The *ascents* of a call are the pairs that it searches the lattice for. There are none for a call that some overload
matches exactly. Otherwise every candidate is assessed: the restrictions of its placeholders in order, up to the first
that is violated, and then its positions in order, up to the first that disqualifies. Equal types, and types that meet
at `nil`, take no search. The main result is that the call returns just if all its ascents end, and then with the
outcome of `resolve`.

Which ascents end is not decided here: `Proofs.Lattice.Termination` does that from the hops of a lattice.
-/

namespace DeclCheck

/-- **A way up that is searched for**, from a child to an ancestor. -/
structure Ascent where
  child : Ty
  ancestor : Ty

/-- **Whether the search for an ascent comes to an end.** -/
def Ascent.Ends (lattice : Lattice) (ascent : Ascent) : Prop :=
  ¬ lattice.ClimbsForever ascent.child ascent.ancestor

namespace Ascent

/-- A search that stops within some rounds comes to an end. -/
theorem ends_of_climb {lattice : Lattice} {ascent : Ascent} {rounds : Nat}
    (stopped : (lattice.climb ascent.ancestor rounds [ascent.child] 0).isSome = true) : ascent.Ends lattice := by
  intro forever
  rw [forever rounds] at stopped
  cases stopped

/-- Searches that stop within as many rounds as there are nodes come to an end. -/
theorem ends_of_all {lattice : Lattice} {ascents : List Ascent}
    (stopped : ascents.all (fun ascent =>
      (lattice.climb ascent.ancestor lattice.size [ascent.child] 0).isSome) = true) :
    ∀ ascent ∈ ascents, ascent.Ends lattice := by
  intro ascent mem
  exact ends_of_climb (List.all_eq_true.mp stopped ascent mem)

end Ascent

namespace Lattice

/-! ## Computations that wait for searches -/

/-- **Whether a computation waits for ascents**: it has the value as its result if all of them end, and never returns
if one does not. -/
structure Awaits {α : Type} (lattice : Lattice) (ascents : List Ascent) (result : Option α) (value : α) : Prop where
  returns : (∀ ascent ∈ ascents, ascent.Ends lattice) → result = some value
  hangs : (∃ ascent ∈ ascents, ¬ ascent.Ends lattice) → result = none

namespace Awaits

variable {α β : Type} {lattice : Lattice} {first second : List Ascent} {result : Option α} {value : α}

/-- What needs no search returns at once. -/
theorem pure (lattice : Lattice) (value : α) : Awaits lattice [] (some value) value where
  returns _ := rfl
  hangs := fun ⟨_, mem, _⟩ => nomatch mem

/-- One computation after another waits for the ascents of both. What the second one waits for may depend on what the
first one gave. -/
theorem bind {next : α → Option β} {last : β} (one : Awaits lattice first result value)
    (two : Awaits lattice second (next value) last) : Awaits lattice (first ++ second) (result.bind next) last where
  returns ends := by
    have before : ∀ ascent ∈ first, ascent.Ends lattice := fun ascent mem => ends ascent (List.mem_append_left _ mem)
    rw [one.returns before, Option.bind_some]
    exact two.returns fun ascent mem => ends ascent (List.mem_append_right _ mem)
  hangs := by
    rintro ⟨ascent, mem, endless⟩
    by_cases before : ∀ ascent ∈ first, ascent.Ends lattice
    · have behind : ascent ∈ second := (List.mem_append.mp mem).resolve_left fun early => endless (before ascent early)
      rw [one.returns before, Option.bind_some]
      exact two.hangs ⟨ascent, behind, endless⟩
    · obtain ⟨early, bad⟩ := not_forall.mp before
      obtain ⟨inside, endless⟩ := Classical.not_imp.mp bad
      rw [one.hangs ⟨early, inside, endless⟩]
      rfl

/-- What waits for searches may be changed when it is there. -/
theorem map (one : Awaits lattice first result value) (change : α → β) :
    Awaits lattice first (result.map change) (change value) where
  returns ends := by rw [one.returns ends, Option.map_some]
  hangs endless := by rw [one.hangs endless, Option.map_none]

/-- A result is the value, and there is one just if all ascents end. -/
theorem eq_some_iff (waits : Awaits lattice first result value) {outcome : α} :
    result = some outcome ↔ (∀ ascent ∈ first, ascent.Ends lattice) ∧ value = outcome := by
  constructor
  · intro found
    have ends : ∀ ascent ∈ first, ascent.Ends lattice := by
      intro ascent mem endless
      rw [waits.hangs ⟨ascent, mem, not_not.mpr endless⟩] at found
      cases found
    rw [waits.returns ends] at found
    exact ⟨ends, Option.some.inj found⟩
  · rintro ⟨ends, rfl⟩
    exact waits.returns ends

end Awaits

/-! ## Distances and costs -/

/-- The distance, as far as its search ends. -/
def distance? (lattice : Lattice) (child ancestor : Ty) : Option (Option Nat) :=
  if child.equals ancestor then some (some 0) else lattice.search ancestor [child] 0

/-- The ascent that a distance takes. -/
def distanceAscents (child ancestor : Ty) : List Ascent :=
  if child.equals ancestor then [] else [⟨child, ancestor⟩]

/-- The distance of different types waits for one search. -/
theorem awaits_search {lattice : Lattice} {child ancestor : Ty} (different : child.equals ancestor = false) :
    Awaits lattice [⟨child, ancestor⟩] (lattice.search ancestor [child] 0) (lattice.distance child ancestor) where
  returns ends := by
    have stops : ¬ lattice.ClimbsForever child ancestor := ends ⟨child, ancestor⟩ List.mem_cons_self
    rw [← search_eq_none_iff] at stops
    obtain ⟨outcome, found⟩ := Option.ne_none_iff_exists'.mp stops
    rw [distance_eq, different, found]
    rfl
  hangs := by
    rintro ⟨ascent, mem, endless⟩
    cases List.mem_singleton.mp mem
    exact (search_eq_none_iff lattice child ancestor).mpr (not_not.mp endless)

/-- That of equal types waits for none. -/
theorem awaits_distance (lattice : Lattice) (child ancestor : Ty) :
    Awaits lattice (distanceAscents child ancestor) (lattice.distance? child ancestor)
      (lattice.distance child ancestor) := by
  unfold distanceAscents distance?
  cases equal : child.equals ancestor with
  | true =>
    rw [distance_eq, equal]
    exact .pure lattice (some 0)
  | false => exact awaits_search equal

/-- The cost of an argument, as far as its search ends. -/
def cost? (lattice : Lattice) (actual declared : Ty) : Option Nat :=
  if actual.equals declared then some 0
  else if meetsAtNil actual declared then some nilCost
  else
    (lattice.distance? actual declared).map fun
      | some hops => hops
      | none => if declared.isAny then anyCost else unrelatedCost

/-- The ascent that the cost of an argument takes. -/
def costAscents (actual declared : Ty) : List Ascent :=
  if actual.equals declared then [] else if meetsAtNil actual declared then [] else distanceAscents actual declared

/-- A cost waits for that search, unless the types meet at `nil`. -/
theorem awaits_cost (lattice : Lattice) (actual declared : Ty) :
    Awaits lattice (costAscents actual declared) (lattice.cost? actual declared) (lattice.cost actual declared) := by
  unfold costAscents cost? cost
  split
  · exact .pure lattice 0
  · split
    · exact .pure lattice nilCost
    · exact (awaits_distance lattice actual declared).map _

end Lattice

open DeclCheck.Lattice (Awaits)

namespace Overloading

/-! ## Restrictions -/

/-- Whether a generic parameter is violated, as far as the search for its group ends. -/
def violates? (lattice : Lattice) (bindings : Bindings) (generic : GenericParam) : Option Bool :=
  match generic.constraint, bindings.find? generic.name.name with
  | some constraint, some bound => (lattice.distance? bound constraint).map Option.isNone
  | _, _ => some false

/-- The ascent to the group that a generic parameter is restricted to. -/
def restrictionAscents (bindings : Bindings) (generic : GenericParam) : List Ascent :=
  match generic.constraint, bindings.find? generic.name.name with
  | some constraint, some bound => Lattice.distanceAscents bound constraint
  | _, _ => []

/-- A restriction waits for the search from the bound type. -/
theorem awaits_violates (lattice : Lattice) (bindings : Bindings) (generic : GenericParam) :
    Awaits lattice (restrictionAscents bindings generic) (violates? lattice bindings generic)
      (violates lattice bindings generic) := by
  unfold restrictionAscents violates? violates
  cases generic.constraint with
  | none => exact .pure lattice false
  | some constraint =>
    cases bindings.find? generic.name.name with
    | none => exact .pure lattice false
    | some bound => exact (Lattice.awaits_distance lattice bound constraint).map Option.isNone

/-- The first generic parameter that is violated, as far as the searches up to it end. -/
def firstViolated? (lattice : Lattice) (bindings : Bindings) : List GenericParam → Option (Option GenericParam)
  | [] => some none
  | generic :: rest =>
    (violates? lattice bindings generic).bind fun violated =>
      if violated then some (some generic) else firstViolated? lattice bindings rest

/-- The ascents to the groups of generic parameters, up to the first that is violated. -/
def violationAscents (lattice : Lattice) (bindings : Bindings) : List GenericParam → List Ascent
  | [] => []
  | generic :: rest =>
    restrictionAscents bindings generic ++
      if violates lattice bindings generic then [] else violationAscents lattice bindings rest

/-- Restrictions are tried until one is violated. -/
theorem awaits_firstViolated (lattice : Lattice) (bindings : Bindings) (generics : List GenericParam) :
    Awaits lattice (violationAscents lattice bindings generics) (firstViolated? lattice bindings generics)
      (generics.find? (violates lattice bindings)) := by
  induction generics with
  | nil => exact .pure lattice none
  | cons generic rest ih =>
    refine (awaits_violates lattice bindings generic).bind ?_
    rw [List.find?_cons]
    cases violates lattice bindings generic with
    | true => exact .pure lattice (some generic)
    | false => exact ih

/-- A specialisation, as far as its searches end. -/
def specialise? (lattice : Lattice) (decl : FunctionDecl) (actuals : List Ty) : Option (Except Nat FunctionDecl) :=
  let bindings := bindings decl actuals
  (firstViolated? lattice bindings decl.generics).map fun
    | some generic => .error (mentionPosition decl generic.name.name)
    | none => .ok (substituted decl bindings)

/-- Specialising waits for these. -/
theorem awaits_specialise (lattice : Lattice) (decl : FunctionDecl) (actuals : List Ty) :
    Awaits lattice (violationAscents lattice (bindings decl actuals) decl.generics) (specialise? lattice decl actuals)
      (specialise lattice decl actuals) :=
  (awaits_firstViolated lattice (bindings decl actuals) decl.generics).map _

/-! ## Positions -/

/-- The sum of the costs of all positions from the given one on, or the first that disqualifies, as far as the searches
up to it end. -/
def totalCost? (lattice : Lattice) : Nat → List Ty → List Ty → Option (Except Nat Nat)
  | position, declared :: rest, actual :: actuals =>
    (lattice.cost? actual declared).bind fun cost =>
      if Lattice.unrelatedCost ≤ cost then some (.error position)
      else (totalCost? lattice (position + 1) rest actuals).map (Except.map (cost + ·))
  | _, _, _ => some (.ok 0)

/-- The ascents from arguments to what is declared at their positions, up to the first that disqualifies. -/
def positionAscents (lattice : Lattice) : List Ty → List Ty → List Ascent
  | declared :: rest, actual :: actuals =>
    Lattice.costAscents actual declared ++
      if Lattice.unrelatedCost ≤ lattice.cost actual declared then [] else positionAscents lattice rest actuals
  | _, _ => []

/-- Costs are added until one argument is unrelated. -/
theorem awaits_totalCost (lattice : Lattice) (position : Nat) (params actuals : List Ty) :
    Awaits lattice (positionAscents lattice params actuals) (totalCost? lattice position params actuals)
      (totalCost lattice position params actuals) := by
  fun_induction positionAscents lattice params actuals generalizing position with
  | case1 declared rest actual actuals ih =>
    refine (Lattice.awaits_cost lattice actual declared).bind ?_
    rw [totalCost]
    split
    · exact .pure lattice _
    · exact (ih (position + 1)).map _
  | case2 params actuals short =>
    have none : totalCost lattice position params actuals = .ok 0 := by
      unfold totalCost
      split
      · exact absurd rfl (short _ _ _ _ rfl)
      · rfl
    have zero : totalCost? lattice position params actuals = some (.ok 0) := by
      unfold totalCost?
      split
      · exact absurd rfl (short _ _ _ _ rfl)
      · rfl
    rw [none, zero]
    exact .pure lattice _

/-! ## Candidates -/

/-- The assessment of a candidate, as far as its searches end. -/
def assess? (lattice : Lattice) (actuals : List Ty) (candidate : FunctionDecl) : Option (Except Nat Bid) :=
  (if candidate.isGeneric then specialise? lattice candidate actuals else some (.ok candidate)).bind fun
    | .error position => some (.error position)
    | .ok decl =>
      (totalCost? lattice 0 decl.paramTypes actuals).map (Except.map (⟨·, decl, candidate.isGeneric⟩))

/-- **The ascents that the assessment of a candidate takes.** -/
def assessAscents (lattice : Lattice) (actuals : List Ty) (candidate : FunctionDecl) : List Ascent :=
  (if candidate.isGeneric then violationAscents lattice (bindings candidate actuals) candidate.generics else []) ++
    match if candidate.isGeneric then specialise lattice candidate actuals else .ok candidate with
    | .error _ => []
    | .ok decl => positionAscents lattice decl.paramTypes actuals

/-- An assessment bids for what the candidate offers, if it offers something. -/
theorem assess_eq_bind (lattice : Lattice) (actuals : List Ty) (candidate : FunctionDecl) :
    assess lattice actuals candidate =
      (if candidate.isGeneric then specialise lattice candidate actuals else .ok candidate).bind fun decl =>
        (totalCost lattice 0 decl.paramTypes actuals).map (⟨·, decl, candidate.isGeneric⟩) := by
  unfold assess
  cases candidate.isGeneric with
  | true =>
    cases specialise lattice candidate actuals with
    | error position => rfl
    | ok decl => exact (map_eq_pure_bind _ (totalCost lattice 0 decl.paramTypes actuals)).symm
  | false => exact (map_eq_pure_bind _ (totalCost lattice 0 candidate.paramTypes actuals)).symm

/-- **A candidate is specialised and then priced**, and waits for the searches of both. -/
theorem awaits_assess (lattice : Lattice) (actuals : List Ty) (candidate : FunctionDecl) :
    Awaits lattice (assessAscents lattice actuals candidate) (assess? lattice actuals candidate)
      (assess lattice actuals candidate) := by
  have offered : Awaits lattice
      (if candidate.isGeneric then violationAscents lattice (bindings candidate actuals) candidate.generics else [])
      (if candidate.isGeneric then specialise? lattice candidate actuals else some (.ok candidate))
      (if candidate.isGeneric then specialise lattice candidate actuals else .ok candidate) := by
    split
    · exact awaits_specialise lattice candidate actuals
    · exact .pure lattice _
  refine offered.bind ?_
  rw [assess_eq_bind]
  cases (if candidate.isGeneric then specialise lattice candidate actuals else .ok candidate) with
  | error position => exact .pure lattice _
  | ok decl => exact (awaits_totalCost lattice 0 decl.paramTypes actuals).map _

/-- All candidates are assessed, each after those before it. -/
theorem awaits_mapM_assess (lattice : Lattice) (actuals : List Ty) (candidates : List FunctionDecl) :
    Awaits lattice (candidates.flatMap (assessAscents lattice actuals))
      (candidates.mapM (assess? lattice actuals)) (candidates.map (assess lattice actuals)) := by
  induction candidates with
  | nil => exact .pure lattice []
  | cons candidate rest ih =>
    rw [List.mapM_cons, List.flatMap_cons, List.map_cons]
    have later := ih.map (assess lattice actuals candidate :: ·)
    rw [Option.map_eq_bind] at later
    exact (awaits_assess lattice actuals candidate).bind later

/-! ## Calls -/

/-- What the outcomes of all assessments come to. -/
def award (functions : FunctionTable) (key : FunctionKey) (signature : String) (actuals : List Ty) (location : Location)
    (outcomes : List (Except Nat Bid)) : Except Error (FunctionDecl × FunctionTable) :=
  match cheapest (bids outcomes) with
  | some bid => .ok (bid.decl, if bid.specialised then functions.insert bid.decl else functions)
  | none =>
    match (failures outcomes).min? with
    | some position => refuse (noConforming (functions.overloads key) signature actuals position) location
    | none => .error (.internal ("no candidate of " ++ key.shown ++ " was scored"))

/-- **Bind a call, as far as its searches end.** There is no result for a call that never returns. -/
def resolve? (lattice : Lattice) (functions : FunctionTable) (key : FunctionKey) (signature : String)
    (actuals : List Ty) (location : Location) : Option (Except Error (FunctionDecl × FunctionTable)) :=
  let candidates := functions.overloads key
  if candidates.isEmpty then some (refuse (.unknownFunction signature) location)
  else
    match candidates.find? (·.matchesExactly actuals) with
    | some decl => some (.ok (decl, functions))
    | none => (candidates.mapM (assess? lattice actuals)).map (award functions key signature actuals location)

/-- **The ascents of a call** with the given candidates. -/
def callAscents (lattice : Lattice) (candidates : List FunctionDecl) (actuals : List Ty) : List Ascent :=
  if candidates.any (·.matchesExactly actuals) then [] else candidates.flatMap (assessAscents lattice actuals)

/-- A call that some candidate matches exactly takes no search. -/
theorem callAscents_of_exact {lattice : Lattice} {candidates : List FunctionDecl} {actuals : List Ty}
    {decl : FunctionDecl} (mem : decl ∈ candidates) (matched : decl.matchesExactly actuals = true) :
    callAscents lattice candidates actuals = [] :=
  if_pos (List.any_eq_true.mpr ⟨decl, mem, matched⟩)

/-- A call that no candidate matches exactly takes the ascents of all assessments. -/
theorem callAscents_of_inexact {lattice : Lattice} {candidates : List FunctionDecl} {actuals : List Ty}
    (inexact : ∀ decl ∈ candidates, ¬ decl.matchesExactly actuals = true) :
    callAscents lattice candidates actuals = candidates.flatMap (assessAscents lattice actuals) := by
  rw [callAscents, List.any_eq_false.mpr inexact]
  rfl

/-- **A call returns just if all its ascents end**, and then with the outcome of `resolve`. -/
theorem awaits_resolve (lattice : Lattice) (functions : FunctionTable) (key : FunctionKey) (signature : String)
    (actuals : List Ty) (location : Location) :
    Awaits lattice (callAscents lattice (functions.overloads key) actuals)
      (resolve? lattice functions key signature actuals location)
      (resolve lattice functions key signature actuals location) := by
  unfold resolve? resolve
  dsimp only
  by_cases empty : functions.overloads key = []
  · rw [empty]
    exact .pure lattice _
  · rw [if_neg (mt List.isEmpty_iff.mp empty), if_neg (mt List.isEmpty_iff.mp empty)]
    cases found : (functions.overloads key).find? (·.matchesExactly actuals) with
    | some decl =>
      have matched := List.find?_some found
      rw [callAscents_of_exact (List.mem_of_find?_eq_some found) matched]
      exact .pure lattice _
    | none =>
      rw [callAscents_of_inexact (List.find?_eq_none.mp found)]
      exact (awaits_mapM_assess lattice actuals (functions.overloads key)).map _

end Overloading

end DeclCheck
