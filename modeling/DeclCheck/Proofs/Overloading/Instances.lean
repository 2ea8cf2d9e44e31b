import DeclCheck.Proofs.Overloading.Matching
import DeclCheck.Proofs.Overloading.Optimality
import DeclCheck.Proofs.Placeholders.Walk

/-!
# Calls with an instance of the parameter types

Give each placeholder of a generic function a type and replace it throughout the parameter types: a call with these
types as arguments is one that the function was declared for. Matching finds the given types again, whatever the
order in which the parameters are read and however often, however deep and under whatever nullability a placeholder
stands in them. So the specialisation has the arguments' types for parameters, and the call is bound at no cost.

The specialisation itself takes no search that the given types do not answer already. The call does: every overload of
its key is assessed unless one matches exactly, and where one of these searches never ends the call does not return.
-/

namespace DeclCheck

/-- **Whether a function admits types that are given for its placeholders**: all placeholders of the parameter types
are given one, and those with a restriction a member of the group. -/
structure FunctionDecl.Admits (lattice : Lattice) (decl : FunctionDecl) (given : Bindings) : Prop where
  total : ∀ ty ∈ decl.paramTypes, ∀ name ∈ ty.genericNames, given.contains name = true
  members : ∀ generic ∈ decl.generics, ∀ constraint bound, generic.constraint = some constraint →
    given.find? generic.name.name = some bound →
      (lattice.distance (bound.withNullable false) constraint).isSome = true

/-- The types of the arguments when types are given for the placeholders. -/
def FunctionDecl.instanceTypes (decl : FunctionDecl) (given : Bindings) : List Ty :=
  decl.paramTypes.map (Ty.substitute given)

namespace Ty

theorem equals_withNullable_left (first second : Ty) (nullable : Bool) :
    (first.withNullable nullable).equals second = first.equals second := by
  cases first <;> simp only [withNullable, equals]

mutual

/-- Equal types for the placeholders make equal types. -/
theorem equals_substitute {first second : Bindings} : ∀ ty : Ty,
    (∀ name ∈ ty.genericNames, ∃ one other, first.find? name = some one ∧ second.find? name = some other ∧
      one.equals other = true) →
    (ty.substitute first).equals (ty.substitute second) = true
  | .atom (.generic name location) nullable, agree => by
    obtain ⟨one, other, left, right, same⟩ := agree name (mem_genericNames_generic.mpr rfl)
    rw [substitute, substitute, left, right]
    exact (equals_withNullable _ _ _ _).trans same
  | .atom .void _, _ => equals_self _
  | .atom (.enum _) _, _ => equals_self _
  | .atom (.group _) _, _ => equals_self _
  | .app ctor args nullable, agree => by
    have same := allEqual_substituteAll args fun ty mem name mentioned =>
      agree name (mem_genericNames_app.mpr ⟨ty, mem, mentioned⟩)
    simp only [substitute, equals, head, Ty.args, Head.equates_self, same, Bool.and_self]

/-- Bindings to equal types make equal types. -/
theorem allEqual_substituteAll {first second : Bindings} : ∀ types : List Ty,
    (∀ ty ∈ types, ∀ name ∈ ty.genericNames, ∃ one other, first.find? name = some one ∧
      second.find? name = some other ∧ one.equals other = true) →
    allEqual (substituteAll first types) (substituteAll second types) = true
  | [], _ => rfl
  | ty :: rest, agree => by
    have head := equals_substitute ty (agree ty List.mem_cons_self)
    have tail := allEqual_substituteAll rest fun other mem => agree other (List.mem_cons_of_mem _ mem)
    rw [substituteAll, substituteAll, allEqual, head, tail, Bool.and_self]

end

theorem allEqual_map {first second : Ty → Ty} {types : List Ty}
    (each : ∀ ty ∈ types, (first ty).equals (second ty) = true) :
    allEqual (types.map first) (types.map second) = true := by
  induction types with
  | nil => rfl
  | cons ty rest ih =>
    obtain ⟨head, tail⟩ := List.forall_mem_cons.mp each
    rw [List.map_cons, List.map_cons, allEqual, head, ih tail, Bool.and_self]

end Ty

namespace Overloading

/-! ## What an instance binds -/

/-- What is read from an instance is read from one of its parameters. -/
theorem mem_readings_instanceTypes {decl : FunctionDecl} {given : Bindings} {reading : Reading} :
    reading ∈ decl.readings (decl.instanceTypes given) ↔
      ∃ ty ∈ decl.paramTypes, reading ∈ ty.readings (ty.substitute given) := by
  have pairs : decl.paramTypes.zip (decl.instanceTypes given) =
      decl.paramTypes.map fun ty => (ty, ty.substitute given) := by
    rw [FunctionDecl.instanceTypes, ← List.zip_map', List.map_id']
  simp only [FunctionDecl.readings, pairs, List.mem_flatMap, List.mem_reverse, List.mem_map,
    exists_exists_and_eq_and]

/-- Only placeholders of the parameter types are bound. -/
theorem exists_mem_genericNames_of_find? {decl : FunctionDecl} {actuals : List Ty} {name : String} {bound : Ty}
    (found : (bindings decl actuals).find? name = some bound) :
    ∃ ty ∈ decl.paramTypes, name ∈ ty.genericNames := by
  rw [FunctionDecl.bindings_eq_foldl] at found
  rcases Bindings.find?_foldl_note (decl.readings actuals) .empty name with ⟨reading, mem, rfl, -⟩ | ⟨-, unbound⟩
  · obtain ⟨pair, zipped, read⟩ := List.mem_flatMap.mp mem
    exact ⟨pair.1, (List.of_mem_zip (List.mem_reverse.mp zipped)).1, Ty.mem_genericNames_of_mem_readings _ read⟩
  · rw [unbound] at found
    cases found

/-- **An instance binds every placeholder to the type that was given for it**, without its nullability. -/
theorem find?_bindings_instanceTypes {decl : FunctionDecl} {given : Bindings} {name : String} {bound : Ty}
    (mentioned : ∃ ty ∈ decl.paramTypes, name ∈ ty.genericNames) (found : given.find? name = some bound) :
    (bindings decl (decl.instanceTypes given)).find? name = some (bound.withNullable false) := by
  rw [FunctionDecl.bindings_eq_foldl]
  rcases Bindings.find?_foldl_note (decl.readings (decl.instanceTypes given)) .empty name with
    ⟨reading, mem, rfl, read⟩ | ⟨unread, -⟩
  · obtain ⟨ty, -, inside⟩ := mem_readings_instanceTypes.mp mem
    obtain ⟨location, nullable, part⟩ := Ty.part_of_mem_readings ty inside
    rw [Ty.substitute, found] at part
    rw [read, part, Ty.withNullable_withNullable]
  · obtain ⟨ty, listed, inside⟩ := mentioned
    obtain ⟨reading, mem, named⟩ := Ty.exists_reading ty inside
    exact absurd named (unread reading (mem_readings_instanceTypes.mpr ⟨ty, listed, mem⟩))

variable {lattice : Lattice}

/-! ## The specialisation to an instance -/

section

variable {candidate : FunctionDecl} {given : Bindings} (admits : candidate.Admits lattice given)

include admits

/-- A placeholder of the parameter types is given a type, and an instance binds it to that type. -/
theorem exists_find?_instance {name : String} (mentioned : ∃ ty ∈ candidate.paramTypes, name ∈ ty.genericNames) :
    ∃ bound, given.find? name = some bound ∧
      (bindings candidate (candidate.instanceTypes given)).find? name = some (bound.withNullable false) := by
  obtain ⟨ty, listed, inside⟩ := mentioned
  obtain ⟨bound, found⟩ := Option.isSome_iff_exists.mp (admits.total ty listed name inside)
  exact ⟨bound, found, find?_bindings_instanceTypes ⟨ty, listed, inside⟩ found⟩

/-- An instance violates no restriction. -/
theorem any_violates_instance :
    candidate.generics.any (violates lattice (bindings candidate (candidate.instanceTypes given))) = false := by
  refine List.any_eq_false.mpr fun generic listed => ?_
  unfold violates
  split
  next constraint bound restricted named =>
    obtain ⟨own, found, same⟩ := exists_find?_instance admits (exists_mem_genericNames_of_find? named)
    rw [named] at same
    rw [Option.some.inj same, ← Option.not_isSome, admits.members generic listed constraint own restricted found]
    exact Bool.false_ne_true
  next => exact Bool.false_ne_true

/-- Replacing placeholders by what an instance binds is, up to nullability, replacing them by what was given. -/
theorem equals_substitute_instance {ty : Ty}
    (mentioned : ∀ name ∈ ty.genericNames, ∃ param ∈ candidate.paramTypes, name ∈ param.genericNames) :
    (ty.substitute (bindings candidate (candidate.instanceTypes given))).equals (ty.substitute given) = true := by
  refine Ty.equals_substitute ty fun name inside => ?_
  obtain ⟨bound, found, same⟩ := exists_find?_instance admits (mentioned name inside)
  exact ⟨_, bound, same, found, (Ty.equals_withNullable_left _ _ _).trans (Ty.equals_self bound)⟩

/-- **Specialised at an instance of its own types, a function takes just these.** -/
theorem allEqual_paramTypes_instance :
    Ty.allEqual (substituted candidate (bindings candidate (candidate.instanceTypes given))).paramTypes
      (candidate.instanceTypes given) = true := by
  rw [FunctionDecl.paramTypes_substituted]
  refine Ty.allEqual_map fun ty listed => ?_
  exact equals_substitute_instance admits fun name inside => ⟨ty, listed, inside⟩

end

/-! ## Calls with an instance -/

/-- Arguments of the parameters' types cost nothing. -/
theorem totalCost_of_allEqual {position : Nat} {params actuals : List Ty}
    (same : Ty.allEqual params actuals = true) : totalCost lattice position params actuals = .ok 0 := by
  induction params generalizing position actuals with
  | nil =>
    unfold totalCost
    rfl
  | cons declared rest ih =>
    cases actuals with
    | nil => cases same
    | cons actual actuals =>
      simp only [Ty.allEqual, Bool.and_eq_true] at same
      have free : lattice.cost actual declared = 0 := by
        rw [Lattice.cost, Ty.equals_comm, if_pos same.1]
      have near : ¬ Lattice.unrelatedCost ≤ 0 := by decide
      simp only [totalCost, free, if_neg near, ih same.2]
      rfl

/-- A call for which a candidate has no price to pay is bound, exactly or at no cost. -/
theorem exists_resolve_of_price_zero {functions : FunctionTable} {key : FunctionKey} {candidate : FunctionDecl}
    {actuals : List Ty} (listed : candidate ∈ functions.overloads key)
    (free : price? lattice actuals candidate = some 0) (signature : String) (location : Location) :
    ∃ winner after, resolve lattice functions key signature actuals location = .ok (winner, after) ∧
      ((functions.overloads key).find? (·.matchesExactly actuals) = some winner ∨
        totalCost lattice 0 winner.paramTypes actuals = .ok 0) := by
  cases found : (functions.overloads key).find? (·.matchesExactly actuals) with
  | some decl => exact ⟨decl, functions, resolve_of_find? found, Or.inl rfl⟩
  | none =>
    cases won : cheapest (bids ((functions.overloads key).map (assess lattice actuals))) with
    | none =>
      have unpriced := cheapest_eq_none_iff.mp won candidate listed
      rw [free] at unpriced
      cases unpriced
    | some bid =>
      refine ⟨bid.decl, _, resolve_of_cheapest found won, Or.inr ?_⟩
      obtain ⟨best, assessed, isBest⟩ := exists_best_of_cheapest won
      have total := (assess_eq_ok assessed).2.1
      have least : bid.cost = 0 := Nat.le_zero.mp (isBest.le listed free)
      rw [total, least]

/-- **Matching is complete for instances.** A generic function can be specialised to every instance of its parameter
types, with the types of the arguments for parameters and the return type that the given types make. A call with an
instance is bound wherever the function is listed, to an exact match or to an overload that costs nothing, if the
searches of the call end. -/
theorem specialise_instance {candidate : FunctionDecl} {given : Bindings} (generic : candidate.isGeneric = true)
    (returned : candidate.ReturnsMentioned) (admits : candidate.Admits lattice given) :
    (∃ decl, specialise lattice candidate (candidate.instanceTypes given) = .ok decl ∧
      Ty.allEqual decl.paramTypes (candidate.instanceTypes given) = true ∧
      decl.returnType.equals (candidate.returnType.substitute given) = true) ∧
    ∀ functions key signature location, candidate ∈ functions.overloads key →
      (∀ ascent ∈ callAscents lattice (functions.overloads key) (candidate.instanceTypes given), ascent.Ends lattice) →
      ∃ winner after,
        resolve? lattice functions key signature (candidate.instanceTypes given) location = some (.ok (winner, after)) ∧
        ((functions.overloads key).find? (·.matchesExactly (candidate.instanceTypes given)) = some winner ∨
          totalCost lattice 0 winner.paramTypes (candidate.instanceTypes given) = .ok 0) := by
  have met := any_violates_instance admits
  have params := allEqual_paramTypes_instance admits
  refine ⟨⟨_, specialise_eq_ok_iff.mpr ⟨met, rfl⟩, params, equals_substitute_instance admits returned⟩, ?_⟩
  intro functions key signature location listed ends
  have free : price? lattice (candidate.instanceTypes given) candidate = some 0 := by
    refine price?_eq_some_iff.mpr ⟨fun _ => met, ?_⟩
    rw [offer, if_pos generic]
    exact totalCost_of_allEqual params
  obtain ⟨winner, after, bound, cheap⟩ := exists_resolve_of_price_zero listed free signature location
  refine ⟨winner, after, ?_, cheap⟩
  rw [← bound]
  exact (awaits_resolve lattice functions key signature (candidate.instanceTypes given) location).returns ends

/-! ## A table whose keys are optional -/

/-- A function of an optional table of lists, an optional key of it and a key. What the keys are is restricted. -/
def lookUp : FunctionDecl where
  signature := [⟨"look", .nowhere⟩, ⟨"up", .nowhere⟩]
  affix := .between
  returnType := .list (.generic "V")
  params :=
    [⟨⟨"entries", .nowhere⟩,
        .app (.builtin .table) [.generic "K", .list ((Ty.generic "V").withNullable true)] true, false⟩,
      ⟨⟨"other", .nowhere⟩, (Ty.generic "K").withNullable true, false⟩,
      ⟨⟨"key", .nowhere⟩, .generic "K", false⟩]
  body := []
  generics := [⟨⟨"K", .nowhere⟩, some (.builtin .number)⟩, ⟨⟨"V", .nowhere⟩, none⟩]
  origin := ""
  location := .nowhere

/-- Optional integers for the keys of `lookUp`, and for its values lists of a placeholder of the caller, which has the
name of the one for the keys. -/
def lookUpTypes : Bindings :=
  (Dict.empty.insert "K" ((Ty.builtin .integer).withNullable true)).insert "V" (.list (.generic "K"))

theorem returnsMentioned_lookUp : lookUp.ReturnsMentioned := by
  unfold FunctionDecl.ReturnsMentioned
  decide

theorem admits_lookUpTypes : lookUp.Admits .initial lookUpTypes where
  total := by decide
  members := by
    refine List.forall_mem_cons.mpr ⟨?_, List.forall_mem_singleton.mpr ?_⟩
    · intro constraint bound restricted found
      obtain rfl := Option.some.inj restricted
      obtain rfl := Option.some.inj found
      rfl
    · intro constraint bound restricted
      cases restricted

/-- `lookUp` is specialised although the key is given a nullable type, is read at three places of different nullability,
and has a namesake in what is given for the values. -/
theorem specialise_lookUp :
    lookUp.isGeneric = true ∧ lookUp.ReturnsMentioned ∧ lookUp.Admits .initial lookUpTypes ∧
    (∃ decl, specialise .initial lookUp (lookUp.instanceTypes lookUpTypes) = .ok decl ∧
      Ty.allEqual decl.paramTypes (lookUp.instanceTypes lookUpTypes) = true ∧
      decl.returnType.equals (.list (.list (.generic "K"))) = true) ∧
    ∃ winner after,
      resolve? .initial (FunctionTable.empty.insert lookUp) lookUp.key lookUp.shown (lookUp.instanceTypes lookUpTypes)
        .nowhere = some (.ok (winner, after)) ∧
      (((FunctionTable.empty.insert lookUp).overloads lookUp.key).find?
          (·.matchesExactly (lookUp.instanceTypes lookUpTypes)) = some winner ∨
        totalCost .initial 0 winner.paramTypes (lookUp.instanceTypes lookUpTypes) = .ok 0) := by
  have special := specialise_instance rfl returnsMentioned_lookUp admits_lookUpTypes
  have listed : lookUp ∈ (FunctionTable.empty.insert lookUp).overloads lookUp.key := List.mem_cons_self
  have ends : ∀ ascent ∈ callAscents .initial ((FunctionTable.empty.insert lookUp).overloads lookUp.key)
      (lookUp.instanceTypes lookUpTypes), ascent.Ends .initial :=
    Ascent.ends_of_all (by decide)
  exact ⟨rfl, returnsMentioned_lookUp, admits_lookUpTypes, special.1,
    special.2 (FunctionTable.empty.insert lookUp) lookUp.key lookUp.shown .nowhere listed ends⟩

/-! ## An instance that another overload is searched for -/

/-- One of two groups that are bound into each other, given for the placeholder of `pick`. -/
def oddForPick : Bindings := Dict.empty.insert "T" (.group "Odd")

theorem admits_oddForPick : pick.Admits circularTypes.lattice oddForPick where
  total := by decide
  members := by
    refine List.forall_mem_singleton.mpr fun constraint bound restricted => ?_
    cases restricted

/-- **A call with an instance need not return.** `pick` is specialised to values of one of the groups without a search.
A call with them has to be assessed against the numbers of the other overload too, and that search never ends. -/
theorem exists_instance_endless : ∃ (lattice : Lattice) (candidate : FunctionDecl) (given : Bindings)
    (functions : FunctionTable), candidate.isGeneric = true ∧ candidate.ReturnsMentioned ∧
    candidate.Admits lattice given ∧ candidate ∈ functions.overloads candidate.key ∧
    (specialise lattice candidate (candidate.instanceTypes given)).toBool = true ∧
    resolve? lattice functions candidate.key candidate.shown (candidate.instanceTypes given) .nowhere = none := by
  refine ⟨circularTypes.lattice, pick, oddForPick, circularPicks.functions, rfl, ?_, admits_oddForPick,
    List.mem_cons_of_mem _ List.mem_cons_self, rfl, ?_⟩
  · unfold FunctionDecl.ReturnsMentioned
    decide
  · refine (awaits_resolve circularTypes.lattice circularPicks.functions pick.key pick.shown oddTypes .nowhere).hangs
      ⟨oddToNumber, ?_, oddToNumber_endless⟩
    exact List.mem_flatMap.mpr ⟨pickNumbers, List.mem_cons_self, oddToNumber_mem_assessAscents⟩

end Overloading

end DeclCheck
