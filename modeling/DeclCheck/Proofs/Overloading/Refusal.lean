import DeclCheck.Proofs.Lattice.Order
import DeclCheck.Proofs.Overloading.Matching
import DeclCheck.Proofs.Overloading.Optimality
import Mathlib.Data.List.Pairwise

/-!
# What a refused call reports

A call that no overload accepts is reported at one position. A candidate is *disqualified* at a position where an
argument costs as much as unrelated types do, and if restrictions of its placeholders are violated, where a parameter
first mentions one of these. The report is at the least position of all candidates, with what each of them declares
there.

It is so with one exception. Of several violated restrictions a candidate puts forward the one that stands first in the
list of its generic parameters, and that need not be the one that its parameters mention first. Both positions are
defined here, the one where a candidate is refused and the ones where it is disqualified, and they are compared.

All this starts from a report. Which calls are refused is said in `Proofs.Overloading.Optimality`, and a call that never
returns reports nothing.
-/

namespace DeclCheck

/-! ## The first position with a property -/

/-- The first item with a property stands at the least such position. -/
theorem findIdx?_eq_some_iff_isLeast {α : Type} {items : List α} {property : α → Prop} [DecidablePred property]
    {position : Nat} : items.findIdx? (fun item => property item) = some position ↔
      IsLeast {index | ∃ item, items[index]? = some item ∧ property item} position := by
  rw [List.findIdx?_eq_some_iff_getElem]
  simp only [decide_eq_true_eq]
  constructor
  · rintro ⟨within, holds, first⟩
    refine ⟨⟨items[position], List.getElem?_eq_getElem within, holds⟩, ?_⟩
    rintro index ⟨item, there, passes⟩
    by_contra before
    obtain ⟨_, rfl⟩ := List.getElem?_eq_some_iff.mp there
    exact first index (Nat.lt_of_not_le before) passes
  · rintro ⟨⟨item, there, holds⟩, first⟩
    obtain ⟨within, rfl⟩ := List.getElem?_eq_some_iff.mp there
    refine ⟨within, holds, fun index earlier passes => ?_⟩
    have known : items[index]? = some items[index] := List.getElem?_eq_getElem (Nat.lt_trans earlier within)
    exact Nat.not_le_of_lt earlier (first ⟨_, known, passes⟩)

namespace Overloading

variable {lattice : Lattice} {actuals : List Ty} {candidate : FunctionDecl} {position : Nat}

/-! ## Where a candidate is disqualified -/

/-- The generic parameters of a candidate whose restrictions the arguments violate, in the order of its list. -/
def violated (lattice : Lattice) (actuals : List Ty) (candidate : FunctionDecl) : List GenericParam :=
  candidate.generics.filter (violates lattice (bindings candidate actuals))

/-- **Whether a parameter is the first one that mentions a placeholder.** -/
def FirstMention (candidate : FunctionDecl) (name : String) (position : Nat) : Prop :=
  IsLeast {index | ∃ ty, candidate.paramTypes[index]? = some ty ∧ name ∈ ty.genericNames} position

/-- Whether the argument at a position is unrelated to what a candidate offers there. -/
def Unrelated (lattice : Lattice) (actuals : List Ty) (candidate : FunctionDecl) (position : Nat) : Prop :=
  ∃ cost, (positionCosts lattice (offer actuals candidate).paramTypes actuals)[position]? = some cost ∧
    Lattice.unrelatedCost ≤ cost

/-- **Whether a position disqualifies a candidate**: a violated restriction does where its placeholder is first
mentioned. If there are none, an unrelated argument does. -/
inductive DisqualifiedAt (lattice : Lattice) (actuals : List Ty) (candidate : FunctionDecl) (position : Nat) : Prop
  | restriction (generic : GenericParam) (broken : generic ∈ violated lattice actuals candidate)
      (first : FirstMention candidate generic.name.name position)
  | cost (kept : violated lattice actuals candidate = [])
      (unrelated : Unrelated lattice actuals candidate position)

/-- **Whether a candidate is refused at a position**: at the first mention of the violated placeholder that is listed
first, or else at the first unrelated argument. -/
inductive RefusedAt (lattice : Lattice) (actuals : List Ty) (candidate : FunctionDecl) (position : Nat) : Prop
  | restriction (generic : GenericParam) (rest : List GenericParam)
      (broken : violated lattice actuals candidate = generic :: rest)
      (first : FirstMention candidate generic.name.name position)
  | cost (kept : violated lattice actuals candidate = [])
      (first : IsLeast {index | Unrelated lattice actuals candidate index} position)

/-- Whether a candidate lists the generic parameters whose restrictions are violated in the order in which its
parameters mention them. -/
def InOrder (lattice : Lattice) (actuals : List Ty) (candidate : FunctionDecl) : Prop :=
  (violated lattice actuals candidate).Pairwise fun generic other =>
    ∀ first second, FirstMention candidate generic.name.name first →
      FirstMention candidate other.name.name second → first ≤ second

/-- A candidate that is refused at a position is disqualified there. -/
theorem RefusedAt.disqualifiedAt (refused : RefusedAt lattice actuals candidate position) :
    DisqualifiedAt lattice actuals candidate position := by
  cases refused with
  | restriction generic rest broken first =>
    refine .restriction generic ?_ first
    rw [broken]
    exact List.mem_cons_self
  | cost kept first => exact .cost kept first.1

/-- **A candidate is refused at the first position that disqualifies it** if it lists what is violated in order. -/
theorem RefusedAt.le (refused : RefusedAt lattice actuals candidate position)
    (ordered : InOrder lattice actuals candidate) {other : Nat}
    (disqualified : DisqualifiedAt lattice actuals candidate other) : position ≤ other := by
  cases refused with
  | restriction generic rest broken first =>
    cases disqualified with
    | cost kept =>
      rw [broken] at kept
      cases kept
    | restriction later mem second =>
      rw [InOrder, broken] at ordered
      rw [broken] at mem
      rcases List.mem_cons.mp mem with rfl | listed
      · exact Nat.le_of_eq (first.unique second)
      · exact List.rel_of_pairwise_cons ordered listed position other first second
  | cost kept first =>
    cases disqualified with
    | cost _ unrelated => exact first.2 unrelated
    | restriction generic mem =>
      rw [kept] at mem
      cases mem

/-! ## Assessments that fail -/

/-- Only a placeholder that some parameter mentions can be violated, for only such a placeholder is bound. -/
theorem exists_mention_of_mem_violated {generic : GenericParam}
    (broken : generic ∈ violated lattice actuals candidate) :
    ∃ ty ∈ candidate.paramTypes, generic.name.name ∈ ty.genericNames := by
  have violates := (List.mem_filter.mp broken).2
  rw [Overloading.violates, FunctionDecl.bindings_eq_foldl] at violates
  rcases Bindings.find?_foldl_note (candidate.readings actuals) .empty generic.name.name with
    ⟨reading, mem, named, -⟩ | ⟨-, unbound⟩
  · obtain ⟨pair, zipped, read⟩ := List.mem_flatMap.mp mem
    refine ⟨pair.1, (List.of_mem_zip (List.mem_reverse.mp zipped)).1, ?_⟩
    rw [← named]
    exact Ty.mem_genericNames_of_mem_readings _ read
  · have none : (Dict.empty : Bindings).find? generic.name.name = none := rfl
    rw [unbound, none] at violates
    cases constraint : generic.constraint <;> rw [constraint] at violates <;> cases violates

/-- The position of a placeholder is that of the first parameter that mentions it. -/
theorem firstMention_mentionPosition {name : String} (mentioned : ∃ ty ∈ candidate.paramTypes, name ∈ ty.genericNames) :
    FirstMention candidate name (mentionPosition candidate name) := by
  rw [mentionPosition]
  cases found : candidate.paramTypes.findIdx? (fun ty => name ∈ ty.genericNames) with
  | none =>
    obtain ⟨ty, mem, named⟩ := mentioned
    have absent := List.findIdx?_eq_none_iff.mp found ty mem
    exact absurd named (of_decide_eq_false absent)
  | some index => exact findIdx?_eq_some_iff_isLeast.mp found

/-- A function without placeholders has no restriction to violate. -/
theorem violated_eq_nil_of_not_isGeneric (plain : ¬ candidate.isGeneric = true) :
    violated lattice actuals candidate = [] := by
  apply List.eq_nil_iff_forall_not_mem.mpr
  intro generic broken
  obtain ⟨ty, mem, named⟩ := exists_mention_of_mem_violated broken
  obtain ⟨param, listed, rfl⟩ := List.mem_map.mp mem
  exact plain (List.any_eq_true.mpr ⟨param, listed, Ty.containsGeneric_of_mem_genericNames _ named⟩)

/-- **What an assessment does**: it fails with the first violated restriction of the list. If there is none it adds up
the costs of what the candidate offers. -/
theorem assess_eq (lattice : Lattice) (actuals : List Ty) (candidate : FunctionDecl) :
    assess lattice actuals candidate =
      match violated lattice actuals candidate with
      | generic :: _ => .error (mentionPosition candidate generic.name.name)
      | [] => (totalCost lattice 0 (offer actuals candidate).paramTypes actuals).map
          fun cost => ⟨cost, offer actuals candidate, candidate.isGeneric⟩ := by
  by_cases generic : candidate.isGeneric = true
  · have first : candidate.generics.find? (violates lattice (bindings candidate actuals)) =
        (violated lattice actuals candidate).head? := List.head?_filter.symm
    rw [assess, if_pos generic, specialise, first, offer, if_pos generic]
    cases violated lattice actuals candidate with
    | nil => rfl
    | cons broken rest => rfl
  · rw [violated_eq_nil_of_not_isGeneric generic, assess, if_neg generic, offer, if_neg generic]
    rfl

/-- Costs fail at the first argument that costs as much as an unrelated one. -/
theorem totalCost_eq_error_iff {start : Nat} {params : List Ty} :
    totalCost lattice start params actuals = .error position ↔
      ∃ index, (positionCosts lattice params actuals).findIdx? (Lattice.unrelatedCost ≤ ·) = some index ∧
        position = start + index := by
  induction params generalizing start actuals with
  | nil => simp [totalCost, positionCosts]
  | cons declared rest ih =>
    cases actuals with
    | nil => simp [totalCost, positionCosts]
    | cons actual actuals =>
      simp only [positionCosts, List.zipWith_cons_cons, List.findIdx?_cons, totalCost] at ih ⊢
      by_cases dear : Lattice.unrelatedCost ≤ lattice.cost actual declared
      · simp only [dear, if_true, decide_true, Except.error.injEq, Option.some.injEq]
        constructor
        · rintro rfl
          exact ⟨0, rfl, rfl⟩
        · rintro ⟨index, rfl, rfl⟩
          rfl
      · simp only [dear, if_false, decide_false, Bool.false_eq_true]
        have failed : (totalCost lattice (start + 1) rest actuals).map (lattice.cost actual declared + ·) =
            .error position ↔ totalCost lattice (start + 1) rest actuals = .error position := by
          cases totalCost lattice (start + 1) rest actuals <;> simp [Except.map]
        rw [failed, ih]
        constructor
        · rintro ⟨index, found, rfl⟩
          exact ⟨index + 1, by rw [found, Option.map_some], by omega⟩
        · rintro ⟨index, found, rfl⟩
          obtain ⟨earlier, there, rfl⟩ := Option.map_eq_some_iff.mp found
          exact ⟨earlier, there, by omega⟩

/-- So a candidate fails at its first unrelated argument. -/
theorem isLeast_unrelated_iff :
    IsLeast {index | Unrelated lattice actuals candidate index} position ↔
      totalCost lattice 0 (offer actuals candidate).paramTypes actuals = .error position := by
  simp only [totalCost_eq_error_iff, findIdx?_eq_some_iff_isLeast, Nat.zero_add, exists_eq_right']
  rfl

/-- **An assessment fails where the candidate is refused.** -/
theorem assess_eq_error_iff :
    assess lattice actuals candidate = .error position ↔ RefusedAt lattice actuals candidate position := by
  rw [assess_eq]
  cases broken : violated lattice actuals candidate with
  | cons generic rest =>
    have listed : generic ∈ violated lattice actuals candidate := by
      rw [broken]
      exact List.mem_cons_self
    have first := firstMention_mentionPosition (exists_mention_of_mem_violated listed)
    constructor
    · intro failed
      cases failed
      exact .restriction generic rest broken first
    · intro refused
      cases refused with
      | cost kept =>
        rw [broken] at kept
        cases kept
      | restriction other others same mentioned =>
        rw [broken] at same
        cases same
        exact congrArg Except.error (first.unique mentioned)
  | nil =>
    constructor
    · intro failed
      refine .cost broken (isLeast_unrelated_iff.mpr ?_)
      cases added : totalCost lattice 0 (offer actuals candidate).paramTypes actuals with
      | ok cost =>
        rw [added] at failed
        cases failed
      | error index =>
        rw [added] at failed
        cases failed
        rfl
    · intro refused
      cases refused with
      | restriction generic rest same =>
        rw [broken] at same
        cases same
      | cost _ first =>
        rw [isLeast_unrelated_iff.mp first]
        rfl

/-! ## What is declared at a position -/

/-- **Whether two types look alike in a report**: they are equal and shown in the same way. -/
def Alike (ty other : Ty) : Prop := ty.equals other = true ∧ ty.shown = other.shown

theorem Alike.refl (ty : Ty) : Alike ty ty := ⟨Ty.equals_self ty, rfl⟩

/-- Being alike goes both ways. -/
theorem Alike.symm {ty other : Ty} (alike : Alike ty other) : Alike other ty :=
  ⟨(Ty.equals_comm other ty).trans alike.1, alike.2.symm⟩

/-- **Whether a list names each of the given types once**, in their order: no two of its types look alike, and
whatever is given looks like a listed type that was given no later. -/
structure NamesOnce (given listed : List Ty) : Prop where
  sublist : listed.Sublist given
  distinct : listed.Pairwise fun ty other => ¬ Alike ty other
  covered : ∀ initial, initial <+: given → ∀ ty ∈ initial, ∃ other ∈ listed, other ∈ initial ∧ Alike other ty

/-- Resolved types look like one listed type only. -/
theorem NamesOnce.existsUnique {given listed : List Ty} (once : NamesOnce given listed)
    (resolved : ∀ ty ∈ given, ty.isResolved = true) {ty : Ty} (mem : ty ∈ given) :
    ∃! other, other ∈ listed ∧ Alike other ty := by
  obtain ⟨other, there, -, alike⟩ := once.covered given (List.prefix_refl given) ty mem
  refine ⟨other, ⟨there, alike⟩, ?_⟩
  rintro third ⟨listed, like⟩
  by_contra different
  have symmetric : Std.Symm fun one two : Ty => ¬ Alike one two := ⟨fun _ _ apart alike => apart alike.symm⟩
  have equal : third.equals other = true :=
    Ty.equals_trans third ty other (resolved third (once.sublist.subset listed)) (resolved ty mem) like.1 alike.symm.1
  exact once.distinct.forall listed there different ⟨equal, like.2.trans alike.symm.2⟩

/-- Whether a type is among others is decided by being alike to one of them. -/
theorem any_alike_iff {types : List Ty} {ty : Ty} :
    types.any (fun other => other.equals ty && other.shown == ty.shown) = true ↔ ∃ other ∈ types, Alike other ty := by
  simp only [List.any_eq_true, Bool.and_eq_true, beq_iff_eq, Alike]

/-- What was covered stays covered when the list grows, so only the type that is given last has to be looked for. -/
theorem NamesOnce.covered_concat {given listed more : List Ty} (once : NamesOnce given listed) (grown : listed ⊆ more)
    {ty : Ty} (named : ∃ other ∈ more, other ∈ given ++ [ty] ∧ Alike other ty) :
    ∀ initial, initial <+: given ++ [ty] → ∀ added ∈ initial, ∃ other ∈ more, other ∈ initial ∧ Alike other added := by
  intro initial start added mem
  rcases List.prefix_concat_iff.mp start with rfl | earlier
  · rcases List.mem_append.mp mem with old | new
    · obtain ⟨other, there, among, alike⟩ := once.covered given (List.prefix_refl given) added old
      exact ⟨other, grown there, List.mem_append_left _ among, alike⟩
    · rw [List.mem_singleton.mp new]
      exact named
  · obtain ⟨other, there, rest⟩ := once.covered initial earlier added mem
    exact ⟨other, grown there, rest⟩

/-- One more given type is listed, unless it looks like a listed one. -/
theorem NamesOnce.concat {given listed : List Ty} (once : NamesOnce given listed) (ty : Ty) :
    NamesOnce (given ++ [ty]) (addShown listed ty) := by
  by_cases known : ∃ other ∈ listed, Alike other ty
  · rw [addShown, if_pos (any_alike_iff.mpr known)]
    obtain ⟨other, mem, alike⟩ := known
    refine ⟨once.sublist.trans (List.sublist_append_left _ _), once.distinct, ?_⟩
    apply once.covered_concat (List.Subset.refl listed)
    exact ⟨other, mem, List.mem_append_left _ (once.sublist.subset mem), alike⟩
  · rw [addShown, if_neg fun there => known (any_alike_iff.mp there)]
    refine ⟨once.sublist.append (List.Sublist.refl _), ?_, ?_⟩
    · apply List.pairwise_append.mpr
      refine ⟨once.distinct, List.pairwise_singleton _ _, fun other mem last new alike => ?_⟩
      rw [List.mem_singleton.mp new] at alike
      exact known ⟨other, mem, alike⟩
    · have last {types : List Ty} : ty ∈ types ++ [ty] := List.mem_append_right _ List.mem_cons_self
      apply once.covered_concat (List.subset_append_left _ _)
      exact ⟨ty, last, last, .refl ty⟩

/-- **Each type is named once**, in the order of the first mention. -/
theorem namesOnce_foldl_addShown (given : List Ty) : NamesOnce given (given.foldl addShown []) := by
  induction given using List.reverseRecOn with
  | nil =>
    refine ⟨.slnil, .nil, fun initial start ty mem => ?_⟩
    rw [List.prefix_nil.mp start] at mem
    cases mem
  | append_singleton earlier last ih =>
    rw [List.foldl_concat]
    exact ih.concat last

/-! ## The report -/

/-- The failures are the positions at which candidates failed. -/
theorem mem_failures {outcomes : List (Except Nat Bid)} :
    position ∈ failures outcomes ↔ .error position ∈ outcomes := by
  induction outcomes with
  | nil => simp [failures]
  | cons outcome rest ih =>
    cases outcome with
    | error other => simp [failures, ih]
    | ok bid => simp [failures, ih]

/-- The least failure is the least position where a candidate is refused. -/
theorem isLeast_of_min?_failures {candidates : List FunctionDecl}
    (least : (failures (candidates.map (assess lattice actuals))).min? = some position) :
    IsLeast {index | ∃ candidate ∈ candidates, RefusedAt lattice actuals candidate index} position := by
  have mem_iff {index : Nat} : index ∈ failures (candidates.map (assess lattice actuals)) ↔
      ∃ candidate ∈ candidates, RefusedAt lattice actuals candidate index := by
    simp only [mem_failures, List.mem_map, assess_eq_error_iff]
  obtain ⟨mem, lower⟩ := List.min?_eq_some_iff.mp least
  exact ⟨mem_iff.mp mem, fun index refused => lower index (mem_iff.mpr refused)⟩

/-- Without bids every candidate is refused somewhere. -/
theorem exists_refusedAt_of_bids {candidates : List FunctionDecl}
    (lost : bids (candidates.map (assess lattice actuals)) = []) (mem : candidate ∈ candidates) :
    ∃ index, RefusedAt lattice actuals candidate index := by
  cases assessed : assess lattice actuals candidate with
  | error index => exact ⟨index, assess_eq_error_iff.mp assessed⟩
  | ok bid =>
    have offered := mem_bids.mpr (List.mem_map.mpr ⟨candidate, mem, assessed⟩)
    rw [lost] at offered
    cases offered

/-- A candidate is refused at one of its parameters. -/
theorem RefusedAt.lt_arity (refused : RefusedAt lattice actuals candidate position) :
    position < candidate.key.arity := by
  cases refused with
  | restriction generic rest broken first =>
    obtain ⟨ty, there, -⟩ := first.1
    rw [← FunctionDecl.length_paramTypes]
    exact (List.getElem?_eq_some_iff.mp there).1
  | cost kept first =>
    obtain ⟨cost, there, -⟩ := first.1
    have within := (List.getElem?_eq_some_iff.mp there).1
    rw [positionCosts, List.length_zipWith, FunctionDecl.length_paramTypes, key_offer] at within
    omega

/-- **What the report of a refused call says**, by the position that it counts from nought, the actual type and the
declared types that it names. -/
structure Explains (lattice : Lattice) (actuals : List Ty) (candidates : List FunctionDecl) (position : Nat)
    (actual : Ty) (declared : List Ty) : Prop where
  /-- Every candidate is refused. -/
  refused : ∀ candidate ∈ candidates, ∃ index, RefusedAt lattice actuals candidate index
  /-- The position is the least where one is. -/
  least : IsLeast {index | ∃ candidate ∈ candidates, RefusedAt lattice actuals candidate index} position
  /-- It is the position of an argument, which has the actual type. -/
  argument : actuals[position]? = some actual
  /-- All candidates have a parameter there, and their types are the declared ones, each named once. -/
  parameters : ∃ given, candidates.map (·.paramTypes[position]?) = given.map some ∧ NamesOnce given declared

/-- The report is at the least position that disqualifies a candidate, if all list what is violated in order. -/
theorem Explains.isLeast {candidates : List FunctionDecl} {actual : Ty} {declared : List Ty}
    (explains : Explains lattice actuals candidates position actual declared)
    (ordered : ∀ candidate ∈ candidates, InOrder lattice actuals candidate) :
    IsLeast {index | ∃ candidate ∈ candidates, DisqualifiedAt lattice actuals candidate index} position := by
  obtain ⟨candidate, mem, refused⟩ := explains.least.1
  refine ⟨⟨candidate, mem, refused.disqualifiedAt⟩, ?_⟩
  rintro index ⟨other, listed, disqualified⟩
  obtain ⟨first, own⟩ := explains.refused other listed
  exact Nat.le_trans (explains.least.2 ⟨other, listed, own⟩) (own.le (ordered other listed) disqualified)

/-- What a candidate declares there looks like one of the declared types only, if all types are resolved. -/
theorem Explains.existsUnique {candidates : List FunctionDecl} {actual : Ty} {declared : List Ty}
    (explains : Explains lattice actuals candidates position actual declared)
    (resolved : ∀ candidate ∈ candidates, ∀ ty ∈ candidate.paramTypes, ty.isResolved = true)
    (mem : candidate ∈ candidates) {ty : Ty} (there : candidate.paramTypes[position]? = some ty) :
    ∃! other, other ∈ declared ∧ Alike other ty := by
  obtain ⟨given, same, once⟩ := explains.parameters
  have mem_given {ty : Ty} : ty ∈ given ↔ some ty ∈ candidates.map (·.paramTypes[position]?) := by
    rw [same, List.mem_map_of_injective (Option.some_injective _)]
  refine once.existsUnique (fun ty mem => ?_) (mem_given.mpr (List.mem_map.mpr ⟨candidate, mem, there⟩))
  obtain ⟨other, listed, here⟩ := List.mem_map.mp (mem_given.mp mem)
  exact resolved other listed ty (List.mem_of_getElem? here)

/-- **The least failure explains the refusal**: all candidates are refused, none at an earlier position. -/
theorem explains_of_min?_failures {candidates : List FunctionDecl}
    (arity : ∀ candidate ∈ candidates, candidate.key.arity = actuals.length)
    (lost : bids (candidates.map (assess lattice actuals)) = [])
    (least : (failures (candidates.map (assess lattice actuals))).min? = some position) :
    Explains lattice actuals candidates position ((actuals[position]?).getD Ty.void)
      (declaredAt candidates position) := by
  have first := isLeast_of_min?_failures least
  have within : position < actuals.length := by
    obtain ⟨candidate, mem, refused⟩ := first.1
    rw [← arity candidate mem]
    exact refused.lt_arity
  refine ⟨fun candidate mem => exists_refusedAt_of_bids lost mem, first, ?_, ?_⟩
  · rw [List.getElem?_eq_getElem within, Option.getD_some]
  · refine ⟨candidates.filterMap (·.paramTypes[position]?), ?_, namesOnce_foldl_addShown _⟩
    rw [List.map_filterMap_some_eq_filter_map_isSome, List.filter_eq_self.mpr]
    intro parameter mem
    obtain ⟨candidate, listed, rfl⟩ := List.mem_map.mp mem
    have has : position < candidate.paramTypes.length := by rwa [FunctionDecl.length_paramTypes, arity candidate listed]
    rw [List.getElem?_eq_getElem has, Option.isSome_some]

/-- A call that is refused for lack of a conforming function has such a least failure. -/
theorem exists_min?_of_resolve {functions : FunctionTable} {key : FunctionKey} {signature shown : String}
    {location place : Location} {count : Nat} {actual : Ty} {declared : List Ty}
    (refused : resolve lattice functions key signature actuals location =
      .error (.found (.noConformingOverload shown count actual declared) place)) :
    ∃ index, bids ((functions.overloads key).map (assess lattice actuals)) = [] ∧
      (failures ((functions.overloads key).map (assess lattice actuals))).min? = some index ∧
      Problem.noConformingOverload shown count actual declared =
        noConforming (functions.overloads key) signature actuals index ∧ place = location := by
  simp only [resolve] at refused
  split at refused
  · cases refused
  · split at refused
    · cases refused
    · split at refused
      · cases refused
      · rename_i lost
        split at refused
        · rename_i index least
          cases refused
          exact ⟨index, cheapest_eq_none.mp lost, least, rfl, rfl⟩
        · cases refused

/-- **What a refused call reports.** The call leaves the tables as they were. The report is at the least position where
a candidate is refused, which is the position of an argument of the reported type, and names what the candidates declare
there, each type once. It is the least position that disqualifies a candidate if every candidate lists the generic
parameters whose restrictions are violated in the order in which its parameters mention them. -/
theorem bound_refused (symbols : Symbols) (keyed : symbols.functions.Keyed) (request : Request)
    (arity : request.key.arity = request.actuals.length) {signature : String} {count : Nat} {actual : Ty}
    {declared : List Ty} {location : Location} {after : Symbols}
    (refused : request.bound symbols =
      .error (.found (.noConformingOverload signature count actual declared) location) after) :
    let lattice := symbols.types.lattice
    let candidates := symbols.functions.overloads request.key
    signature = request.signature ∧ location = request.location ∧ after = symbols ∧
    ∃ position, count = position + 1 ∧ Explains lattice request.actuals candidates position actual declared ∧
      ((∀ candidate ∈ candidates, ∀ ty ∈ candidate.paramTypes, ty.isResolved = true) →
        ∀ candidate ∈ candidates, ∀ ty, candidate.paramTypes[position]? = some ty →
          ∃! other, other ∈ declared ∧ Alike other ty) ∧
      ((∀ candidate ∈ candidates, InOrder lattice request.actuals candidate) →
        IsLeast {index | ∃ candidate ∈ candidates, DisqualifiedAt lattice request.actuals candidate index}
          position) := by
  intro lattice candidates
  rw [Request.bound_apply] at refused
  cases bound : resolve lattice symbols.functions request.key request.signature request.actuals request.location with
  | ok found =>
    rw [bound] at refused
    cases refused
  | error error =>
    rw [bound] at refused
    cases refused
    obtain ⟨position, lost, least, said, rfl⟩ := exists_min?_of_resolve bound
    have own : ∀ candidate ∈ candidates, candidate.key.arity = request.actuals.length := by
      intro candidate mem
      have listed : candidate.key = request.key := keyed.of_mem mem
      rw [listed, arity]
    have explains := explains_of_min?_failures own lost least
    cases said
    exact ⟨rfl, rfl, rfl, position, rfl, explains, fun resolved _ mem _ => explains.existsUnique resolved mem,
      explains.isLeast⟩

/-- The initial types with a group of animals. -/
def animalTypes : TypeTable := withGroup .initial "Animal"

/-- A generic parameter that stands for animals only. -/
def animalNamed (name : String) : GenericParam := ⟨⟨name, .nowhere⟩, some (.group "Animal")⟩

/-- The tables with `pickNumbers`, and `pick` for animals only. -/
def guardedPicks : Symbols where
  types := animalTypes
  functions := (FunctionTable.empty.insert pickNumbers).insert { pick with generics := [animalNamed "T"] }

/-- A string is no number, but it is the second argument. The first one is no animal, so it is reported. -/
theorem bound_refused_guardedPicks :
    guardedPicks.functions.Keyed ∧
    (pickWith .integer .string).bound guardedPicks =
      .error (.found (.noConformingOverload pick.shown 1 (.builtin .integer) [.builtin .number, .generic "T"])
        .nowhere) guardedPicks ∧
    IsLeast {index | ∃ candidate ∈ guardedPicks.functions.overloads pick.key,
      DisqualifiedAt guardedPicks.types.lattice [.builtin .integer, .builtin .string] candidate index} 0 := by
  have keyed : guardedPicks.functions.Keyed := (FunctionTable.keyed_empty.insert pickNumbers).insert _
  have refused : (pickWith .integer .string).bound guardedPicks =
      .error (.found (.noConformingOverload pick.shown 1 (.builtin .integer) [.builtin .number, .generic "T"])
        .nowhere) guardedPicks := rfl
  obtain ⟨-, -, -, position, counted, -, -, least⟩ :=
    bound_refused guardedPicks keyed (pickWith .integer .string) rfl refused
  obtain rfl : position = 0 := by omega
  refine ⟨keyed, refused, least fun candidate mem => ?_⟩
  rcases List.mem_cons.mp mem with rfl | other
  · exact .nil
  · rw [List.mem_singleton.mp other]
    exact List.pairwise_singleton _ _

/-- A function of two animals. Its generic parameters are listed from the last to the first. -/
def pair : FunctionDecl :=
  { pick with
    params := [⟨⟨"left", .nowhere⟩, .generic "T", false⟩, ⟨⟨"right", .nowhere⟩, .generic "K", false⟩]
    generics := [animalNamed "K", animalNamed "T"] }

/-- **A call can be reported past the first position that disqualifies.** Neither argument is an animal, and the second
one is reported, for its placeholder is listed first. -/
theorem bound_refused_pair :
    let symbols : Symbols := ⟨animalTypes, FunctionTable.empty.insert pair⟩
    let request := pickWith .integer .string
    symbols.functions.Keyed ∧ request.key.arity = request.actuals.length ∧
    request.bound symbols =
      .error (.found (.noConformingOverload request.signature 2 (.builtin .string) [.generic "K"]) request.location)
        symbols ∧
    ∃ candidate ∈ symbols.functions.overloads request.key,
      DisqualifiedAt symbols.types.lattice request.actuals candidate 0 := by
  refine ⟨FunctionTable.keyed_empty.insert pair, rfl, rfl, pair, List.mem_cons_self, ?_⟩
  refine .restriction (animalNamed "T") ?_ ?_
  · exact List.mem_cons_of_mem _ List.mem_cons_self
  · exact ⟨⟨.generic "T", rfl, by decide⟩, fun index _ => Nat.zero_le index⟩

end Overloading

end DeclCheck
