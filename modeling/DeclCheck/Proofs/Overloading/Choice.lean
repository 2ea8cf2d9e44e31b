import DeclCheck.Overloading
import DeclCheck.Proofs.Conformity
import DeclCheck.Proofs.Steps
import DeclCheck.Proofs.Symbols.Functions
import Mathlib.Data.List.Forall2

/-!
# The choice of an overload

What a successful resolution is, said once for all that follows. The winner is a listed overload that
matches exactly, or comes from the cheapest assessment; and a winner that had to be specialised joins the
table. Either way every argument conforms to the parameter at its position.

Whether a call is bound at all is no question here, nor whether the searches for its costs end: the first is answered in
`Proofs.Overloading.Optimality` and the second in `Proofs.Overloading.Searches`.
-/

namespace DeclCheck

theorem FunctionDecl.length_paramTypes (decl : FunctionDecl) : decl.paramTypes.length = decl.key.arity := by
  simp only [paramTypes, key, FunctionKey.ofSignature, List.length_map]

namespace Overloading

/-! ## Assessments -/

theorem mem_bids {outcomes : List (Except Nat Bid)} {bid : Bid} :
    bid ∈ bids outcomes ↔ .ok bid ∈ outcomes := by
  induction outcomes with
  | nil => simp [bids]
  | cons outcome rest ih =>
    cases outcome with
    | error position => simp [bids, ih]
    | ok other => simp [bids, ih]

theorem mem_of_cheapest_eq_some {offers : List Bid} {bid : Bid} (found : cheapest offers = some bid) :
    bid ∈ offers := by
  induction offers generalizing bid with
  | nil => cases found
  | cons offer rest ih =>
    simp only [cheapest] at found
    cases hrest : cheapest rest with
    | none =>
      simp only [hrest, Option.some.injEq] at found
      exact found ▸ List.mem_cons_self
    | some other =>
      simp only [hrest] at found
      split at found
      · cases found
        exact List.mem_cons_of_mem _ (ih hrest)
      · cases found
        exact List.mem_cons_self

theorem cheapest_eq_none {offers : List Bid} : cheapest offers = none ↔ offers = [] := by
  cases offers with
  | nil => simp only [cheapest]
  | cons offer rest =>
    simp only [cheapest, reduceCtorEq, iff_false]
    split
    · exact Option.some_ne_none _
    · split <;> exact Option.some_ne_none _

/-- A specialisation is the candidate with its placeholders replaced by what the arguments bind. -/
theorem specialise_eq_ok {lattice : Lattice} {candidate decl : FunctionDecl} {actuals : List Ty}
    (specialised : specialise lattice candidate actuals = .ok decl) :
    decl = substituted candidate (bindings candidate actuals) := by
  simp only [specialise] at specialised
  split at specialised
  · cases specialised
  · cases specialised; rfl

theorem key_substituted (decl : FunctionDecl) (bindings : Bindings) :
    (substituted decl bindings).key = decl.key := by
  simp only [FunctionDecl.key, substituted, List.length_map]

/-- What an assessment bids: the candidate itself, or its specialisation if it is generic, at the sum of
the costs of all positions. -/
theorem assess_eq_ok {lattice : Lattice} {actuals : List Ty} {candidate : FunctionDecl} {bid : Bid}
    (assessed : assess lattice actuals candidate = .ok bid) :
    bid.specialised = candidate.isGeneric ∧
      totalCost lattice 0 bid.decl.paramTypes actuals = .ok bid.cost ∧
      ((candidate.isGeneric = false ∧ bid.decl = candidate) ∨
        (candidate.isGeneric = true ∧ specialise lattice candidate actuals = .ok bid.decl)) := by
  simp only [assess] at assessed
  split at assessed
  · rename_i generic
    obtain ⟨decl, special, rest⟩ := bind_eq_ok.mp assessed
    obtain ⟨cost, total, made⟩ := bind_eq_ok.mp rest
    cases made
    exact ⟨rfl, total, Or.inr ⟨generic, special⟩⟩
  · rename_i plain
    obtain ⟨decl, same, rest⟩ := bind_eq_ok.mp assessed
    cases same
    obtain ⟨cost, total, made⟩ := bind_eq_ok.mp rest
    cases made
    exact ⟨rfl, total, Or.inl ⟨Bool.eq_false_iff.mpr plain, rfl⟩⟩

/-! ## Resolution -/

/-- **Where a winner comes from.** Either it is listed and matches exactly, or nothing does and it is
the cheapest bid; only then may the table change, and only by the winner. -/
theorem resolve_eq_ok {lattice : Lattice} {functions after : FunctionTable} {key : FunctionKey}
    {signature : String} {actuals : List Ty} {location : Location} {decl : FunctionDecl}
    (bound : resolve lattice functions key signature actuals location = .ok (decl, after)) :
    ((functions.overloads key).find? (·.matchesExactly actuals) = some decl ∧ after = functions) ∨
    ((functions.overloads key).find? (·.matchesExactly actuals) = none ∧
      ∃ bid, cheapest (bids ((functions.overloads key).map (assess lattice actuals))) = some bid ∧
        decl = bid.decl ∧
        after = if bid.specialised then functions.insert bid.decl else functions) := by
  simp only [resolve] at bound
  split at bound
  · cases bound
  · split at bound
    · rename_i found
      cases bound
      exact Or.inl ⟨found, rfl⟩
    · rename_i none
      split at bound
      · rename_i bid won
        cases bound
        exact Or.inr ⟨none, bid, won, rfl, rfl⟩
      · split at bound <;> cases bound

/-- A bid that wins is the assessment of a listed candidate. -/
theorem exists_assess_of_cheapest {lattice : Lattice} {candidates : List FunctionDecl}
    {actuals : List Ty} {bid : Bid}
    (won : cheapest (bids (candidates.map (assess lattice actuals))) = some bid) :
    ∃ candidate ∈ candidates, assess lattice actuals candidate = .ok bid :=
  List.mem_map.mp (mem_bids.mp (mem_of_cheapest_eq_some won))

/-- **The winner is listed, or it is the specialisation of a listed generic overload** and joins the
table. -/
theorem resolve_listed_or_specialised {lattice : Lattice} {functions after : FunctionTable}
    {key : FunctionKey} {signature : String} {actuals : List Ty} {location : Location}
    {decl : FunctionDecl}
    (bound : resolve lattice functions key signature actuals location = .ok (decl, after)) :
    (decl ∈ functions.overloads key ∧ after = functions) ∨
    (∃ candidate ∈ functions.overloads key, candidate.isGeneric = true ∧
      specialise lattice candidate actuals = .ok decl ∧ after = functions.insert decl) := by
  rcases resolve_eq_ok bound with ⟨found, rfl⟩ | ⟨-, bid, won, rfl, rfl⟩
  · exact Or.inl ⟨List.mem_of_find?_eq_some found, rfl⟩
  · obtain ⟨candidate, listed, assessed⟩ := exists_assess_of_cheapest won
    obtain ⟨flag, -, plain | generic⟩ := assess_eq_ok assessed
    · rw [flag, plain.1, plain.2]
      exact Or.inl ⟨listed, rfl⟩
    · rw [flag, generic.1]
      exact Or.inr ⟨candidate, listed, generic.1, generic.2, rfl⟩

/-- **What holds of all overloads, and of the specialisations of those of which it holds, is kept by
resolution.** -/
theorem every_resolve {property : FunctionKey → FunctionDecl → Prop} {lattice : Lattice}
    {functions after : FunctionTable} {key : FunctionKey} {signature : String} {actuals : List Ty}
    {location : Location} {decl : FunctionDecl} (every : functions.Every property)
    (special : ∀ candidate made, property key candidate →
      specialise lattice candidate actuals = .ok made → property made.key made)
    (bound : resolve lattice functions key signature actuals location = .ok (decl, after)) :
    after.Every property := by
  rcases resolve_listed_or_specialised bound with ⟨-, rfl⟩ | ⟨candidate, listed, -, made, rfl⟩
  · exact every
  · exact every.insert (special candidate decl (every.of_mem listed) made)

/-- Resolution keeps every overload under its own key. -/
theorem keyed_resolve {lattice : Lattice} {functions after : FunctionTable} {key : FunctionKey}
    {signature : String} {actuals : List Ty} {location : Location} {decl : FunctionDecl}
    (keyed : functions.Keyed)
    (bound : resolve lattice functions key signature actuals location = .ok (decl, after)) :
    after.Keyed :=
  every_resolve keyed (fun _ _ _ _ => rfl) bound

/-! ## Conformity of the arguments -/

theorem forall₂_of_allEqual {types others : List Ty} (same : Ty.allEqual types others = true) :
    List.Forall₂ (fun ty other => ty.equals other = true) types others := by
  induction types generalizing others with
  | nil =>
    cases others with
    | nil => exact .nil
    | cons other others => simp only [Ty.allEqual, Bool.false_eq_true] at same
  | cons ty rest ih =>
    cases others with
    | nil => simp only [Ty.allEqual, Bool.false_eq_true] at same
    | cons other others =>
      simp only [Ty.allEqual, Bool.and_eq_true] at same
      exact .cons same.1 (ih same.2)

/-- Where the costs of all positions add up to a total, none of them disqualifies. -/
theorem forall₂_of_totalCost {lattice : Lattice} {position total : Nat} {params actuals : List Ty}
    (lengths : actuals.length = params.length)
    (added : totalCost lattice position params actuals = .ok total) :
    List.Forall₂ (fun actual declared => lattice.isSubtype actual declared = true) actuals params := by
  induction params generalizing actuals position total with
  | nil =>
    obtain rfl := List.length_eq_zero_iff.mp lengths
    exact .nil
  | cons declared rest ih =>
    cases actuals with
    | nil => cases lengths
    | cons actual actuals =>
      simp only [totalCost] at added
      split at added
      · cases added
      · rename_i cheap
        cases remaining : totalCost lattice (position + 1) rest actuals with
        | error failed => simp only [remaining] at added; cases added
        | ok sum =>
          exact .cons (Lattice.isSubtype_of_cost_lt (Nat.lt_of_not_le cheap))
            (ih (Nat.succ.inj lengths) remaining)

/-- **Every argument of a bound call is of a subtype of the parameter at its position**, and there are as
many parameters as arguments. -/
theorem resolve_conforms {lattice : Lattice} {functions after : FunctionTable} {key : FunctionKey}
    {signature : String} {actuals : List Ty} {location : Location} {decl : FunctionDecl}
    (keyed : functions.Keyed) (arity : key.arity = actuals.length)
    (bound : resolve lattice functions key signature actuals location = .ok (decl, after)) :
    List.Forall₂ (fun actual declared => lattice.isSubtype actual declared = true)
      actuals decl.paramTypes := by
  rcases resolve_eq_ok bound with ⟨found, -⟩ | ⟨-, bid, won, rfl, -⟩
  · have same : Ty.allEqual actuals decl.paramTypes = true := by
      rw [Ty.allEqual_comm]
      simpa only [FunctionDecl.matchesExactly] using List.find?_some found
    exact (forall₂_of_allEqual same).imp fun _ _ equal => Lattice.isSubtype_of_equals equal
  · obtain ⟨candidate, listed, assessed⟩ := exists_assess_of_cheapest won
    obtain ⟨-, total, source⟩ := assess_eq_ok assessed
    have own : bid.decl.key = key := by
      rcases source with ⟨-, same⟩ | ⟨-, special⟩
      · rw [same]; exact keyed.of_mem listed
      · rw [specialise_eq_ok special, key_substituted]; exact keyed.of_mem listed
    have params : bid.decl.paramTypes.length = key.arity := by rw [← own, FunctionDecl.length_paramTypes]
    exact forall₂_of_totalCost (by rw [params, arity]) total

end Overloading

end DeclCheck
