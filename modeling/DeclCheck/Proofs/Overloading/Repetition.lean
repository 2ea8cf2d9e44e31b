import DeclCheck.Proofs.Locations.Overloads
import DeclCheck.Proofs.Overloading.Matching
import DeclCheck.Proofs.Overloading.Optimality

/-!
# Calls that are repeated

After a call the overload that it was bound to may be listed beside the one it was made from, and both are candidates
when the call is repeated. If it matches the call exactly it is taken as it is. If not, it may still have placeholders,
from arguments that have them or from parameters that no argument reaches, and then it is specialised once more. But
its placeholders are bound to themselves, so that it costs what it did, and the overload that it was made from comes
first. So a repeated call has the same answer, and leaves the tables as they are.

That the repeated call returns is not established apart from its outcome. Nor is anything said of calls in between,
which is the subject of `Proofs.Overloading.History`.
-/

namespace DeclCheck

/-- Inserting an overload a second time changes nothing. -/
theorem FunctionTable.insert_insert (table : FunctionTable) (decl : FunctionDecl) :
    (table.insert decl).insert decl = table.insert decl := by
  by_cases there : ∃ other ∈ table.overloads decl.key, other.sameOverload decl = true
  · obtain ⟨other, listed, same⟩ := there
    rw [insert_of_sameOverload rfl listed same, insert_of_sameOverload rfl listed same]
  · have gained := gains_insert rfl fun other listed same => there ⟨other, listed, same⟩
    have listed : decl ∈ (table.insert decl).overloads decl.key := by
      rw [gained, if_pos rfl]
      exact List.mem_append_right _ List.mem_cons_self
    exact insert_of_sameOverload rfl listed decl.sameOverload_self

namespace Overloading

variable {lattice : Lattice} {actuals : List Ty}

/-! ## A candidate and what was made of it -/

/-- What is offered a second time for the same arguments has the same parameter types, up to where they were
written. -/
theorem unplaced_paramTypes_offer_offer (actuals : List Ty) (candidate : FunctionDecl) :
    (offer actuals (offer actuals candidate)).paramTypes.map Ty.unplaced =
      (offer actuals candidate).paramTypes.map Ty.unplaced := by
  by_cases generic : candidate.isGeneric = true
  · have made : offer actuals candidate = substituted candidate (bindings candidate actuals) := if_pos generic
    rw [offer]
    split
    · have reflexive := candidate.reflexive_bindings_substituted actuals
      rw [← made] at reflexive
      rw [FunctionDecl.paramTypes_substituted, List.map_map]
      exact List.map_congr_left fun ty _ => Ty.unplaced_substitute reflexive ty
    · rfl
  · have same : offer actuals candidate = candidate := if_neg generic
    rw [same, same]

/-- **A specialisation bids what it was made for**, if it bids for the same arguments again. -/
theorem cost_eq_of_assess_again {candidate : FunctionDecl} {bid other : Bid}
    (assessed : assess lattice actuals candidate = .ok bid)
    (again : assess lattice actuals bid.decl = .ok other) : other.cost = bid.cost := by
  obtain ⟨priced, made, -⟩ := assess_eq_ok_iff.mp assessed
  obtain ⟨pricedAgain, -, -⟩ := assess_eq_ok_iff.mp again
  have total := (price?_eq_some_iff.mp priced).2
  have totalAgain := (price?_eq_some_iff.mp pricedAgain).2
  rw [made, ← totalCost_unplaced, unplaced_paramTypes_offer_offer, totalCost_unplaced, total] at totalAgain
  exact (Except.ok.inj totalAgain).symm

/-- The winner does not win against what it was made from. -/
theorem cheapest_append_winner {candidates : List FunctionDecl} {bid : Bid}
    (won : cheapest (bids (candidates.map (assess lattice actuals))) = some bid) :
    cheapest (bids ((candidates ++ [bid.decl]).map (assess lattice actuals))) = some bid := by
  obtain ⟨candidate, -, assessed⟩ := exists_assess_of_cheapest won
  rw [List.map_append, bids_append, cheapest_append, won, List.map_singleton]
  cases again : assess lattice actuals bid.decl with
  | error position => rfl
  | ok other =>
    have same := cost_eq_of_assess_again assessed again
    simp only [bids, cheapest, same, Nat.lt_irrefl, if_false]

/-! ## The same call again -/

section

variable {functions after : FunctionTable} {key : FunctionKey} {signature : String} {location : Location}
  {decl : FunctionDecl}

/-- A specialisation that has joined the table is not added again by a call that it wins. -/
theorem resolve_insert_of_cheapest {bid : Bid} (special : bid.specialised = true)
    (inexact : ((functions.insert bid.decl).overloads key).find? (·.matchesExactly actuals) = none)
    (won : cheapest (bids (((functions.insert bid.decl).overloads key).map (assess lattice actuals))) = some bid) :
    resolve lattice (functions.insert bid.decl) key signature actuals location =
      .ok (bid.decl, functions.insert bid.decl) := by
  rw [resolve_of_cheapest inexact won, if_pos special, FunctionTable.insert_insert]

/-- **A call that was bound is bound to the same overload again**, and nothing joins the table any more. -/
theorem resolve_again (bound : resolve lattice functions key signature actuals location = .ok (decl, after)) :
    resolve lattice after key signature actuals location = .ok (decl, after) := by
  rcases resolve_eq_ok bound with ⟨found, rfl⟩ | ⟨inexact, bid, won, rfl, rfl⟩
  · exact bound
  · by_cases special : bid.specialised = true
    · rw [if_pos special]
      have grown := functions.overloads_insert bid.decl key
      split at grown
      · have found : ((functions.insert bid.decl).overloads key).find? (·.matchesExactly actuals) =
            [bid.decl].find? (·.matchesExactly actuals) := by
          rw [grown, List.find?_append, inexact, Option.none_or]
        by_cases matching : bid.decl.matchesExactly actuals = true
        · apply resolve_of_find?
          exact found.trans (List.find?_cons_of_pos matching)
        · apply resolve_insert_of_cheapest special
          · exact found.trans (List.find?_cons_of_neg matching)
          · rw [grown]
            exact cheapest_append_winner won
      · -- the group has such an overload already, or is another one
        rw [← grown] at inexact won
        exact resolve_insert_of_cheapest special inexact won
    · rw [if_neg special] at bound ⊢
      exact bound

end

end Overloading

end DeclCheck
