import DeclCheck.Conformity
import DeclCheck.Proofs.Lattice.Ladder

/-!
# The two questions of conformity

A call accepts an argument whose cost lies below `unrelatedCost`; an assignment accepts a value whose
type is a subtype. What is cheap enough is always a subtype. The converse fails in one way only: a type
that reaches the expected one by `unrelatedCost` hops or more is a subtype, but its cost is taken for
that of an unrelated type. So the two answers are the same on a lattice exactly when no distance in it
is that long.

Not established: that a lattice has no distance that long. `Proofs.Lattice.Ladder` builds lattices that have one. Both
answers take a distance that a search never finds for one that does not exist; whether the search ends is left to
`Proofs.Lattice.Termination`.
-/

namespace DeclCheck

namespace Lattice

/-! ## From costs to subtypes -/

theorem isSubtype_of_equals {lattice : Lattice} {actual expected : Ty}
    (same : actual.equals expected = true) : lattice.isSubtype actual expected = true := by
  simp only [isSubtype, same, Bool.true_or]

/-- **An argument that a call accepts is of a subtype.** -/
theorem isSubtype_of_cost_lt {lattice : Lattice} {actual declared : Ty}
    (cheap : lattice.cost actual declared < unrelatedCost) :
    lattice.isSubtype actual declared = true := by
  unfold cost at cheap
  split at cheap
  · rename_i same
    exact isSubtype_of_equals same
  · split at cheap
    · rename_i meets
      simp only [isSubtype, meets, Bool.or_true, Bool.true_or]
    · split at cheap
      · rename_i hops found
        simp only [isSubtype, found, Option.isSome_some, Bool.or_true]
      · split at cheap
        · rename_i any
          simp only [isSubtype, any, Bool.or_true, Bool.true_or]
        · exact absurd cheap (Nat.lt_irrefl _)

/-! ## From subtypes to costs -/

/-- Whether no way from one type up to another is as long as `unrelatedCost`. -/
def Near (lattice : Lattice) (actual expected : Ty) : Prop :=
  ∀ hops, lattice.distance actual expected = some hops → hops < unrelatedCost

theorem cost_lt_of_isSubtype {lattice : Lattice} {actual declared : Ty}
    (subtype : lattice.isSubtype actual declared = true)
    (close : meetsAtNil actual declared = true ∨ lattice.Near actual declared) :
    lattice.cost actual declared < unrelatedCost := by
  unfold cost
  split
  · decide
  · rename_i different
    split
    · decide
    · rename_i apart
      split
      · rename_i hops found
        exact (close.resolve_left apart) hops found
      · rename_i unreached
        split
        · decide
        · rename_i notAny
          simp [isSubtype, different, apart, unreached, notAny] at subtype

/-- What a call accepts, and is not close to by way of `nil`, is near. -/
theorem near_of_cost_lt {lattice : Lattice} {actual declared : Ty}
    (cheap : lattice.cost actual declared < unrelatedCost)
    (apart : ¬ meetsAtNil actual declared = true) : lattice.Near actual declared := by
  intro hops found
  by_cases same : actual.equals declared = true
  · have none : hops = 0 := by
      simpa [distance, same] using found.symm
    exact none ▸ (by decide)
  · simpa [cost, same, apart, found] using cheap

/-- **Where calls and assignments agree.** For each pair of types, a call accepts what an assignment
accepts unless the distance is `unrelatedCost` or more and neither type is that of `nil` while the other
admits it. Hence they agree on all pairs exactly when the lattice has no such distance. -/
theorem cost_lt_unrelated_iff (lattice : Lattice) :
    (∀ actual declared, lattice.cost actual declared < unrelatedCost ↔
      lattice.isSubtype actual declared = true ∧
        (meetsAtNil actual declared = true ∨ lattice.Near actual declared)) ∧
    ((∀ actual declared, lattice.cost actual declared < unrelatedCost ↔
        lattice.isSubtype actual declared = true) ↔
      ∀ actual declared, lattice.Near actual declared) := by
  have pairwise : ∀ actual declared, lattice.cost actual declared < unrelatedCost ↔
      lattice.isSubtype actual declared = true ∧
        (meetsAtNil actual declared = true ∨ lattice.Near actual declared) := by
    intro actual declared
    refine ⟨fun cheap => ⟨isSubtype_of_cost_lt cheap, ?_⟩, fun ⟨subtype, close⟩ =>
      cost_lt_of_isSubtype subtype close⟩
    by_cases meets : meetsAtNil actual declared = true
    · exact Or.inl meets
    · exact Or.inr (near_of_cost_lt cheap meets)
  refine ⟨pairwise, fun agree actual declared hops found => ?_, fun near actual declared => ?_⟩
  · -- without nullability no type meets another by way of `nil`, and the distance is the same
    let child := actual.withNullable false
    let ancestor := declared.withNullable false
    have apart : ¬ meetsAtNil child ancestor = true := by
      simp [meetsAtNil, child, ancestor]
    have found' : lattice.distance child ancestor = some hops := by
      rw [distance_withNullable, found]
    have subtype : lattice.isSubtype child ancestor = true := by
      simp only [isSubtype, found', Option.isSome_some, Bool.or_true]
    exact near_of_cost_lt ((agree child ancestor).mpr subtype) apart hops found'
  · exact ⟨isSubtype_of_cost_lt, fun subtype =>
      cost_lt_of_isSubtype subtype (Or.inr (near actual declared))⟩

/-- **Calls refuse what assignments accept**, in a lattice that registrations and bindings lead to and
whose hops do not lead round: from one end of a ladder of `unrelatedCost` hops to the other. -/
theorem exists_isSubtype_cost_ge : ∃ (types : TypeTable) (actual declared : Ty), types.Registered ∧
    types.lattice.Acyclic ∧ types.lattice.isSubtype actual declared = true ∧
    ¬ types.lattice.cost actual declared < unrelatedCost := by
  obtain ⟨types, registered, ladder⟩ := exists_ladder unrelatedCost
  have far := ladder.distance_eq
  refine ⟨types, rung 0, rung unrelatedCost, registered, ladder.acyclic, ?_, fun cheap => ?_⟩
  · simp only [isSubtype, far, Option.isSome_some, Bool.or_true]
  · exact Nat.lt_irrefl _ (near_of_cost_lt cheap (by decide) _ far)

end Lattice

end DeclCheck
