import DeclCheck.Lattice
import DeclCheck.Proofs.Ty.Equality

/-!
# What a search looks at

A search goes up round by round for as long as it takes, so nothing is known in advance of how often it repeats. The
*climb* is the same loop with a number of rounds that it may take: a search has a result just if some climb has it, and
a search that never ends is one whose climbs all run out of rounds. What is proved of climbs, by induction on their
rounds, is thereby proved of searches. The distance counts its first rounds, but this shows nowhere: it is what the
search finds.

A search reads heads alone: of its frontier only what stands above it counts, and nullability, which is no part of a
head, takes no part in distances.

That a search ends is established nowhere here. `Proofs.Lattice.Termination` says when it does.
-/

namespace DeclCheck

namespace Lattice

/-! ## Climbs -/

/-- **Whether the climb from a child never stops**: it has not stopped after any number of rounds. -/
def ClimbsForever (lattice : Lattice) (child ancestor : Ty) : Prop :=
  ∀ rounds, lattice.climb ancestor rounds [child] 0 = none

/-- A climb that stops has found what the search finds. -/
theorem search_of_climb {lattice : Lattice} {ancestor : Ty} {rounds : Nat} {frontier : List Ty} {hops : Nat}
    {outcome : Option Nat} (stopped : lattice.climb ancestor rounds frontier hops = some outcome) :
    lattice.search ancestor frontier hops = some outcome := by
  induction rounds generalizing frontier hops with
  | zero => cases stopped
  | succ rounds ih =>
    rw [climb] at stopped
    rw [search]
    split at stopped
    next spent => rw [if_pos spent, stopped]
    next left =>
      rw [if_neg left]
      split at stopped
      next met => rw [if_pos met, stopped]
      next unmet =>
        rw [if_neg unmet]
        exact ih stopped

/-- **A search has a result just if some climb has it.** -/
theorem search_eq_some_iff (lattice : Lattice) (ancestor : Ty) (frontier : List Ty) (hops : Nat)
    (outcome : Option Nat) :
    lattice.search ancestor frontier hops = some outcome ↔
      ∃ rounds, lattice.climb ancestor rounds frontier hops = some outcome := by
  refine ⟨?_, fun ⟨_, stopped⟩ => search_of_climb stopped⟩
  -- the search is the least loop of its shape, so what one round keeps holds of every result
  refine search.partial_correctness lattice ancestor
    (fun frontier hops outcome => ∃ rounds, lattice.climb ancestor rounds frontier hops = some outcome) ?_
    frontier hops outcome
  intro later known frontier hops outcome found
  dsimp only at found
  split at found
  next spent =>
    refine ⟨1, ?_⟩
    rw [climb, if_pos spent, found]
  next left =>
    split at found
    next met =>
      refine ⟨1, ?_⟩
      rw [climb, if_neg left, if_pos met, found]
    next unmet =>
      obtain ⟨rounds, stopped⟩ := known _ _ _ found
      refine ⟨rounds + 1, ?_⟩
      rw [climb, if_neg left, if_neg unmet, stopped]

/-- **A search from a child never ends just if the climb from it never stops.** -/
theorem search_eq_none_iff (lattice : Lattice) (child ancestor : Ty) :
    lattice.search ancestor [child] 0 = none ↔ lattice.ClimbsForever child ancestor := by
  rw [Option.eq_none_iff_forall_ne_some]
  constructor
  · intro endless rounds
    rw [Option.eq_none_iff_forall_ne_some]
    exact fun outcome stopped => endless outcome (search_of_climb stopped)
  · intro forever outcome found
    obtain ⟨rounds, stopped⟩ := (search_eq_some_iff lattice ancestor [child] 0 outcome).mp found
    rw [forever rounds] at stopped
    cases stopped

/-- **The distance is what the search finds**, with or without a limit. -/
theorem distance_eq (lattice : Lattice) (child ancestor : Ty) :
    lattice.distance child ancestor =
      if child.equals ancestor then some 0 else (lattice.search ancestor [child] 0).join := by
  rw [distance]
  split
  · rfl
  · split
    next outcome stopped => rw [search_of_climb stopped, Option.join_some]
    next => rfl

/-- A climb that stops answers with the distance. -/
theorem distance_of_climb {lattice : Lattice} {child ancestor : Ty} {rounds : Nat} {outcome : Option Nat}
    (different : child.equals ancestor = false)
    (stopped : lattice.climb ancestor rounds [child] 0 = some outcome) :
    lattice.distance child ancestor = outcome := by
  rw [distance_eq, different, search_of_climb stopped]
  rfl

/-- A search that never ends finds nothing. -/
theorem ClimbsForever.distance_eq_none {lattice : Lattice} {child ancestor : Ty}
    (forever : lattice.ClimbsForever child ancestor) (different : child.equals ancestor = false) :
    lattice.distance child ancestor = none := by
  rw [distance_eq, different, (search_eq_none_iff lattice child ancestor).mpr forever]
  rfl

/-- Searches whose climbs are the same are the same. -/
theorem search_congr {lattice other : Lattice} {ancestor high : Ty} {frontier types : List Ty} {hops : Nat}
    (same : ∀ rounds, lattice.climb ancestor rounds frontier hops = other.climb high rounds types hops) :
    lattice.search ancestor frontier hops = other.search high types hops := by
  apply Option.ext
  intro outcome
  rw [search_eq_some_iff, search_eq_some_iff]
  simp only [same]

/-! ## Heads -/

theorem parents_withNullable (lattice : Lattice) (nullable : Bool) (ty : Ty) :
    lattice.parents (ty.withNullable nullable) = lattice.parents ty := by
  simp only [parents, Ty.sameHead, Ty.head_withNullable]

/-- A search depends on what stands above its frontier, not on the frontier itself. -/
theorem search_frontier_congr (lattice : Lattice) (ancestor : Ty) {frontier other : List Ty} (hops : Nat)
    (same : frontier.flatMap lattice.parents = other.flatMap lattice.parents) :
    lattice.search ancestor frontier hops = lattice.search ancestor other hops := by
  rw [search, search.eq_def lattice ancestor other, same]

/-- Of the ancestor a search looks at the head. -/
theorem search_ancestor_congr (lattice : Lattice) {ancestor other : Ty} (same : ancestor.head = other.head)
    (frontier : List Ty) (hops : Nat) :
    lattice.search ancestor frontier hops = lattice.search other frontier hops := by
  have meets : (fun ty : Ty => ty.sameHead ancestor) = (fun ty : Ty => ty.sameHead other) := by
    funext ty
    rw [Ty.sameHead, Ty.sameHead, same]
  apply search_congr
  intro rounds
  induction rounds generalizing frontier hops with
  | zero => rfl
  | succ rounds ih => rw [climb, climb, meets, ih]

theorem distance_withNullable (lattice : Lattice) (child ancestor : Ty) (nullable other : Bool) :
    lattice.distance (child.withNullable nullable) (ancestor.withNullable other) =
      lattice.distance child ancestor := by
  have start : lattice.search ancestor [child.withNullable nullable] 0 = lattice.search ancestor [child] 0 := by
    apply search_frontier_congr
    simp only [List.flatMap_cons, parents_withNullable]
  rw [distance_eq, distance_eq, Ty.equals_withNullable,
    search_ancestor_congr lattice (Ty.head_withNullable other ancestor), start]

end Lattice

end DeclCheck
