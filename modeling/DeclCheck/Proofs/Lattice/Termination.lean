import DeclCheck.Proofs.Growth
import DeclCheck.Proofs.Lattice.History

/-!
# When a search ends

A search goes up round by round and keeps no account of the heads that it has met before. So the *climb* from a child
stops when it meets the ancestor, and when nothing is left above its frontier, and where neither happens it goes on
for ever. Both are decided by the hops alone. The climb meets the ancestor if any walk that
is not empty leads there, and then after as many rounds as the shortest of them has hops. Something is left above every
frontier just if walks of every length begin at the child, and in a lattice these have to go round a cycle.

So there is no third way between a short climb and an endless one: a climb that is still going on after as many rounds
as the lattice has nodes never stops.

The head of the child itself counts as met only when a walk leads back to it. A child and an ancestor of one head that
differ in their arguments are no hop apart by their heads, and still the ancestor need not be met.

Rounds are counted here, not the work of a round: how long a frontier can get is not said.
-/

namespace DeclCheck

namespace Lattice

/-- **Whether hops lead from a child to the head of an ancestor**, at least one. -/
def Reaches (lattice : Lattice) (child ancestor : Ty) : Prop :=
  ∃ length high, Walk lattice.Hop (length + 1) child.head high ∧ high.agrees ancestor.head = true

/-- **Whether hops lead from a head to a cycle of hops**, or it lies on one. -/
def ReachesCycle (lattice : Lattice) (start : Head) : Prop :=
  ∃ before round point, Walk lattice.Hop before start point ∧ Walk lattice.Hop (round + 1) point point

theorem reaches_iff {lattice : Lattice} {child ancestor : Ty} :
    lattice.Reaches child ancestor ↔ ∃ length, length ∈ lattice.meetings child ancestor := by
  constructor
  · rintro ⟨length, high, walk, shares⟩
    exact ⟨length + 1, Nat.succ_pos _, high, walk, shares⟩
  · rintro ⟨length, positive, high, walk, shares⟩
    obtain ⟨shorter, rfl⟩ := Nat.exists_eq_succ_of_ne_zero (Nat.ne_of_gt positive)
    exact ⟨shorter, high, walk, shares⟩

section

variable {lattice : Lattice} {child ancestor : Ty}

/-- **A climb goes on for ever** if walks of every length begin at the child and none meets the ancestor. -/
theorem climbsForever_iff (resolved : lattice.Resolved) :
    lattice.ClimbsForever child ancestor ↔
      (∀ length, ∃ high, Walk lattice.Hop length child.head high) ∧ ¬ lattice.Reaches child ancestor := by
  have still (rounds : Nat) : lattice.climb ancestor rounds [child] 0 = none ↔ _ :=
    climb_eq_none_iff resolved (reached_child lattice child)
  rw [reaches_iff, not_exists]
  constructor
  · intro forever
    have each (length : Nat) := (still (length + 1)).mp (forever (length + 1))
    refine ⟨fun length => ?_, fun length meeting => ?_⟩
    · cases length with
      | zero => exact ⟨child.head, .refl _⟩
      | succ length => exact (each length (length + 1) (by omega) (by omega)).1
    · exact (each length length meeting.1 (by omega)).2 meeting
  · rintro ⟨walks, none⟩ rounds
    exact (still rounds).mpr fun length _ _ => ⟨walks length, none length⟩

/-! ## Cycles -/

/-- From a head that leads to a cycle begin walks of every length. -/
theorem ReachesCycle.exists_walk {start : Head} (circles : lattice.ReachesCycle start) (length : Nat) :
    ∃ high, Walk lattice.Hop length start high := by
  obtain ⟨before, round, point, reach, cycle⟩ := circles
  have long := reach.trans (cycle.times length)
  have enough : length ≤ before + (round + 1) * length := by
    have once : 1 * length ≤ (round + 1) * length := Nat.mul_le_mul_right length (Nat.le_add_left 1 round)
    omega
  rw [← Nat.add_sub_cancel' enough] at long
  obtain ⟨high, walk, -⟩ := long.split
  exact ⟨high, walk⟩

/-- **A walk with as many hops as the lattice has nodes leads to a cycle.** Its points are heads of nodes, and so is
the head of the node that its first hop goes up from. -/
theorem reachesCycle_of_walk (resolved : lattice.Resolved) (nonempty : 0 < lattice.size) {start high : Head}
    (walk : Walk lattice.Hop lattice.size start high) : lattice.ReachesCycle start := by
  obtain ⟨rest, size⟩ := Nat.exists_eq_succ_of_ne_zero (Nat.ne_of_gt nonempty)
  rw [size] at walk
  obtain ⟨second, ⟨node, mem, shares, above⟩, onward⟩ := Walk.succ_iff_first.mp walk
  have head : node.ty.head.isResolved = true := resolved _ (List.mem_map_of_mem mem)
  have listed : node.ty.head ∈ lattice.types.map Ty.head := List.mem_map_of_mem (List.mem_map_of_mem mem)
  have own : lattice.Hop node.ty.head second := ⟨node, mem, (Head.agrees_iff head head).mpr rfl, above⟩
  have long : (lattice.types.map Ty.head).length ≤ rest + 1 := by
    rw [List.length_map, types, List.length_map]
    exact Nat.le_of_eq size
  obtain ⟨before, round, point, reach, cycle⟩ := (Walk.succ_iff_first.mpr ⟨second, own, onward⟩).exists_cycle listed
    (fun _ _ hop => hop.mem) long
  -- the start may be a written name, but it has all the hops of the node's head
  rw [Head.agrees_comm] at shares
  cases before with
  | zero =>
    obtain rfl := Walk.zero_iff.mp reach
    exact ⟨round + 1, round, _, walk_of_agrees resolved head shares cycle, cycle⟩
  | succ before => exact ⟨before + 1, round, point, walk_of_agrees resolved head shares reach, cycle⟩

/-- **A climb that is still going on after as many rounds as there are nodes goes on for ever.** -/
theorem climbsForever_of_climb (resolved : lattice.Resolved) (nonempty : 0 < lattice.size)
    (running : lattice.climb ancestor lattice.size [child] 0 = none) : lattice.ClimbsForever child ancestor := by
  have still := (climb_eq_none_iff resolved (reached_child lattice child)).mp running
  rw [climbsForever_iff resolved]
  constructor
  · obtain ⟨high, walk⟩ := (still lattice.size nonempty (by omega)).1
    exact (reachesCycle_of_walk resolved nonempty walk).exists_walk
  · intro reaches
    obtain ⟨length, meeting⟩ := reaches_iff.mp reaches
    obtain ⟨shortest, -, least⟩ := exists_isLeast_meetings meeting
    have bound := length_le_size least
    exact (still shortest least.1.1 (by omega)).2 least.1

end

/-! ## Lattices made by attachments -/

theorem Resolved.attachAll {lattice : Lattice} (resolved : lattice.Resolved) {requests : List Attachment}
    (children : ∀ request ∈ requests, request.child.head.isResolved = true) :
    (lattice.attachAll requests).Resolved := by
  refine List.foldlRecOn requests attach resolved fun between known request mem => ?_
  intro ty listed
  rcases types_insert_subset ty listed with old | rfl
  · exact known ty old
  · rw [Ty.head_withNullable]
    exact children request mem

theorem size_attachAll_pos {lattice : Lattice} (nonempty : 0 < lattice.size) (requests : List Attachment) :
    0 < (lattice.attachAll requests).size :=
  List.foldlRecOn requests attach nonempty fun between known request _ =>
    Nat.lt_of_lt_of_le known (insert_grows between request.child request.parent).length_le

theorem Beginning.size_pos (beginning : Beginning) : 0 < beginning.lattice.size := by
  cases beginning with
  | root ty => exact Nat.one_pos
  | builtins => decide

/-- **When a search never ends.** In a lattice made by attaching types with resolved heads, the search from a child for
an ancestor that does not equal it goes on for ever just if no walk of one hop or more leads from the child's head to
the ancestor's and some walk leads to a cycle; and then there is no distance. In every other case it stops within as
many rounds as there are nodes, and its answer is the distance. -/
theorem attachAll_climbsForever_iff (beginning : Beginning) (requests : List Attachment)
    (root : beginning.top.head.isResolved = true)
    (children : ∀ request ∈ requests, request.child.head.isResolved = true) {child ancestor : Ty}
    (different : child.equals ancestor = false) :
    let lattice := beginning.lattice.attachAll requests
    (lattice.ClimbsForever child ancestor ↔
        ¬ lattice.Reaches child ancestor ∧ lattice.ReachesCycle child.head) ∧
      (lattice.ClimbsForever child ancestor → lattice.distance child ancestor = none) ∧
      (¬ lattice.ClimbsForever child ancestor →
        lattice.climb ancestor lattice.size [child] 0 = some (lattice.distance child ancestor)) := by
  intro lattice
  have resolved : lattice.Resolved := (beginning.drawn root).resolved.attachAll children
  have nonempty : 0 < lattice.size := size_attachAll_pos beginning.size_pos requests
  have forever : lattice.ClimbsForever child ancestor ↔ _ := climbsForever_iff resolved
  refine ⟨⟨fun endless => ?_, fun ⟨unmet, circles⟩ => ?_⟩, fun endless => ?_, fun ends => ?_⟩
  · obtain ⟨walks, unmet⟩ := forever.mp endless
    obtain ⟨high, walk⟩ := walks lattice.size
    exact ⟨unmet, reachesCycle_of_walk resolved nonempty walk⟩
  · exact forever.mpr ⟨circles.exists_walk, unmet⟩
  · exact endless.distance_eq_none different
  · cases stopped : lattice.climb ancestor lattice.size [child] 0 with
    | none => exact absurd (climbsForever_of_climb resolved nonempty stopped) ends
    | some outcome => rw [distance_of_climb different stopped]

/-- Two groups that are bound into each other, one of them twice: below the root first, so that the other is found. -/
def oddAndEven : List Attachment :=
  [⟨.group "Odd", .any⟩, ⟨.group "Even", .group "Odd"⟩, ⟨.group "Odd", .group "Even"⟩, ⟨.struct "One" [], .group "Odd"⟩]

/-- The search from `One` for the strings goes round between the two groups for ever. -/
theorem oddAndEven_climbsForever :
    let lattice := Beginning.builtins.lattice.attachAll oddAndEven
    (∀ request ∈ oddAndEven, request.child.head.isResolved = true) ∧
      (Ty.struct "One" []).equals (.builtin .string) = false ∧
      lattice.ClimbsForever (.struct "One" []) (.builtin .string) ∧
      ¬ lattice.Reaches (.struct "One" []) (.builtin .string) ∧ lattice.ReachesCycle (.struct "One") := by
  intro lattice
  have children : ∀ request ∈ oddAndEven, request.child.head.isResolved = true := by decide
  have different : (Ty.struct "One" []).equals (.builtin .string) = false := by decide
  have ends := attachAll_climbsForever_iff .builtins oddAndEven rfl children different
  have forever : lattice.ClimbsForever (.struct "One" []) (.builtin .string) := by
    by_contra stops
    exact absurd (ends.2.2 stops) (by decide)
  exact ⟨children, different, forever, ends.1.mp forever⟩

end Lattice

end DeclCheck
