import DeclCheck.Proofs.Lattice.Insertion
import DeclCheck.Proofs.Lattice.Search
import Mathlib.Data.List.Nodup
import Mathlib.Data.List.Perm.Subperm
import Mathlib.Data.Nat.Find
import Mathlib.Order.Bounds.Basic

/-!
# Distances are lengths of shortest walks

The nodes of a lattice are the edges of a digraph of heads: there is a *hop* from the head of a node to the
head of its parent, and where a type stands at several nodes there are several hops from its head. A search
goes along all of them at once, and keeps one type for each head it comes to. As long as no node has an
unresolved head this loses nothing: the heads of a frontier are the ends of all walks of one length, so the
first frontier that meets the ancestor ends a shortest walk.

A search that ends without having met the ancestor has nothing left above its frontier, and then no walk meets it.
One that never ends does not meet the ancestor either. So there is a distance just if some walk meets the ancestor,
and that there is none does not say that a search has come to an end.
-/

namespace DeclCheck

/-! ## Walks -/

/-- **A walk of a length along edges**, from one point to another. -/
inductive Walk {α : Type} (edge : α → α → Prop) : Nat → α → α → Prop
  | refl (start : α) : Walk edge 0 start start
  | step {length : Nat} {start between finish : α} (walk : Walk edge length start between)
      (last : edge between finish) : Walk edge (length + 1) start finish

namespace Walk

variable {α : Type} {edge other : α → α → Prop}

theorem zero_iff {start finish : α} : Walk edge 0 start finish ↔ finish = start := by
  constructor
  · intro walk
    cases walk
    rfl
  · rintro rfl
    exact .refl _

theorem succ_iff {length : Nat} {start finish : α} :
    Walk edge (length + 1) start finish ↔
      ∃ between, Walk edge length start between ∧ edge between finish := by
  constructor
  · intro walk
    cases walk with
    | step walk last => exact ⟨_, walk, last⟩
  · rintro ⟨between, walk, last⟩
    exact .step walk last

theorem trans {first second : Nat} {start between finish : α} (one : Walk edge first start between)
    (two : Walk edge second between finish) : Walk edge (first + second) start finish := by
  induction two with
  | refl => exact one
  | step _ last ih => exact .step (ih one) last

/-- A walk can be cut at every length up to its own. -/
theorem split {first second : Nat} {start finish : α} (walk : Walk edge (first + second) start finish) :
    ∃ between, Walk edge first start between ∧ Walk edge second between finish := by
  induction second generalizing finish with
  | zero => exact ⟨finish, walk, .refl finish⟩
  | succ second ih =>
    obtain ⟨last, before, hop⟩ := succ_iff.mp walk
    obtain ⟨between, one, two⟩ := ih before
    exact ⟨between, one, .step two hop⟩

/-- A walk can be taken apart after its first edge. -/
theorem succ_iff_first {length : Nat} {start finish : α} :
    Walk edge (length + 1) start finish ↔
      ∃ between, edge start between ∧ Walk edge length between finish := by
  rw [Nat.add_comm]
  constructor
  · intro walk
    obtain ⟨between, first, rest⟩ := walk.split
    obtain ⟨_, stay, hop⟩ := succ_iff.mp first
    obtain rfl := zero_iff.mp stay
    exact ⟨between, hop, rest⟩
  · rintro ⟨between, hop, rest⟩
    exact (Walk.step (.refl start) hop).trans rest

/-- A walk that returns to its start can be taken any number of times. -/
theorem times {length : Nat} {point : α} (cycle : Walk edge length point point) (count : Nat) :
    Walk edge (length * count) point point := by
  induction count with
  | zero => exact .refl _
  | succ count ih => exact ih.trans cycle

/-- A walk is one along other edges where all its points are good, if good points have these edges too. -/
theorem transfer {good : α → Prop}
    (more : ∀ low high, good low → edge low high → other low high ∧ good high) {length : Nat}
    {start finish : α} (begins : good start) (walk : Walk edge length start finish) :
    Walk other length start finish ∧ good finish := by
  induction walk with
  | refl => exact ⟨.refl _, begins⟩
  | step _ last ih =>
    obtain ⟨moved, reached⟩ := ih begins
    obtain ⟨hop, ends⟩ := more _ _ reached last
    exact ⟨.step moved hop, ends⟩

/-- **A walk goes round a cycle, or visits no point twice.** In the one case the cycle can be cut out of it. In the
other there is one more point visited than there are edges, and the walk can be cut at each of them. -/
theorem revisits_or_nodup {length : Nat} {start finish : α} (walk : Walk edge length start finish) :
    (∃ before round after point, before + (round + 1) + after = length ∧ Walk edge before start point ∧
        Walk edge (round + 1) point point ∧ Walk edge after point finish) ∨
      ∃ visits : List α, visits.Nodup ∧ visits.length = length + 1 ∧ ∀ point ∈ visits,
        ∃ before after, before + after = length ∧ Walk edge before start point ∧ Walk edge after point finish := by
  classical
  induction walk with
  | refl start =>
    refine Or.inr ⟨[start], List.nodup_singleton start, rfl, fun point mem => ?_⟩
    obtain rfl := List.mem_singleton.mp mem
    exact ⟨0, 0, rfl, .refl _, .refl _⟩
  | @step length start between finish walk last ih =>
    rcases ih with ⟨before, round, after, point, total, reach, cycle, rest⟩ | ⟨visits, nodup, count, cut⟩
    · exact Or.inl ⟨before, round, after + 1, point, by omega, reach, cycle, .step rest last⟩
    · by_cases again : finish ∈ visits
      · obtain ⟨before, after, total, reach, rest⟩ := cut finish again
        exact Or.inl ⟨before, after, 0, finish, by omega, reach, .step rest last, .refl _⟩
      · refine Or.inr ⟨finish :: visits, List.nodup_cons.mpr ⟨again, nodup⟩, by simp [count], fun point mem => ?_⟩
        rcases List.mem_cons.mp mem with rfl | earlier
        · exact ⟨length + 1, 0, rfl, .step walk last, .refl _⟩
        · obtain ⟨before, after, total, reach, rest⟩ := cut point earlier
          exact ⟨before, after + 1, by omega, reach, .step rest last⟩

/-- A walk along the points of a list that has as many edges as the list has points goes round a cycle. -/
theorem exists_cycle {points : List α} {length : Nat} {start finish : α} (walk : Walk edge length start finish)
    (begins : start ∈ points) (lead : ∀ low high, edge low high → high ∈ points) (long : points.length ≤ length) :
    ∃ before round point, Walk edge before start point ∧ Walk edge (round + 1) point point := by
  rcases walk.revisits_or_nodup with ⟨before, round, _, point, -, reach, cycle, -⟩ | ⟨visits, nodup, count, cut⟩
  · exact ⟨before, round, point, reach, cycle⟩
  · have inside : visits ⊆ points := by
      intro point mem
      obtain ⟨before, -, -, reach, -⟩ := cut point mem
      cases reach with
      | refl => exact begins
      | step _ last => exact lead _ _ last
    have bound := (List.subperm_of_subset nodup inside).length_le
    omega

/-- **A shortest walk that is not empty visits no point twice**, and so is no longer than a list of all points
that edges lead to. -/
theorem length_le_of_isLeast {points : List α} (lead : ∀ low high, edge low high → high ∈ points)
    {goal : α → Prop} {start : α} {length : Nat}
    (least : IsLeast {length | 0 < length ∧ ∃ finish, Walk edge length start finish ∧ goal finish} length) :
    length ≤ points.length := by
  obtain ⟨⟨positive, finish, walk, met⟩, minimal⟩ := least
  obtain ⟨rest, rfl⟩ := Nat.exists_eq_add_of_le positive
  -- a cycle is cut out of what follows the first edge, so that the walk does not get empty
  obtain ⟨second, first, onward⟩ := walk.split
  rcases onward.revisits_or_nodup with
    ⟨before, round, after, point, total, reach, -, ends⟩ | ⟨visits, nodup, count, cut⟩
  · have bound := minimal ⟨by omega, finish, (first.trans reach).trans ends, met⟩
    omega
  · have inside : visits ⊆ points := by
      intro point mem
      obtain ⟨before, -, -, reach, -⟩ := cut point mem
      have whole := first.trans reach
      rw [Nat.add_comm] at whole
      obtain ⟨_, -, last⟩ := succ_iff.mp whole
      exact lead _ _ last
    have bound := (List.subperm_of_subset nodup inside).length_le
    omega

end Walk

/-! ## Resolved heads -/

namespace Head

/-- Whether a head is more than a written name. -/
def isResolved : Head → Bool
  | unresolved _ => false
  | _ => true

/-- Resolved heads agree when they are equal. -/
theorem agrees_iff {first second : Head} (one : first.isResolved = true)
    (two : second.isResolved = true) : first.agrees second = true ↔ first = second := by
  cases first <;> cases second <;> simp_all [isResolved, agrees]

end Head

/-- Whether all types of a list have resolved heads. -/
def Ty.HeadsResolved (types : List Ty) : Prop := ∀ ty ∈ types, ty.head.isResolved = true

/-- Adding a type leaves out no resolved head. -/
theorem mem_heads_addHead {types : List Ty} {ty : Ty} (resolved : Ty.HeadsResolved types)
    (new : ty.head.isResolved = true) (head : Head) :
    head ∈ (addHead types ty).map Ty.head ↔ head ∈ types.map Ty.head ∨ head = ty.head := by
  unfold addHead
  split
  · rename_i there
    obtain ⟨other, mem, same⟩ := List.any_eq_true.mp there
    have equal : other.head = ty.head := (Head.agrees_iff (resolved other mem) new).mp same
    constructor
    · exact Or.inl
    · rintro (old | rfl)
      · exact old
      · exact List.mem_map.mpr ⟨other, mem, equal⟩
  · simp only [List.map_append, List.map_cons, List.map_nil, List.mem_append, List.mem_singleton]

theorem headsResolved_addHead {types : List Ty} {ty : Ty} (resolved : Ty.HeadsResolved types)
    (new : ty.head.isResolved = true) : Ty.HeadsResolved (addHead types ty) := by
  intro other mem
  unfold addHead at mem
  split at mem
  · exact resolved other mem
  · rcases List.mem_append.mp mem with old | last
    · exact resolved other old
    · rw [List.mem_singleton.mp last]
      exact new

/-- **Of types with resolved heads, every head is kept.** -/
theorem mem_heads_distinctHeads {types : List Ty} (resolved : Ty.HeadsResolved types) (head : Head) :
    head ∈ (distinctHeads types).map Ty.head ↔ head ∈ types.map Ty.head := by
  have fold : ∀ (rest kept : List Ty), Ty.HeadsResolved rest → Ty.HeadsResolved kept →
      (head ∈ (rest.foldl addHead kept).map Ty.head ↔
        head ∈ kept.map Ty.head ∨ head ∈ rest.map Ty.head) := by
    intro rest
    induction rest with
    | nil =>
      intro kept _ _
      simp
    | cons ty rest ih =>
      intro kept resolvedRest resolvedKept
      have new : ty.head.isResolved = true := resolvedRest ty List.mem_cons_self
      have later : Ty.HeadsResolved rest := fun other mem => resolvedRest other (List.mem_cons_of_mem _ mem)
      rw [List.foldl_cons, ih _ later (headsResolved_addHead resolvedKept new),
        mem_heads_addHead resolvedKept new, List.map_cons, List.mem_cons, or_assoc]
  have all := fold types [] resolved (fun _ mem => by cases mem)
  simpa [distinctHeads] using all

/-! ## Hops -/

namespace Lattice

/-- **Whether a node that agrees with one head has a parent of another head.** -/
def Hop (lattice : Lattice) (low high : Head) : Prop :=
  ∃ node ∈ lattice.nodes, node.ty.head.agrees low = true ∧
    ∃ parent, lattice.parentOf node = some parent ∧ parent.head = high

/-- Whether no node has an unresolved head. -/
def Resolved (lattice : Lattice) : Prop := Ty.HeadsResolved lattice.types

theorem parentOf_mem {lattice : Lattice} {node : LatticeNode} {parent : Ty}
    (found : lattice.parentOf node = some parent) : parent ∈ lattice.types := by
  simp only [parentOf, Option.bind_eq_some_iff, Option.map_eq_some_iff] at found
  obtain ⟨position, -, above, there, rfl⟩ := found
  exact List.mem_map.mpr ⟨above, List.mem_of_getElem? there, rfl⟩

theorem Hop.mem {lattice : Lattice} {low high : Head} (hop : lattice.Hop low high) :
    high ∈ lattice.types.map Ty.head := by
  obtain ⟨node, -, -, parent, found, rfl⟩ := hop
  exact List.mem_map.mpr ⟨parent, parentOf_mem found, rfl⟩

theorem Resolved.of_hop {lattice : Lattice} (resolved : lattice.Resolved) {low high : Head}
    (hop : lattice.Hop low high) : high.isResolved = true := by
  obtain ⟨ty, mem, rfl⟩ := List.mem_map.mp hop.mem
  exact resolved ty mem

/-- From a head that agrees with a resolved one the same hops go up, and perhaps more. -/
theorem Hop.of_agrees {lattice : Lattice} (resolved : lattice.Resolved) {low other high : Head}
    (own : low.isResolved = true) (agrees : other.agrees low = true) (hop : lattice.Hop low high) :
    lattice.Hop other high := by
  obtain ⟨node, mem, shares, above⟩ := hop
  have same := (Head.agrees_iff (resolved _ (List.mem_map_of_mem mem)) own).mp shares
  refine ⟨node, mem, ?_, above⟩
  rw [same, Head.agrees_comm]
  exact agrees

/-- So do the same walks, as long as they are not empty. -/
theorem walk_of_agrees {lattice : Lattice} (resolved : lattice.Resolved) {low other high : Head} {length : Nat}
    (own : low.isResolved = true) (agrees : other.agrees low = true)
    (walk : Walk lattice.Hop (length + 1) low high) : Walk lattice.Hop (length + 1) other high := by
  obtain ⟨between, hop, rest⟩ := Walk.succ_iff_first.mp walk
  exact Walk.succ_iff_first.mpr ⟨between, hop.of_agrees resolved own agrees, rest⟩

/-- What stands directly above a type is, by head, where a hop leads to. -/
theorem mem_heads_above {lattice : Lattice} (ty : Ty) (high : Head) :
    high ∈ (lattice.above ty).map Ty.head ↔ lattice.Hop ty.head high := by
  simp only [above, List.mem_map, List.mem_filterMap, List.mem_filter]
  constructor
  · rintro ⟨parent, ⟨node, ⟨mem, shares⟩, found⟩, rfl⟩
    exact ⟨node, mem, shares, parent, found, rfl⟩
  · rintro ⟨node, mem, shares, parent, found, rfl⟩
    exact ⟨parent, ⟨node, ⟨mem, shares⟩, found⟩, rfl⟩

theorem mem_heads_parents {lattice : Lattice} (resolved : lattice.Resolved) (ty : Ty) (high : Head) :
    high ∈ (lattice.parents ty).map Ty.head ↔ lattice.Hop ty.head high := by
  have heads : Ty.HeadsResolved (lattice.above ty) := by
    intro parent mem
    obtain ⟨node, -, found⟩ := List.mem_filterMap.mp mem
    exact resolved parent (parentOf_mem found)
  rw [parents_eq_distinctHeads, mem_heads_distinctHeads heads, mem_heads_above]

/-! ## Circles -/

/-- **Whether no hops lead round in a circle.** -/
def Acyclic (lattice : Lattice) : Prop := ∀ length head, ¬ Walk lattice.Hop (length + 1) head head

/-- Where each hop goes up in a rank, so does each walk, by as much as it is long. -/
theorem rank_le_of_walk {lattice : Lattice} (resolved : lattice.Resolved) {rank : Head → Nat}
    (rises : ∀ {low high}, low.isResolved = true → lattice.Hop low high → rank low < rank high) {length : Nat}
    {start finish : Head} (own : start.isResolved = true) (walk : Walk lattice.Hop length start finish) :
    finish.isResolved = true ∧ rank start + length ≤ rank finish := by
  induction walk with
  | refl => exact ⟨own, Nat.le_refl _⟩
  | step walk hop ih =>
    obtain ⟨inside, before⟩ := ih own
    have up := rises inside hop
    exact ⟨resolved.of_hop hop, by omega⟩

/-- **Hops that go up in a rank do not lead round.** -/
theorem acyclic_of_rising {lattice : Lattice} (resolved : lattice.Resolved) {rank : Head → Nat}
    (rises : ∀ {low high}, low.isResolved = true → lattice.Hop low high → rank low < rank high) :
    lattice.Acyclic := by
  intro length head walk
  obtain ⟨_, -, hop⟩ := Walk.succ_iff.mp walk
  have bound := (rank_le_of_walk resolved rises (resolved.of_hop hop) walk).2
  omega

/-! ## The search -/

/-- What the types directly above a frontier are, by head: the ends of hops from the frontier. -/
theorem mem_heads_flatMap_parents {lattice : Lattice} (resolved : lattice.Resolved) (frontier : List Ty)
    (high : Head) :
    high ∈ (frontier.flatMap lattice.parents).map Ty.head ↔
      ∃ low ∈ frontier.map Ty.head, lattice.Hop low high := by
  have each (ty : Ty) : high ∈ (lattice.parents ty).map Ty.head ↔ lattice.Hop ty.head high :=
    mem_heads_parents resolved ty high
  constructor
  · intro mem
    obtain ⟨parent, listed, rfl⟩ := List.mem_map.mp mem
    obtain ⟨ty, inside, above⟩ := List.mem_flatMap.mp listed
    exact ⟨ty.head, List.mem_map.mpr ⟨ty, inside, rfl⟩, (each ty).mp (List.mem_map.mpr ⟨parent, above, rfl⟩)⟩
  · rintro ⟨low, mem, hop⟩
    obtain ⟨ty, inside, rfl⟩ := List.mem_map.mp mem
    obtain ⟨parent, above, rfl⟩ := List.mem_map.mp ((each ty).mpr hop)
    exact List.mem_map.mpr ⟨parent, List.mem_flatMap.mpr ⟨ty, inside, above⟩, rfl⟩

/-- The lengths of walks that are not empty and end at a head that agrees with the ancestor's. -/
def meetings (lattice : Lattice) (child ancestor : Ty) : Set Nat :=
  {length | 0 < length ∧ ∃ high, Walk lattice.Hop length child.head high ∧ high.agrees ancestor.head = true}

/-- An ancestor with a resolved head is met where its own head is. -/
theorem mem_meetings_iff {lattice : Lattice} (resolved : lattice.Resolved) {child ancestor : Ty}
    (own : ancestor.head.isResolved = true) {length : Nat} :
    length ∈ lattice.meetings child ancestor ↔ 0 < length ∧ Walk lattice.Hop length child.head ancestor.head := by
  constructor
  · rintro ⟨positive, high, walk, shares⟩
    obtain ⟨shorter, rfl⟩ := Nat.exists_eq_succ_of_ne_zero (Nat.ne_of_gt positive)
    obtain ⟨_, -, hop⟩ := Walk.succ_iff.mp walk
    rw [← (Head.agrees_iff (resolved.of_hop hop) own).mp shares]
    exact ⟨positive, walk⟩
  · rintro ⟨positive, walk⟩
    exact ⟨positive, ancestor.head, walk, (Head.agrees_iff own own).mpr rfl⟩

/-- Where the ancestor is met at all there is a shortest walk that meets it. -/
theorem exists_isLeast_meetings {lattice : Lattice} {child ancestor : Ty} {length : Nat}
    (meeting : length ∈ lattice.meetings child ancestor) :
    ∃ least ≤ length, IsLeast (lattice.meetings child ancestor) least := by
  classical
  have met : ∃ length, length ∈ lattice.meetings child ancestor := ⟨length, meeting⟩
  exact ⟨Nat.find met, Nat.find_min' met meeting, Nat.find_spec met, fun _ mem => Nat.find_min' met mem⟩

/-- No shortest way up is longer than the lattice has nodes. -/
theorem length_le_size {lattice : Lattice} {child ancestor : Ty} {length : Nat}
    (least : IsLeast (lattice.meetings child ancestor) length) : length ≤ lattice.size := by
  have bound := Walk.length_le_of_isLeast (fun _ _ hop => Hop.mem hop) least
  simpa [types, size] using bound

/-- Whether the heads of a list are the ends of all walks of a length that begin at a head. -/
def Reached (lattice : Lattice) (start : Head) (length : Nat) (heads : List Head) : Prop :=
  ∀ head, head ∈ heads ↔ Walk lattice.Hop length start head

section

variable {lattice : Lattice} {child ancestor : Ty} {start : Head} {frontier : List Ty} {rounds hops : Nat}

/-- The heads above a frontier are the ends of walks that are longer by one. -/
theorem Reached.above (resolved : lattice.Resolved)
    (current : lattice.Reached start hops (frontier.map Ty.head)) :
    lattice.Reached start (hops + 1) ((frontier.flatMap lattice.parents).map Ty.head) := by
  intro high
  rw [mem_heads_flatMap_parents resolved, Walk.succ_iff]
  constructor
  · rintro ⟨low, mem, hop⟩
    exact ⟨low, (current low).mp mem, hop⟩
  · rintro ⟨low, walk, hop⟩
    exact ⟨low, (current low).mpr walk, hop⟩

/-- So are the heads of the next frontier, which keeps one type for each of them. -/
theorem Reached.next (resolved : lattice.Resolved)
    (current : lattice.Reached start hops (frontier.map Ty.head)) :
    lattice.Reached start (hops + 1)
      ((distinctHeads (frontier.flatMap lattice.parents)).map Ty.head) := by
  have heads : Ty.HeadsResolved (frontier.flatMap lattice.parents) := by
    intro ty mem
    have listed : ty.head ∈ (frontier.flatMap lattice.parents).map Ty.head :=
      List.mem_map.mpr ⟨ty, mem, rfl⟩
    obtain ⟨low, -, hop⟩ := (mem_heads_flatMap_parents resolved frontier ty.head).mp listed
    exact resolved.of_hop hop
  intro high
  rw [mem_heads_distinctHeads heads]
  exact current.above resolved high

theorem Reached.any_above_iff (resolved : lattice.Resolved)
    (current : lattice.Reached child.head hops (frontier.map Ty.head)) :
    (frontier.flatMap lattice.parents).any (·.sameHead ancestor) = true ↔
      hops + 1 ∈ lattice.meetings child ancestor := by
  have next := current.above resolved
  rw [List.any_eq_true]
  constructor
  · rintro ⟨ty, mem, shares⟩
    exact ⟨Nat.succ_pos _, ty.head, (next ty.head).mp (List.mem_map.mpr ⟨ty, mem, rfl⟩), shares⟩
  · rintro ⟨-, high, walk, shares⟩
    obtain ⟨ty, mem, rfl⟩ := List.mem_map.mp ((next high).mpr walk)
    exact ⟨ty, mem, shares⟩

/-- Where the walks of one length end nowhere, no longer walk ends anywhere. -/
theorem Reached.not_mem_meetings (none : lattice.Reached child.head hops []) {length : Nat}
    (beyond : hops ≤ length) : length ∉ lattice.meetings child ancestor := by
  rintro ⟨-, high, walk, -⟩
  have whole : Walk lattice.Hop (hops + (length - hops)) child.head high := by
    rw [Nat.add_sub_cancel' beyond]
    exact walk
  obtain ⟨between, before, -⟩ := whole.split
  cases (none between).mpr before

/-- Where a frontier holds the ends of all walks of its length, something is left above it if some walk is longer by
one hop. -/
theorem Reached.isEmpty_above_iff {start : Head} (resolved : lattice.Resolved)
    (current : lattice.Reached start hops (frontier.map Ty.head)) :
    (frontier.flatMap lattice.parents).isEmpty = true ↔ ¬ ∃ high, Walk lattice.Hop (hops + 1) start high := by
  have next := current.above resolved
  rw [List.isEmpty_iff]
  constructor
  · rintro empty ⟨high, walk⟩
    rw [empty] at next
    cases (next high).mpr walk
  · intro none
    apply List.eq_nil_iff_forall_not_mem.mpr
    intro ty mem
    exact none ⟨ty.head, (next ty.head).mp (List.mem_map_of_mem mem)⟩

/-- **A climb goes on** through the rounds in which something is left and the ancestor is not met. -/
theorem climb_eq_none_iff (resolved : lattice.Resolved)
    (current : lattice.Reached child.head hops (frontier.map Ty.head)) :
    lattice.climb ancestor rounds frontier hops = none ↔
      ∀ length, hops < length → length ≤ hops + rounds →
        (∃ high, Walk lattice.Hop length child.head high) ∧ length ∉ lattice.meetings child ancestor := by
  induction rounds generalizing frontier hops with
  | zero =>
    simp only [climb, true_iff]
    intro length beyond within
    omega
  | succ rounds ih =>
    have spent := current.isEmpty_above_iff resolved
    have met : (frontier.flatMap lattice.parents).any (·.sameHead ancestor) = true ↔
        hops + 1 ∈ lattice.meetings child ancestor := current.any_above_iff resolved
    have now : hops < hops + 1 ∧ hops + 1 ≤ hops + (rounds + 1) := by omega
    rw [climb]
    split
    · rename_i empty
      simp only [reduceCtorEq, false_iff]
      intro all
      exact spent.mp empty (all (hops + 1) now.1 now.2).1
    · rename_i left
      split
      · rename_i found
        simp only [reduceCtorEq, false_iff]
        intro all
        exact (all (hops + 1) now.1 now.2).2 (met.mp found)
      · rename_i missed
        rw [ih (current.next resolved)]
        constructor
        · intro later length beyond within
          by_cases first : length = hops + 1
          · subst first
            exact ⟨not_not.mp (mt spent.mpr left), mt met.mpr missed⟩
          · exact later length (by omega) (by omega)
        · intro all length beyond within
          exact all length (by omega) (by omega)

/-- A climb that stops has met the ancestor at the end of a shortest walk, or there is none. -/
theorem climb_eq_some (resolved : lattice.Resolved)
    (current : lattice.Reached child.head hops (frontier.map Ty.head))
    (unmet : ∀ length ∈ lattice.meetings child ancestor, hops < length) {outcome : Option Nat}
    (stopped : lattice.climb ancestor rounds frontier hops = some outcome) (length : Nat) :
    outcome = some length ↔ IsLeast (lattice.meetings child ancestor) length := by
  induction rounds generalizing frontier hops with
  | zero => cases stopped
  | succ rounds ih =>
    have met : (frontier.flatMap lattice.parents).any (·.sameHead ancestor) = true ↔
        hops + 1 ∈ lattice.meetings child ancestor := current.any_above_iff resolved
    rw [climb] at stopped
    split at stopped
    · rename_i empty
      cases stopped
      have nowhere := current.above resolved
      rw [List.isEmpty_iff.mp empty] at nowhere
      simp only [reduceCtorEq, false_iff]
      intro least
      exact nowhere.not_mem_meetings (unmet length least.1) least.1
    · split at stopped
      · rename_i found
        cases stopped
        have least : IsLeast (lattice.meetings child ancestor) (hops + 1) := ⟨met.mp found, unmet⟩
        constructor
        · intro same
          cases same
          exact least
        · intro other
          rw [least.unique other]
      · rename_i missed
        refine ih (current.next resolved) (fun length meeting => ?_) stopped
        have beyond := unmet length meeting
        have different : length ≠ hops + 1 := by
          rintro rfl
          exact missed (met.mpr meeting)
        omega

/-! ## From a child -/

/-- The first frontier holds the end of the empty walk. -/
theorem reached_child (lattice : Lattice) (child : Ty) : lattice.Reached child.head 0 ([child].map Ty.head) := by
  intro head
  rw [Walk.zero_iff, List.map_cons, List.map_nil, List.mem_singleton]

end

/-- **A distance is none between equal types, and else the length of a shortest walk that meets the
ancestor.** -/
theorem distance_eq_some_iff {lattice : Lattice} (resolved : lattice.Resolved) (child ancestor : Ty)
    (length : Nat) :
    lattice.distance child ancestor = some length ↔
      if child.equals ancestor then length = 0 else IsLeast (lattice.meetings child ancestor) length := by
  have start := reached_child lattice child
  have answer {rounds : Nat} {outcome : Option Nat}
      (stopped : lattice.climb ancestor rounds [child] 0 = some outcome) :=
    climb_eq_some resolved start (fun _ meeting => meeting.1) stopped length
  rw [distance_eq]
  split
  · simp only [Option.some.injEq, eq_comm]
  · rw [Option.join_eq_some_iff, search_eq_some_iff]
    constructor
    · rintro ⟨rounds, stopped⟩
      exact (answer stopped).mp rfl
    · intro least
      -- a climb of that many rounds has stopped, since it meets the ancestor in the last of them
      cases stopped : lattice.climb ancestor length [child] 0 with
      | none =>
        have still := (climb_eq_none_iff resolved start).mp stopped length least.1.1 (by omega)
        exact absurd least.1 still.2
      | some outcome =>
        obtain rfl := (answer stopped).mpr least
        exact ⟨length, stopped⟩

/-- There is no distance to what no walk meets. -/
theorem distance_eq_none_iff {lattice : Lattice} (resolved : lattice.Resolved) (child ancestor : Ty) :
    lattice.distance child ancestor = none ↔
      ¬ child.equals ancestor = true ∧ ∀ length, length ∉ lattice.meetings child ancestor := by
  have found := distance_eq_some_iff resolved child ancestor
  rw [Option.eq_none_iff_forall_ne_some]
  constructor
  · intro absent
    have different : ¬ child.equals ancestor = true := by
      intro same
      exact absent 0 ((found 0).mpr (by rw [if_pos same]))
    refine ⟨different, fun length meeting => ?_⟩
    obtain ⟨shortest, -, least⟩ := exists_isLeast_meetings meeting
    exact absent _ ((found _).mpr (by rw [if_neg different]; exact least))
  · rintro ⟨different, none⟩ length reached
    have least := (found length).mp reached
    rw [if_neg different] at least
    exact none length least.1

/-- No walk that meets the ancestor is shorter than the distance. -/
theorem exists_distance_le {lattice : Lattice} (resolved : lattice.Resolved) {child ancestor : Ty} {length : Nat}
    (meeting : length ∈ lattice.meetings child ancestor) :
    ∃ shorter ≤ length, lattice.distance child ancestor = some shorter := by
  have found := distance_eq_some_iff resolved child ancestor
  by_cases same : child.equals ancestor = true
  · exact ⟨0, Nat.zero_le _, (found 0).mpr (by rw [if_pos same])⟩
  · obtain ⟨shortest, bound, least⟩ := exists_isLeast_meetings meeting
    exact ⟨shortest, bound, (found shortest).mpr (by rw [if_neg same]; exact least)⟩

end Lattice

end DeclCheck
