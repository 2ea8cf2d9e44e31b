import DeclCheck.Symbols.Types
import DeclCheck.Proofs.Lattice.History

/-!
# Ladders of groups

Groups may be bound into groups, so registrations and bindings build chains of any length. A *ladder*
is such a chain: each rung is a group bound into the next one. From its first rung to its last there
are as many hops as there are bindings, because besides the next rung only the root stands above a
rung. No fixed number therefore bounds the distances of lattices that a session can reach, although no
hops of a ladder lead round: ranked by how high they stand, with the root above all rungs, all types
have parents of a higher rank.

Only the distance from the first rung to the last is counted. How far apart other types of such a lattice are is left
open.
-/

namespace DeclCheck

/-- **The type tables that registrations and group bindings lead to.** -/
inductive TypeTable.Registered : TypeTable → Prop
  | initial : Registered .initial
  | struct {types after : TypeTable} {decl : StructDecl} (registered : Registered types)
      (entered : types.registerStruct decl = .ok after) : Registered after
  | enum {types after : TypeTable} {decl : EnumDecl} (registered : Registered types)
      (entered : types.registerEnum decl = .ok after) : Registered after
  | group {types after : TypeTable} {decl : GroupDecl} (registered : Registered types)
      (entered : types.registerGroup decl = .ok after) : Registered after
  | binding {types after : TypeTable} {child : Ty} {group : String} (registered : Registered types)
      (bound : types.bindGroup? child (Ty.group group) = some after) : Registered after

namespace Lattice

/-! ## Rungs -/

/-- The name of a rung. Names of different rungs have different lengths. -/
def rungName (index : Nat) : String := String.ofList (List.replicate (index + 1) 'g')

/-- A rung of a ladder: a group. -/
def rung (index : Nat) : Ty := Ty.group (rungName index)

/-- Different rungs have different names. -/
theorem rungName_injective {first second : Nat} (same : rungName first = rungName second) :
    first = second := by
  have lengths := congrArg String.length same
  simp only [rungName, String.length_ofList, List.length_replicate] at lengths
  exact Nat.succ.inj lengths

/-- So they have different heads. -/
theorem sameHead_rung (first second : Nat) :
    (rung first).sameHead (rung second) = decide (first = second) := by
  by_cases same : first = second
  · subst same
    simp [Ty.sameHead, rung, Ty.group, Ty.head, Atom.head, Head.agrees]
  · have names : rungName first ≠ rungName second := fun equal => same (rungName_injective equal)
    simp [Ty.sameHead, rung, Ty.group, Ty.head, Atom.head, Head.agrees, names, same]

theorem sameHead_any_rung (index : Nat) : Ty.any.sameHead (rung index) = false := rfl

theorem sameHead_rung_any (index : Nat) : (rung index).sameHead Ty.any = false := rfl

/-! ## Ranks -/

/-- How high a type stands, if the root stands at the given height: a rung as high as its name is long, and builtins
above integers and enums. -/
def rankUnder (root : Nat) : Head → Nat
  | .builtin .any => root
  | .builtin .integer => 0
  | .builtin _ => 1
  | .group name => name.length
  | _ => 0

/-- Only the root stands where it is put. -/
theorem rankUnder_eq {head : Head} (inner : head ≠ .builtin .any) (root other : Nat) :
    rankUnder root head = rankUnder other head := by
  cases head with
  | builtin kind =>
    cases kind with
    | any => exact absurd rfl inner
    | number | integer | string | date | list | table | tuple | struct | enum => rfl
  | void | generic | unresolved | struct | enum | group => rfl

/-- A rung stands one above its index. -/
theorem rankUnder_rung (root index : Nat) : rankUnder root (rung index).head = index + 1 := by
  show (rungName index).length = index + 1
  rw [rungName, String.length_ofList, List.length_replicate]

/-- Whether all hops go up, wherever above the given height the root is put. -/
def RisesFrom (height : Nat) (lattice : Lattice) : Prop :=
  ∀ root low high, height + 2 ≤ root → low.isResolved = true → lattice.Hop low high →
    rankUnder root low < rankUnder root high

/-- An attachment that goes up keeps hops going up. -/
theorem RisesFrom.insert? {height least : Nat} {lattice after : Lattice} {child parent : Ty}
    (rises : lattice.RisesFrom height) (higher : height ≤ least) (range : lattice.InRange)
    (resolved : lattice.Resolved) (own : child.head.isResolved = true) (under : parent.head.isResolved = true)
    (inserted : lattice.insert? child parent = some after)
    (up : ∀ root, least + 2 ≤ root → rankUnder root child.head < rankUnder root parent.head) :
    after.RisesFrom least := by
  intro root low high above known hop
  rcases (hop_insert? range resolved under inserted low high).mp hop with old | ⟨shares, rfl⟩
  · exact rises root low high (by omega) known old
  · rw [← (Head.agrees_iff own known).mp shares]
    exact up root above

/-- In the lattice that every check starts from all hops go up. -/
theorem initial_risesFrom : TypeTable.initial.lattice.RisesFrom 0 := by
  intro root low high above known hop
  obtain ⟨node, mem, shares, parent, found, rfl⟩ := hop
  have edges : ∀ node ∈ TypeTable.initial.lattice.nodes, ∀ parent ∈ TypeTable.initial.lattice.parentOf node,
      node.ty.head.isResolved = true ∧ node.ty.head ≠ .builtin .any ∧
        rankUnder 2 node.ty.head < rankUnder 2 parent.head := by decide
  obtain ⟨own, inner, up⟩ := edges node mem parent found
  rw [← (Head.agrees_iff own known).mp shares, rankUnder_eq inner root 2]
  by_cases top : parent.head = .builtin .any
  · rw [top] at up ⊢
    exact Nat.lt_of_lt_of_le up above
  · rw [rankUnder_eq top root 2]
    exact up

/-! ## Ladders -/

/-- **What a ladder of a height looks like**: the root is known and nothing stands above it; above each
rung stand the root and the next rung, above the last rung only the root; higher rungs are unknown. And all hops go
up. -/
structure Ladder (height : Nat) (lattice : Lattice) : Prop where
  range : lattice.InRange
  resolved : lattice.Resolved
  rises : lattice.RisesFrom height
  tall : height < lattice.size
  root : lattice.first? Ty.any = some Ty.any
  aboveRoot : lattice.above Ty.any = []
  known : ∀ index, index ≤ height → lattice.first? (rung index) = some (rung index)
  unknown : ∀ index, height < index → lattice.first? (rung index) = none
  aboveRung : ∀ index, index < height → lattice.above (rung index) = [Ty.any, rung (index + 1)]
  aboveTop : lattice.above (rung height) = [Ty.any]
  aboveUnknown : ∀ index, height < index → lattice.above (rung index) = []

/-! ## Building ladders -/

/-- The declaration of a rung. -/
def rungDecl (index : Nat) : GroupDecl := ⟨⟨rungName index, .nowhere⟩, "", .nowhere⟩

/-- An unknown rung can be registered under a known root. -/
theorem registerGroup_rung {types : TypeTable} {index : Nat}
    (root : types.lattice.first? Ty.any = some Ty.any)
    (unknown : types.lattice.first? (rung index) = none) :
    ∃ lattice, types.lattice.insert? (rung index) Ty.any = some lattice ∧
      types.registerGroup (rungDecl index) = .ok { types with lattice } := by
  obtain ⟨position, node, -, -, inserted⟩ := insert?_eq_some root (rung index)
  refine ⟨_, inserted, ?_⟩
  have absent : types.lattice.contains (Ty.group (rungDecl index).name.name) = false := by
    rw [contains_eq_isSome_first?]
    exact congrArg Option.isSome unknown
  have entered : types.lattice.insert (Ty.group (rungDecl index).name.name) Ty.any =
      ⟨types.lattice.nodes ++ [⟨(rung index).withNullable false, some position⟩]⟩ :=
    congrArg (·.getD types.lattice) inserted
  simp only [TypeTable.registerGroup, absent, entered, Bool.false_eq_true, if_false]

/-- The lattice that every check starts from has no group. -/
theorem initial_no_rung (index : Nat) :
    ∀ node ∈ TypeTable.initial.lattice.nodes, node.ty.sameHead (rung index) = false := by
  have heads : ∀ node ∈ TypeTable.initial.lattice.nodes,
      (node.ty.head matches .builtin _ | .enum _) = true := by decide
  intro node mem
  have head := heads node mem
  unfold Ty.sameHead
  cases h : node.ty.head with
  | builtin kind => rfl
  | enum name => rfl
  | _ => rw [h] at head; cases head

/-- One rung is a ladder. -/
theorem ladder_zero {lattice : Lattice}
    (inserted : TypeTable.initial.lattice.insert? (rung 0) Ty.any = some lattice) :
    Ladder 0 lattice := by
  have range : TypeTable.initial.lattice.InRange := by
    unfold InRange; decide
  have root : TypeTable.initial.lattice.first? Ty.any = some Ty.any := rfl
  have noFirst : ∀ index, TypeTable.initial.lattice.first? (rung index) = none := fun index =>
    Option.map_eq_none_iff.mpr (List.find?_eq_none.mpr fun node mem => by
      simpa using initial_no_rung index node mem)
  have noAbove : ∀ index, TypeTable.initial.lattice.above (rung index) = [] := fun index => by
    have nodes : TypeTable.initial.lattice.nodes.filter (·.ty.sameHead (rung index)) = [] :=
      List.filter_eq_nil_iff.mpr fun node mem => by
        simpa using initial_no_rung index node mem
    simp only [above, nodes, List.filterMap_nil]
  have firsts := first?_insert? root inserted
  have aboves := above_insert? range root inserted
  have resolved : TypeTable.initial.lattice.Resolved := by
    unfold Resolved Ty.HeadsResolved; decide
  refine ⟨range.insert? root inserted, resolved.insert? rfl inserted, ?_, ?_, ?_, ?_, ?_, ?_, ?_, ?_, ?_⟩
  · refine initial_risesFrom.insert? (Nat.le_refl 0) range resolved rfl rfl inserted fun top above => ?_
    rw [rankUnder_rung]
    exact above
  · rw [size_insert? root inserted]; exact Nat.succ_pos _
  · rw [firsts, root]; rfl
  · rw [aboves, sameHead_rung_any]; rfl
  · intro index low
    obtain rfl := Nat.le_zero.mp low
    rw [firsts, noFirst, sameHead_rung]; rfl
  · intro index high
    rw [firsts, noFirst, sameHead_rung, decide_eq_false (Nat.ne_of_lt high)]; rfl
  · intro index low
    exact absurd low (Nat.not_lt_zero _)
  · rw [aboves, noAbove, sameHead_rung]; rfl
  · intro index high
    rw [aboves, noAbove, sameHead_rung, decide_eq_false (Nat.ne_of_lt high)]; rfl

/-- **A ladder grows by one rung**: register the new rung, then bind the last one into it. -/
theorem Ladder.succ {height : Nat} {lattice grown after : Lattice} (ladder : Ladder height lattice)
    (registered : lattice.insert? (rung (height + 1)) Ty.any = some grown)
    (bound : grown.insert? (rung height) (rung (height + 1)) = some after) :
    Ladder (height + 1) after := by
  have range := ladder.range.insert? ladder.root registered
  have firsts := first?_insert? ladder.root registered
  have aboves := above_insert? ladder.range ladder.root registered
  have top : grown.first? (rung (height + 1)) = some (rung (height + 1)) := by
    rw [firsts, ladder.unknown _ (Nat.lt_succ_self height), sameHead_rung, decide_eq_true rfl]; rfl
  have firsts' := first?_insert? top bound
  have aboves' := above_insert? range top bound
  have resolved := ladder.resolved.insert? rfl registered
  have rises : grown.RisesFrom (height + 1) := by
    apply ladder.rises.insert? (Nat.le_succ height) ladder.range ladder.resolved rfl rfl registered
    intro root above
    rw [rankUnder_rung]
    exact above
  refine ⟨range.insert? top bound, resolved.insert? rfl bound, ?_, ?_, ?_, ?_, ?_, ?_, ?_, ?_, ?_⟩
  · refine rises.insert? (Nat.le_refl _) range resolved rfl rfl bound fun root _ => ?_
    rw [rankUnder_rung, rankUnder_rung]
    exact Nat.lt_succ_self _
  · rw [size_insert? top bound, size_insert? ladder.root registered]
    exact Nat.lt_succ_of_lt (Nat.succ_lt_succ ladder.tall)
  · rw [firsts', firsts, ladder.root]; rfl
  · rw [aboves', aboves, ladder.aboveRoot, sameHead_rung_any, sameHead_rung_any]; rfl
  · intro index low
    rcases Nat.lt_or_eq_of_le low with lower | rfl
    · rw [firsts', firsts, ladder.known index (Nat.le_of_lt_succ lower)]; rfl
    · rw [firsts', top]; rfl
  · intro index high
    rw [firsts', firsts, ladder.unknown index (by omega), sameHead_rung, sameHead_rung,
      decide_eq_false (by omega), decide_eq_false (by omega)]
    rfl
  · intro index low
    rw [aboves', aboves, sameHead_rung, sameHead_rung, decide_eq_false (by omega)]
    rcases Nat.lt_or_eq_of_le (Nat.le_of_lt_succ low) with lower | rfl
    · rw [ladder.aboveRung index lower, decide_eq_false (by omega)]; rfl
    · rw [ladder.aboveTop, decide_eq_true rfl]; rfl
  · rw [aboves', aboves, ladder.aboveUnknown _ (Nat.lt_succ_self height), sameHead_rung,
      sameHead_rung, decide_eq_true rfl, decide_eq_false (by omega)]
    rfl
  · intro index high
    rw [aboves', aboves, ladder.aboveUnknown index (by omega), sameHead_rung, sameHead_rung,
      decide_eq_false (by omega), decide_eq_false (by omega)]
    rfl

/-- **Registrations and bindings build ladders of every height.** -/
theorem exists_ladder (height : Nat) :
    ∃ types : TypeTable, types.Registered ∧ Ladder height types.lattice := by
  induction height with
  | zero =>
    have unknown : TypeTable.initial.lattice.first? (rung 0) = none :=
      Option.map_eq_none_iff.mpr (List.find?_eq_none.mpr fun node mem => by
        simpa using initial_no_rung 0 node mem)
    obtain ⟨lattice, inserted, entered⟩ := registerGroup_rung rfl unknown
    exact ⟨_, .group .initial entered, ladder_zero inserted⟩
  | succ height ih =>
    obtain ⟨types, registered, ladder⟩ := ih
    obtain ⟨grown, inserted, entered⟩ :=
      registerGroup_rung ladder.root (ladder.unknown _ (Nat.lt_succ_self height))
    have top : grown.first? (rung (height + 1)) = some (rung (height + 1)) := by
      rw [first?_insert? ladder.root inserted, ladder.unknown _ (Nat.lt_succ_self height),
        sameHead_rung, decide_eq_true rfl]
      rfl
    obtain ⟨position, node, -, -, bound⟩ := insert?_eq_some top (rung height)
    have joined : ({ types with lattice := grown } : TypeTable).bindGroup? (rung height)
        (Ty.group (rungName (height + 1))) = some { types with lattice := _ } :=
      congrArg (Option.map _) bound
    exact ⟨_, .binding (.group registered entered) joined, ladder.succ inserted bound⟩

/-- **No hops of a ladder lead round.** -/
theorem Ladder.acyclic {height : Nat} {lattice : Lattice} (ladder : Ladder height lattice) : lattice.Acyclic :=
  acyclic_of_rising ladder.resolved fun own hop => ladder.rises _ _ _ (Nat.le_refl _) own hop

/-! ## The distance along a ladder -/

section

variable {height : Nat} {lattice : Lattice}

/-- Nothing stands above the root. -/
theorem Ladder.parents_root (ladder : Ladder height lattice) : lattice.parents Ty.any = [] := by
  rw [parents_eq_distinctHeads, ladder.aboveRoot]; rfl

/-- Above a rung stand the root and the next rung. -/
theorem Ladder.parents_rung (ladder : Ladder height lattice) {index : Nat} (low : index < height) :
    lattice.parents (rung index) = [Ty.any, rung (index + 1)] := by
  rw [parents_eq_distinctHeads, ladder.aboveRung index low]; rfl

/-- So each round of a search goes up one rung. -/
theorem Ladder.flatMap_parents (ladder : Ladder height lattice) {index : Nat} (low : index < height) :
    [Ty.any, rung index].flatMap lattice.parents = [Ty.any, rung (index + 1)] := by
  simp only [List.flatMap_cons, List.flatMap_nil, ladder.parents_root, ladder.parents_rung low,
    List.nil_append, List.append_nil]

/-- From a rung below the last one the search climbs rung by rung. -/
theorem Ladder.search_eq (ladder : Ladder height lattice) {index left : Nat} (rest : index + left + 1 = height) :
    lattice.search (rung height) [Ty.any, rung index] index = some (some height) := by
  induction left generalizing index with
  | zero =>
    rw [search, ladder.flatMap_parents (by omega)]
    simp only [List.isEmpty_cons, List.any_cons, sameHead_any_rung, sameHead_rung, rest, List.any_nil, decide_true,
      Bool.or_false, Bool.or_true, Bool.false_eq_true, if_false, if_true]
  | succ left ih =>
    have below : ¬ index + 1 = height := by omega
    have next : distinctHeads [Ty.any, rung (index + 1)] = [Ty.any, rung (index + 1)] := rfl
    rw [search, ladder.flatMap_parents (by omega)]
    simp only [List.isEmpty_cons, List.any_cons, sameHead_any_rung, sameHead_rung, below, List.any_nil, decide_false,
      Bool.or_false, Bool.false_eq_true, if_false, next]
    exact ih (by omega)

/-- **From the first rung to the last there are as many hops as the ladder is high.** -/
theorem Ladder.distance_eq (ladder : Ladder height lattice) :
    lattice.distance (rung 0) (rung height) = some height := by
  cases height with
  | zero =>
    have same : (rung 0).equals (rung 0) = true := by
      simp [rung, Ty.group, Ty.equals, Ty.head, Ty.args, Atom.head, Head.equates, Head.agrees]
    simp only [distance, same, if_true]
  | succ height =>
    have different : (rung 0).equals (rung (height + 1)) = false := by
      have names : rungName 0 ≠ rungName (height + 1) := fun same =>
        Nat.succ_ne_zero height (rungName_injective same).symm
      simp [rung, Ty.group, Ty.equals, Ty.head, Ty.args, Atom.head, Head.equates, Head.agrees, names]
    have start : lattice.search (rung (height + 1)) [rung 0] 0 =
        lattice.search (rung (height + 1)) [Ty.any, rung 0] 0 := by
      apply search_frontier_congr
      simp only [List.flatMap_cons, ladder.parents_root, List.nil_append]
    rw [distance_eq, different, start, ladder.search_eq (Nat.succ_inj.mpr (Nat.zero_add height))]
    rfl

end

end Lattice

end DeclCheck
