import DeclCheck.Proofs.Naming.Coherence
import DeclCheck.Proofs.Restrictions.Members

/-!
# Subtyping as an order

A value may be used where its type equals the expected one, where anything is expected, where both meet at `nil`, and
where the lattice has a way up. Each of these rules looks at something else: the first at arguments and not at the
lattice, the last at heads alone, and for the first all placeholders are one. Taken together they make an order all the
same, on types that are resolved and not nullable, as long as no hops lead round in a circle.

Two of the rules are one: a type *lies under* another by a number of hops, which is none if they are equal. Hops add up,
since equal types have the same hops above and below them: placeholders have none at all, and other types are equal only
if their heads are. The rule for `Any` composes with that because no hop leaves the root. Everything has a way up to the
root, so a hop from it would close a circle.

The order is not established where hops lead round, since two different types may lie under each other there, nor for
nullable types and types with a written name in them.
-/

namespace DeclCheck

/-! ## Equality of resolved types -/

/-- Being taken for one another is transitive on resolved heads. -/
theorem Head.equates_trans {first second third : Head} (one : first.isResolved = true) (two : second.isResolved = true)
    (low : first.equates second = true) (high : second.equates third = true) : first.equates third = true := by
  by_cases meant : first.isMeant = true
  · rw [(agrees_iff one two).mp ((equates_iff_agrees meant).mp low)]
    exact high
  · cases first with
    | unresolved => cases one
    | void | enum | group | builtin | struct => exact absurd rfl meant
    | generic =>
      cases second with
      | generic =>
        cases third with
        | generic => rfl
        | void | enum | group | unresolved | builtin | struct => cases high
      | void | enum | group | unresolved | builtin | struct => cases low

namespace Ty

mutual

/-- **Equality is transitive on resolved types.** A written name can equal types that do not equal one another. -/
theorem equals_trans (first second third : Ty) (one : first.isResolved = true) (two : second.isResolved = true)
    (low : first.equals second = true) (high : second.equals third = true) : first.equals third = true := by
  have heads := Head.equates_trans (isResolved_head one) (isResolved_head two) (equates_of_equals low)
    (equates_of_equals high)
  cases first with
  | atom shape nullable =>
    have none := args_eq_nil_of_equals (equals_comm _ _ ▸ low) rfl
    exact equals_of_equates heads rfl (args_eq_nil_of_equals (equals_comm _ _ ▸ high) none)
  | app ctor args nullable =>
    rw [isResolved, Bool.and_eq_true] at one
    have arguments : allResolved second.args = true := allResolved_iff.mpr (isResolved_args two)
    exact equals_iff.mpr ⟨heads, allEqual_trans args second.args third.args one.2 arguments (equals_iff.mp low).2
      (equals_iff.mp high).2⟩

/-- So is the equality of lists of resolved types. -/
theorem allEqual_trans (first second third : List Ty) (one : allResolved first = true)
    (two : allResolved second = true) (low : allEqual first second = true) (high : allEqual second third = true) :
    allEqual first third = true := by
  cases first with
  | nil =>
    cases second with
    | nil => exact high
    | cons => cases low
  | cons ty rest =>
    cases second with
    | nil => cases low
    | cons other others =>
      cases third with
      | nil => cases high
      | cons last later =>
        rw [allResolved, Bool.and_eq_true] at one two
        rw [allEqual, Bool.and_eq_true] at low high ⊢
        exact ⟨equals_trans ty other last one.1 two.1 low.1 high.1,
          allEqual_trans rest others later one.2 two.2 low.2 high.2⟩

end

/-- **Whether a type is resolved and does not admit `nil`.** Its arguments may. -/
structure Plain (ty : Ty) : Prop where
  resolved : ty.isResolved = true
  solid : ty.nullable = false

end Ty

namespace Lattice

variable {lattice : Lattice} {low middle high : Ty}

/-! ## Ways up -/

/-- **Whether a type lies under another by a number of hops**: they are equal, or a walk leads from head to head. -/
inductive LiesUnder (lattice : Lattice) (low high : Ty) : Nat → Prop
  | same (equal : low.equals high = true) : LiesUnder lattice low high 0
  | below {length : Nat} (walk : Walk lattice.Hop (length + 1) low.head high.head) :
      LiesUnder lattice low high (length + 1)

/-- A distance is a way up. -/
theorem liesUnder_of_distance (resolved : lattice.Resolved) (own : high.head.isResolved = true) {hops : Nat}
    (found : lattice.distance low high = some hops) : lattice.LiesUnder low high hops := by
  have least := (distance_eq_some_iff resolved low high hops).mp found
  by_cases equal : low.equals high = true
  · rw [if_pos equal] at least
    rw [least]
    exact .same equal
  · rw [if_neg equal] at least
    obtain ⟨positive, walk⟩ := (mem_meetings_iff resolved own).mp least.1
    obtain ⟨shorter, rfl⟩ := Nat.exists_eq_succ_of_ne_zero (Nat.ne_of_gt positive)
    exact .below walk

/-- The distance is the least of these numbers. -/
theorem LiesUnder.exists_distance (resolved : lattice.Resolved) (own : high.head.isResolved = true) {hops : Nat}
    (under : lattice.LiesUnder low high hops) : ∃ shorter ≤ hops, lattice.distance low high = some shorter := by
  cases under with
  | same equal => exact ⟨0, Nat.le_refl 0, (distance_eq_zero_iff resolved low high).mpr equal⟩
  | below walk => exact exists_distance_le resolved ((mem_meetings_iff resolved own).mpr ⟨Nat.succ_pos _, walk⟩)

/-- **Hops add up.** Equal types have the same walks from and to them. -/
theorem LiesUnder.trans (meant : lattice.Meant) (one : low.isResolved = true) (two : middle.isResolved = true)
    (three : high.isResolved = true) {first second : Nat} (under : lattice.LiesUnder low middle first)
    (onward : lattice.LiesUnder middle high second) : lattice.LiesUnder low high (first + second) := by
  cases under with
  | same equal =>
    rw [Nat.zero_add]
    cases onward with
    | same next => exact .same (Ty.equals_trans low middle high one two equal next)
    | below walk =>
      obtain ⟨_, hop, -⟩ := Walk.succ_iff_first.mp walk
      have shape := hop.isMeant meant (Ty.isResolved_head two)
      rw [Ty.equals_comm] at equal
      rw [Ty.head_eq_of_equals shape (Ty.isResolved_head one) equal] at walk
      exact .below walk
  | below walk =>
    cases onward with
    | same next =>
      obtain ⟨_, -, hop⟩ := Walk.succ_iff.mp walk
      rw [Ty.head_eq_of_equals (meant _ hop.mem) (Ty.isResolved_head three) next] at walk
      exact .below walk
    | below more => exact .below (walk.trans more)

/-! ## Circles -/

/-- Parents that stand higher in a rank than their nodes make no circle. -/
theorem acyclic_of_rank (resolved : lattice.Resolved) (rank : Head → Nat)
    (rises : ∀ node ∈ lattice.nodes, ∀ parent ∈ lattice.parentOf node, rank node.ty.head < rank parent.head) :
    lattice.Acyclic := by
  apply acyclic_of_rising resolved
  intro low high own hop
  obtain ⟨node, mem, shares, parent, found, rfl⟩ := hop
  have same := (Head.agrees_iff (resolved _ (List.mem_map_of_mem mem)) own).mp shares
  rw [← same]
  exact rises node mem parent found

/-- **Everything in the lattice has a way up to the root.** -/
theorem Ordered.exists_walk (ordered : lattice.Ordered) (resolved : lattice.Resolved) {position : Nat}
    {node : LatticeNode} (there : lattice.nodes[position]? = some node) :
    ∃ length, Walk lattice.Hop length node.ty.head (.builtin .any) := by
  induction position using Nat.strongRecOn generalizing node with
  | ind position ih =>
    cases position with
    | zero =>
      rw [ordered.root] at there
      cases there
      exact ⟨0, .refl _⟩
    | succ position =>
      obtain ⟨before, order, parent, found, hop⟩ := ordered.exists_hop_before resolved there
      obtain ⟨length, walk⟩ := ih before (Nat.lt_succ_of_le order) found
      exact ⟨length + 1, Walk.succ_iff_first.mpr ⟨_, hop, walk⟩⟩

/-- **No hop leaves the root**, where none lead round. -/
theorem Acyclic.not_hop_root (acyclic : lattice.Acyclic) (ordered : lattice.Ordered) (resolved : lattice.Resolved)
    (head : Head) : ¬ lattice.Hop (.builtin .any) head := by
  intro hop
  obtain ⟨ty, mem, rfl⟩ := List.mem_map.mp hop.mem
  obtain ⟨node, listed, rfl⟩ := List.mem_map.mp mem
  obtain ⟨position, there⟩ := List.mem_iff_getElem?.mp listed
  obtain ⟨length, walk⟩ := ordered.exists_walk resolved there
  exact acyclic length _ (Walk.succ_iff_first.mpr ⟨_, hop, walk⟩)

/-! ## The order -/

/-- **Of plain types one is a subtype exactly if it lies under the other, or that is the root.** -/
theorem isSubtype_iff_liesUnder (resolved : lattice.Resolved) (plain : low.Plain) (expected : high.Plain) :
    lattice.isSubtype low high = true ↔ high.isAny = true ∨ ∃ hops, lattice.LiesUnder low high hops := by
  have own := Ty.isResolved_head expected.resolved
  simp only [isSubtype, meetsAtNil, plain.solid, expected.solid, Bool.and_false, Bool.or_false, Bool.or_eq_true]
  constructor
  · rintro ((equal | any) | below)
    · exact Or.inr ⟨0, .same equal⟩
    · exact Or.inl any
    · obtain ⟨hops, found⟩ := Option.isSome_iff_exists.mp below
      exact Or.inr ⟨hops, liesUnder_of_distance resolved own found⟩
  · rintro (any | ⟨hops, under⟩)
    · exact Or.inl (Or.inr any)
    · obtain ⟨shorter, -, found⟩ := under.exists_distance resolved own
      exact Or.inr (Option.isSome_iff_exists.mpr ⟨shorter, found⟩)

/-- What the root lies under is the root. -/
theorem LiesUnder.isAny (stays : ∀ head, ¬ lattice.Hop (.builtin .any) head) (own : high.head.isResolved = true)
    (root : low.isAny = true) {hops : Nat} (under : lattice.LiesUnder low high hops) : high.isAny = true := by
  have head : low.head = .builtin .any := beq_iff_eq.mp root
  cases under with
  | same equal =>
    have shape : low.head.isMeant = true := by rw [head]; rfl
    rw [Ty.isAny, ← Ty.head_eq_of_equals shape own equal]
    exact root
  | below walk =>
    rw [head] at walk
    obtain ⟨_, hop, -⟩ := Walk.succ_iff_first.mp walk
    exact absurd hop (stays _)

/-- **Whether a lattice orders the types.** -/
structure Orders (lattice : Lattice) : Prop where
  triangle : ∀ low middle high : Ty, low.isResolved = true → middle.isResolved = true → high.isResolved = true →
    ∀ first second, lattice.distance low middle = some first → lattice.distance middle high = some second →
      ∃ whole ≤ first + second, lattice.distance low high = some whole
  refl : ∀ ty : Ty, ty.Plain → lattice.isSubtype ty ty = true
  trans : ∀ low middle high : Ty, low.Plain → middle.Plain → high.Plain → lattice.isSubtype low middle = true →
    lattice.isSubtype middle high = true → lattice.isSubtype low high = true
  antisymm : ∀ low high : Ty, low.Plain → high.Plain → lattice.isSubtype low high = true →
    lattice.isSubtype high low = true → low.equals high = true ∨ (low.isAny = true ∧ high.isAny = true)

/-- **Subtyping is an order where no hops lead round.** -/
theorem orders_of_acyclic (acyclic : lattice.Acyclic) (meant : lattice.Meant) (ordered : lattice.Ordered) :
    lattice.Orders where
  triangle := by
    intro low middle high one two three first second below onward
    have resolved := meant.resolved
    have under := liesUnder_of_distance resolved (Ty.isResolved_head two) below
    have next := liesUnder_of_distance resolved (Ty.isResolved_head three) onward
    exact (under.trans meant one two three next).exists_distance resolved (Ty.isResolved_head three)
  refl := by
    intro ty plain
    exact (isSubtype_iff_liesUnder meant.resolved plain plain).mpr (Or.inr ⟨0, .same (Ty.equals_self ty)⟩)
  trans := by
    intro low middle high one two three below onward
    rw [isSubtype_iff_liesUnder meant.resolved one two] at below
    rw [isSubtype_iff_liesUnder meant.resolved two three] at onward
    rw [isSubtype_iff_liesUnder meant.resolved one three]
    rcases onward with any | ⟨second, next⟩
    · exact Or.inl any
    · rcases below with root | ⟨first, under⟩
      · exact Or.inl (next.isAny (acyclic.not_hop_root ordered meant.resolved) (Ty.isResolved_head three.resolved) root)
      · exact Or.inr ⟨first + second, under.trans meant one.resolved two.resolved three.resolved next⟩
  antisymm := by
    intro low high one two below above
    have stays := acyclic.not_hop_root ordered meant.resolved
    rw [isSubtype_iff_liesUnder meant.resolved one two] at below
    rw [isSubtype_iff_liesUnder meant.resolved two one] at above
    rcases below with top | ⟨first, under⟩
    · rcases above with root | ⟨second, next⟩
      · exact Or.inr ⟨root, top⟩
      · exact Or.inr ⟨next.isAny stays (Ty.isResolved_head one.resolved) top, top⟩
    · rcases above with root | ⟨second, next⟩
      · exact Or.inr ⟨root, under.isAny stays (Ty.isResolved_head two.resolved) root⟩
      · cases under with
        | same equal => exact Or.inl equal
        | below walk =>
          cases next with
          | same equal => exact Or.inl (Ty.equals_comm _ _ ▸ equal)
          | below back => exact absurd (walk.trans back) (acyclic _ _)

end Lattice

/-! ## Sessions -/

/-- Whatever a unit does keeps nodes behind their parents. -/
theorem Analysis.typesKeep_ordered (decls : List Decl) : TypesKeep (fun types => types.lattice.Ordered) decls where
  registerStruct := by
    rintro decl types after - ordered registered
    obtain ⟨-, rfl⟩ := TypeTable.registerStruct_eq_ok registered
    exact ordered.insert _ _
  registerEnum := by
    rintro decl types after - ordered registered
    obtain ⟨-, rfl⟩ := TypeTable.registerEnum_eq_ok registered
    exact ordered.insert _ _
  registerGroup := by
    rintro decl types after - ordered registered
    obtain rfl := TypeTable.registerGroup_eq_ok registered
    exact ordered.insert _ _
  bindTypes := by
    rintro binding bound types after - ordered reached
    obtain ⟨_, _, _, _, -, -, inserted, -, rfl⟩ := bindTypes_inserted reached
    exact ordered.insert? inserted
  updateStruct := by
    rintro - - - - decl resolved types - ordered -
    exact ordered

namespace Session

/-- So in every state of a session they are. -/
theorem Reachable.ordered {session : Session} (reachable : session.Reachable) :
    session.symbols.types.lattice.Ordered := by
  induction reachable with
  | initial => exact TypeTable.ordered_initial
  | add _ unit ih =>
    rw [symbols_addUnit]
    exact Analysis.keepsTypes_declarations (Analysis.typesKeep_ordered _) _ ih

/-- **Subtyping is an order** in every state of a session in which no hops lead round: distances keep the triangle
inequality, and among resolved types that do not admit `nil` at their top, conformity is reflexive and transitive, and
two types that conform to each other are equal or are both `Any`. -/
theorem Reachable.orders {session : Session} (reachable : session.Reachable)
    (acyclic : session.symbols.types.lattice.Acyclic) : session.symbols.types.lattice.Orders :=
  Lattice.orders_of_acyclic acyclic reachable.meant reachable.ordered

/-- A group inside another, and a struct that is bound into both. -/
def solidsUnit : SourceUnit where
  filename := "solids.pine"
  content := ""
  declarations :=
    [.group ⟨⟨"Shape", .nowhere⟩, "", .nowhere⟩,
      .group ⟨⟨"Solid", .nowhere⟩, "", .nowhere⟩,
      .struct ⟨⟨"Box", .nowhere⟩, [], [], "", .nowhere⟩,
      .binding ⟨Ty.written "Solid" [], Ty.written "Shape" [], "", .nowhere⟩,
      .binding ⟨Ty.written "Box" [], Ty.written "Shape" [], "", .nowhere⟩,
      .binding ⟨Ty.written "Box" [], Ty.written "Solid" [], "", .nowhere⟩]

/-- How far up a head stands at least. -/
private def solidsRank (head : Head) : Nat :=
  if head = .builtin .any then 4
  else if head = .group "Shape" then 3
  else if head ∈ [.group "Solid", .builtin .struct, .builtin .enum, .builtin .number] then 2
  else 1

theorem solidsUnit_orders :
    let session := (initial.addUnit solidsUnit).2
    (initial.addUnit solidsUnit).1.toBool = true ∧ session.Reachable ∧ session.symbols.types.lattice.Acyclic ∧
      session.symbols.types.lattice.Orders := by
  intro session
  have reachable : session.Reachable := .add .initial _
  have rises : ∀ node ∈ session.symbols.types.lattice.nodes,
      ∀ parent ∈ session.symbols.types.lattice.parentOf node, solidsRank node.ty.head < solidsRank parent.head := by
    decide +kernel
  have acyclic := Lattice.acyclic_of_rank reachable.meant.resolved solidsRank rises
  exact ⟨by decide +kernel, reachable, acyclic, reachable.orders acyclic⟩

end Session

end DeclCheck
