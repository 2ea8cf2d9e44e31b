import DeclCheck.Conformity
import DeclCheck.Proofs.Growth
import DeclCheck.Proofs.Lattice.History
import DeclCheck.Proofs.Written

/-!
# Lattices that stay close to their root

As a lattice grows, distances can only shrink: new nodes bring new walks and take none away. One cost could
still rise. An argument that has no way up to `Any` is passed there at a fixed cost, and once it has a way its
length counts instead. In the lattices of written units that length is at most two: a parent is the root or
stands directly under it, since every group is entered there before anything can be bound into it.

Only the way to the root is short. Two types under it may be any number of hops apart, as on the ladders of
`Proofs.Lattice.Ladder`.
-/

namespace DeclCheck

namespace Lattice

/-! ## Growing lattices -/

section

variable {lattice after : Lattice}

/-- No hop is lost. -/
theorem Hop.of_grown (grown : lattice.nodes <+: after.nodes) {low high : Head}
    (hop : lattice.Hop low high) : after.Hop low high := by
  obtain ⟨node, mem, shares, parent, found, rfl⟩ := hop
  refine ⟨node, grown.subset mem, shares, parent, ?_, rfl⟩
  obtain ⟨added, nodes⟩ := grown
  obtain ⟨position, above, there⟩ := Option.bind_eq_some_iff.mp found
  obtain ⟨target, listed, rfl⟩ := Option.map_eq_some_iff.mp there
  have inside : position < lattice.nodes.length := (List.getElem?_eq_some_iff.mp listed).1
  simp only [parentOf, above, Option.bind_some, ← nodes, List.getElem?_append_left inside, listed,
    Option.map_some]

/-- **Distances only shrink.** -/
theorem distance_of_grown (resolved : lattice.Resolved) (resolvedAfter : after.Resolved)
    (grown : lattice.nodes <+: after.nodes) {child ancestor : Ty} {length : Nat}
    (found : lattice.distance child ancestor = some length) :
    ∃ shorter ≤ length, after.distance child ancestor = some shorter := by
  by_cases same : child.equals ancestor = true
  · exact ⟨0, Nat.zero_le _, (distance_eq_zero_iff resolvedAfter child ancestor).mpr same⟩
  · have least := (distance_eq_some_iff resolved child ancestor length).mp found
    rw [if_neg same] at least
    obtain ⟨positive, high, walk, shares⟩ := least.1
    obtain ⟨moved, -⟩ := walk.transfer (fun _ _ _ hop => ⟨hop.of_grown grown, trivial⟩) trivial
    exact exists_distance_le resolvedAfter ⟨positive, high, moved, shares⟩

end

/-! ## Close to the root -/

/-- Whether a head is the root's or has a hop to it. -/
def NearRoot (lattice : Lattice) (head : Head) : Prop :=
  head = .builtin .any ∨ lattice.Hop head (.builtin .any)

/-- **Whether every parent is the root or stands directly under it**, and so does all that types can be
attached under. -/
structure Rooted (lattice : Lattice) : Prop where
  range : lattice.InRange
  resolved : lattice.Resolved
  structs : lattice.NearRoot (.builtin .struct)
  enums : lattice.NearRoot (.builtin .enum)
  groups : ∀ name, .group name ∈ lattice.types.map Ty.head → lattice.NearRoot (.group name)
  parents : ∀ low high, lattice.Hop low high → lattice.NearRoot high

/-- From wherever there is a way to the root, there is one of at most two hops. -/
theorem Rooted.distance_le {lattice : Lattice} (rooted : lattice.Rooted) {child ancestor : Ty}
    {length : Nat} (root : ancestor.isAny = true)
    (found : lattice.distance child ancestor = some length) : length ≤ 2 := by
  have head : ancestor.head = .builtin .any := by simpa [Ty.isAny] using root
  have least := (distance_eq_some_iff rooted.resolved child ancestor length).mp found
  split at least
  · omega
  · obtain ⟨⟨positive, high, walk, -⟩, minimal⟩ := least
    obtain ⟨rest, rfl⟩ := Nat.exists_eq_succ_of_ne_zero (Nat.ne_of_gt positive)
    obtain ⟨between, hop, -⟩ := Walk.succ_iff_first.mp walk
    have first : Walk lattice.Hop 1 child.head between := .step (.refl _) hop
    have root : (Head.builtin .any).agrees ancestor.head = true := by
      rw [head]
      rfl
    rcases rooted.parents _ _ hop with top | near
    · have meeting : 1 ∈ lattice.meetings child ancestor := ⟨Nat.one_pos, _, first, top ▸ root⟩
      have bound := minimal meeting
      omega
    · exact minimal ⟨Nat.two_pos, _, .step first near, root⟩

/-- **An argument that was accepted stays accepted**: no cost rises to that of unrelated types. -/
theorem Rooted.cost_lt {lattice after : Lattice} (rooted : lattice.Rooted) (rootedAfter : after.Rooted)
    (grown : lattice.nodes <+: after.nodes) {actual declared : Ty}
    (cheap : lattice.cost actual declared < unrelatedCost) :
    after.cost actual declared < unrelatedCost := by
  unfold cost at cheap ⊢
  split
  · decide
  · rename_i different
    rw [if_neg different] at cheap
    split
    · decide
    · rename_i apart
      rw [if_neg apart] at cheap
      cases before : lattice.distance actual declared with
      | some length =>
        obtain ⟨shorter, bound, found⟩ :=
          distance_of_grown rooted.resolved rootedAfter.resolved grown before
        simp only [before] at cheap
        simp only [found]
        omega
      | none =>
        simp only [before] at cheap
        split at cheap
        · rename_i root
          -- a way to the root may have opened, but it is shorter than the cost was
          cases found : after.distance actual declared with
          | none => simp only [root, if_true]; decide
          | some length =>
            have bound := rootedAfter.distance_le root found
            have small : 2 < unrelatedCost := by decide
            simp only
            omega
        · exact absurd cheap (Nat.lt_irrefl _)

/-! ## Attaching close to the root -/

theorem NearRoot.of_grown {lattice after : Lattice} (grown : lattice.nodes <+: after.nodes) {head : Head}
    (near : lattice.NearRoot head) : after.NearRoot head :=
  near.imp_right fun hop => hop.of_grown grown

theorem Rooted.insert? {lattice after : Lattice} (rooted : lattice.Rooted) {child parent : Ty}
    (own : child.head.isResolved = true) (under : parent.head.isResolved = true)
    (near : lattice.NearRoot parent.head)
    (grouped : ∀ name, child.head = .group name →
      parent.head = .builtin .any ∨ .group name ∈ lattice.types.map Ty.head)
    (inserted : lattice.insert? child parent = some after) : after.Rooted := by
  have grown := insert?_grows inserted
  have hops := hop_insert? rooted.range rooted.resolved under inserted
  obtain ⟨found, present⟩ := exists_first?_of_insert? inserted
  have old (name : String) (mem : .group name ∈ lattice.types.map Ty.head) :
      after.NearRoot (.group name) := (rooted.groups name mem).of_grown grown
  refine ⟨rooted.range.insert? present inserted, rooted.resolved.insert? own inserted,
    rooted.structs.of_grown grown, rooted.enums.of_grown grown, ?_, ?_⟩
  · intro name mem
    rw [types_insert? inserted, List.map_append, List.mem_append] at mem
    rcases mem with mem | new
    · exact old name mem
    · have head : child.head = .group name := by simpa [eq_comm] using new
      rcases grouped name head with top | mem
      · exact Or.inr ((hops _ _).mpr (Or.inr ⟨by rw [head]; exact beq_self_eq_true _, top⟩))
      · exact old name mem
  · intro low high hop
    rcases (hops low high).mp hop with before | ⟨-, rfl⟩
    · exact (rooted.parents low high before).of_grown grown
    · exact near.of_grown grown

theorem Rooted.insert {lattice : Lattice} (rooted : lattice.Rooted) {child parent : Ty}
    (own : child.head.isResolved = true) (under : parent.head.isResolved = true)
    (near : lattice.NearRoot parent.head)
    (grouped : ∀ name, child.head = .group name →
      parent.head = .builtin .any ∨ .group name ∈ lattice.types.map Ty.head) :
    (lattice.insert child parent).Rooted := by
  cases inserted : lattice.insert? child parent with
  | none =>
    rw [insert_of_insert?_eq_none inserted]
    exact rooted
  | some after =>
    rw [insert_of_insert?_eq_some inserted]
    exact rooted.insert? own under near grouped inserted

instance (lattice : Lattice) (low high : Head) : Decidable (lattice.Hop low high) :=
  decidable_of_iff
    (∃ node ∈ lattice.nodes, node.ty.head.agrees low = true ∧
      (lattice.parentOf node).map Ty.head = some high)
    (by simp only [Hop, Option.map_eq_some_iff])

instance (lattice : Lattice) (head : Head) : Decidable (lattice.NearRoot head) :=
  inferInstanceAs (Decidable (_ ∨ _))

end Lattice

/-! ## The lattices of sessions -/

theorem Ty.isResolved_head {ty : Ty} (resolved : ty.isResolved = true) : ty.head.isResolved = true := by
  cases ty with
  | atom shape nullable => cases shape <;> rfl
  | app ctor args nullable =>
    cases ctor with
    | unresolved => cases resolved
    | builtin | struct => rfl

namespace TypeTable

/-- A written name means a group only if the lattice has it. -/
theorem mem_heads_of_meaning {types : TypeTable} {written name : String}
    (meant : types.meaning? written = some (.group name)) :
    .group name ∈ types.lattice.types.map Ty.head := by
  unfold meaning? at meant
  split at meant
  · rename_i found located
    have head : found.head = .group name := by
      cases shape : found.head <;> simp_all [Meaning.ofHead?]
    rw [← head]
    exact List.mem_map.mpr ⟨found, List.mem_of_find?_eq_some located, rfl⟩
  · split at meant
    · cases meant
    · split at meant
      · cases meant
      · obtain ⟨kind, -, made⟩ := Option.map_eq_some_iff.mp meant
        cases made

/-- A written type is resolved to a group only if the lattice has it. -/
theorem mem_heads_of_resolve {types : TypeTable} {generics : List String} {written ty : Ty}
    (form : written.isWritten = true) (resolved : types.resolve generics written = .ok ty) {name : String}
    (head : ty.head = .group name) : .group name ∈ types.lattice.types.map Ty.head := by
  cases written with
  | atom shape nullable =>
    cases shape with
    | void =>
      cases resolved
      cases head
    | generic | enum | group => cases form
  | app ctor args nullable =>
    cases ctor with
    | unresolved written location =>
      rw [resolve] at resolved
      split at resolved
      · cases resolved
        cases head
      · obtain ⟨found, -, next⟩ := bind_eq_ok.mp resolved
        split at next
        · cases next
        · rename_i meaning meant
          obtain ⟨_, -, made⟩ := bind_eq_ok.mp next
          cases made
          cases meaning with
          | group =>
            cases head
            exact mem_heads_of_meaning meant
          | builtin | struct | enum => cases head
    | builtin | struct => cases form

theorem rooted_initial : TypeTable.initial.lattice.Rooted where
  range := by
    have all : ∀ node ∈ TypeTable.initial.lattice.nodes, ∀ position ∈ node.parent,
        position < TypeTable.initial.lattice.nodes.length := by decide
    exact all
  resolved := by
    have all : ∀ ty ∈ TypeTable.initial.lattice.types, ty.head.isResolved = true := by decide
    exact all
  structs := by decide
  enums := by decide
  groups := by
    have all : ∀ head ∈ TypeTable.initial.lattice.types.map Ty.head,
        TypeTable.initial.lattice.NearRoot head ∨
          head ∈ [.builtin .integer, Ty.boolean.head, Ty.nil.head] := by decide
    intro name mem
    rcases all _ mem with near | other
    · exact near
    · simp [Ty.boolean, Ty.nil, Ty.enum, Ty.head, Atom.head] at other
  parents := by
    have all : ∀ node ∈ TypeTable.initial.lattice.nodes,
        ∀ parent ∈ TypeTable.initial.lattice.parentOf node,
          TypeTable.initial.lattice.NearRoot parent.head := by decide
    rintro low high ⟨node, mem, -, parent, found, rfl⟩
    exact all node mem parent found

end TypeTable

namespace Analysis

/-- **What written declarations do to the type tables keeps the lattice rooted.** -/
theorem typesKeep_rooted {decls : List Decl} (written : ∀ decl ∈ decls, decl.isWritten = true) :
    TypesKeep (fun types => types.lattice.Rooted) decls where
  registerStruct := by
    intro decl types after _ rooted registered
    obtain ⟨-, rfl⟩ := TypeTable.registerStruct_eq_ok registered
    exact rooted.insert rfl rfl rooted.structs fun _ head => by cases head
  registerEnum := by
    intro decl types after _ rooted registered
    obtain ⟨-, rfl⟩ := TypeTable.registerEnum_eq_ok registered
    exact rooted.insert rfl rfl rooted.enums fun _ head => by cases head
  registerGroup := by
    intro decl types after _ rooted registered
    obtain rfl := TypeTable.registerGroup_eq_ok registered
    exact rooted.insert rfl rfl (Or.inl rfl) fun _ _ => Or.inl rfl
  bindTypes := by
    intro binding bound types after mem rooted reached
    obtain ⟨child, name, nullable, lattice, resolved, -, inserted, -, rfl⟩ := bindTypes_inserted reached
    have form : binding.child.isWritten = true := by
      have both := written _ mem
      simp only [Decl.isWritten, Bool.and_eq_true] at both
      exact both.1
    have own : child.head.isResolved = true :=
      Ty.isResolved_head (TypeTable.isResolved_of_resolve _ resolved)
    have present : .group name ∈ types.lattice.types.map Ty.head := by
      exact (Lattice.contains_iff rooted.resolved rfl).mp (Lattice.contains_of_insert? inserted)
    have under : (Ty.atom (.group name) nullable).head.isResolved = true := rfl
    refine rooted.insert? own under (rooted.groups name present) (fun group head => Or.inr ?_) inserted
    exact TypeTable.mem_heads_of_resolve form resolved head
  updateStruct := by
    intro _ _ _ _ decl resolved types _ rooted _
    exact rooted

end Analysis

theorem Session.Written.rooted {session : Session} (written : session.Written) :
    session.symbols.types.lattice.Rooted :=
  written.types TypeTable.rooted_initial fun _ => Analysis.typesKeep_rooted

end DeclCheck
