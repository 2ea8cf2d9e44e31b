import DeclCheck.Lattice
import DeclCheck.Proofs.Ty.Equality
import Mathlib.Data.List.Basic

/-!
# What insertion does to a lattice

A lattice is seen through two views: the first type that shares a head (`first?`), and the types that
stand directly above a head, one for each node that has it (`above`). Insertion adds the child to the
first view and its parent to the second, at the end of both. The parent that counts is the first type
with the parent's head, wherever else that head occurs.
-/

namespace DeclCheck

namespace Lattice

/-- The first type in the lattice with the head of a type. -/
def first? (lattice : Lattice) (ty : Ty) : Option Ty :=
  (lattice.nodes.find? (·.ty.sameHead ty)).map (·.ty)

/-- The parents of every node with the type's head, in order of insertion. -/
def above (lattice : Lattice) (ty : Ty) : List Ty :=
  (lattice.nodes.filter (·.ty.sameHead ty)).filterMap lattice.parentOf

theorem parents_eq_distinctHeads (lattice : Lattice) (ty : Ty) :
    lattice.parents ty = distinctHeads (lattice.above ty) := rfl

/-- Whether every parent position is one of a node. -/
def InRange (lattice : Lattice) : Prop :=
  ∀ node ∈ lattice.nodes, ∀ position, node.parent = some position → position < lattice.nodes.length

/-- Under a type whose head is present, insertion adds one node. -/
theorem insert?_eq_some {lattice : Lattice} {parent found : Ty}
    (present : lattice.first? parent = some found) (child : Ty) :
    ∃ (position : Nat) (node : LatticeNode), lattice.nodes[position]? = some node ∧ node.ty = found ∧
      lattice.insert? child parent =
        some ⟨lattice.nodes ++ [⟨child.withNullable false, some position⟩]⟩ := by
  obtain ⟨node, hfind, hty⟩ := Option.map_eq_some_iff.mp present
  obtain ⟨shares, position, inside, here, first⟩ := List.find?_eq_some_iff_getElem.mp hfind
  refine ⟨position, node, ?_, hty, ?_⟩
  · rw [List.getElem?_eq_getElem inside, here]
  · have index : lattice.nodes.findIdx? (·.ty.sameHead parent) = some position := by
      refine List.findIdx?_eq_some_iff_getElem.mpr ⟨inside, ?_, fun earlier before => ?_⟩
      · rw [here]; exact shares
      · simpa using first earlier before
    rw [insert?, index, Option.map_some]

/-- A head is present when there is a first type with it. -/
theorem contains_eq_isSome_first? (lattice : Lattice) (ty : Ty) :
    lattice.contains ty = (lattice.first? ty).isSome := by
  simp only [contains, first?, Option.isSome_map, List.isSome_find?]

section

variable {lattice after : Lattice} {child parent found : Ty}

/-- Positions stay in range. -/
theorem InRange.insert? (range : lattice.InRange) (present : lattice.first? parent = some found)
    (inserted : lattice.insert? child parent = some after) : after.InRange := by
  obtain ⟨position, node, hnode, -, hinsert⟩ := insert?_eq_some present child
  cases hinsert.symm.trans inserted
  have inside : position < lattice.nodes.length := (List.getElem?_eq_some_iff.mp hnode).1
  intro other mem target hparent
  rw [List.length_append]
  rcases List.mem_append.mp mem with old | new
  · exact Nat.lt_add_right _ (range other old target hparent)
  · cases List.mem_singleton.mp new
    cases hparent
    exact Nat.lt_add_right _ inside

theorem size_insert? (present : lattice.first? parent = some found)
    (inserted : lattice.insert? child parent = some after) : after.size = lattice.size + 1 := by
  obtain ⟨position, node, -, -, hinsert⟩ := insert?_eq_some present child
  cases hinsert.symm.trans inserted
  simp only [size, List.length_append, List.length_singleton]

/-- The child joins the first types of its head, after all others. -/
theorem first?_insert? (present : lattice.first? parent = some found)
    (inserted : lattice.insert? child parent = some after) (ty : Ty) :
    after.first? ty =
      (lattice.first? ty).or (if child.sameHead ty then some (child.withNullable false) else none) := by
  obtain ⟨position, node, -, -, hinsert⟩ := insert?_eq_some present child
  cases hinsert.symm.trans inserted
  have head : (child.withNullable false).sameHead ty = child.sameHead ty := by
    simp only [Ty.sameHead, Ty.head_withNullable]
  simp only [first?, List.find?_append, List.find?_cons, List.find?_nil, head]
  cases lattice.nodes.find? (·.ty.sameHead ty) with
  | some node => rfl
  | none => cases child.sameHead ty <;> rfl

private theorem parentOf_append (range : lattice.InRange) (added : List LatticeNode)
    {node : LatticeNode} (mem : node ∈ lattice.nodes) :
    (⟨lattice.nodes ++ added⟩ : Lattice).parentOf node = lattice.parentOf node := by
  cases hparent : node.parent with
  | none => simp only [parentOf, hparent, Option.bind_none]
  | some position =>
    have inside := range node mem position hparent
    simp only [parentOf, hparent, Option.bind_some, List.getElem?_append_left inside]

/-- **The parent joins what stands above the child's head, after all others.** -/
theorem above_insert? (range : lattice.InRange) (present : lattice.first? parent = some found)
    (inserted : lattice.insert? child parent = some after) (ty : Ty) :
    after.above ty = lattice.above ty ++ (if child.sameHead ty then [found] else []) := by
  obtain ⟨position, node, hnode, hty, hinsert⟩ := insert?_eq_some present child
  cases hinsert.symm.trans inserted
  have old : (lattice.nodes.filter (·.ty.sameHead ty)).filterMap
      (⟨lattice.nodes ++ [⟨child.withNullable false, some position⟩]⟩ : Lattice).parentOf =
        lattice.above ty :=
    List.filterMap_congr fun node mem => parentOf_append range _ (List.mem_filter.mp mem).1
  have new : (⟨lattice.nodes ++ [⟨child.withNullable false, some position⟩]⟩ : Lattice).parentOf
      ⟨child.withNullable false, some position⟩ = some found := by
    have inside : position < lattice.nodes.length := (List.getElem?_eq_some_iff.mp hnode).1
    simp only [parentOf, Option.bind_some, List.getElem?_append_left inside, hnode, Option.map_some,
      hty]
  have head : (child.withNullable false).sameHead ty = child.sameHead ty := by
    simp only [Ty.sameHead, Ty.head_withNullable]
  simp only [above, List.filter_append, List.filterMap_append, List.filter_cons, List.filter_nil, head]
  rw [old]
  cases child.sameHead ty with
  | false => rfl
  | true => simp only [if_true, List.filterMap_cons, new, List.filterMap_nil]; rfl

end

end Lattice

end DeclCheck
