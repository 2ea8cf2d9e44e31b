import DeclCheck.Proofs.Lattice.Order
import DeclCheck.Proofs.Lattice.Termination

/-!
# Equal types have equal distances

The equality of types looks at arguments and takes all placeholders for one another, and a distance looks at heads. They
fit together where the lattice holds only what a name can mean. A type with such a head equals another one only if the
heads are equal, and then both have the same walks from and to them. All other resolved types are placeholders: no walk
leads from or to any of them, whatever its name.

Types with a written name in them are left out, since such a name equals types that do not equal each other.
-/

namespace DeclCheck

/-- **Whether two types are resolved and equal.** -/
structure Ty.Equated (first second : Ty) : Prop where
  one : first.isResolved = true
  two : second.isResolved = true
  same : first.equals second = true

namespace Ty.Equated

variable {first second third fourth : Ty}

theorem symm (equated : Equated first second) : Equated second first :=
  ⟨equated.two, equated.one, equals_comm first second ▸ equated.same⟩

theorem trans (low : Equated first second) (high : Equated second third) : Equated first third :=
  ⟨low.one, high.two, equals_trans first second third low.one low.two low.same high.same⟩

/-- Equal types are equal to the same types. -/
theorem equals_congr (low : Equated first second) (high : Equated third fourth) :
    first.equals third = second.equals fourth := by
  rw [Bool.eq_iff_iff]
  constructor
  · intro same
    exact ((low.symm.trans ⟨low.one, high.one, same⟩).trans high).same
  · intro same
    exact ((low.trans ⟨low.two, high.two, same⟩).trans high.symm).same

end Ty.Equated

namespace Lattice

variable {lattice : Lattice} {child other ancestor top : Ty}

/-! ## Walks -/

/-- **From equal types lead the same walks**, as long as they are not empty. -/
theorem walk_of_equated (meant : lattice.Meant) (low : child.Equated other) {length : Nat} {high : Head}
    (walk : Walk lattice.Hop (length + 1) child.head high) : Walk lattice.Hop (length + 1) other.head high := by
  obtain ⟨_, hop, -⟩ := Walk.succ_iff_first.mp walk
  have shape := hop.isMeant meant (Ty.isResolved_head low.one)
  rw [Ty.head_eq_of_equals shape (Ty.isResolved_head low.two) low.same] at walk
  exact walk

/-- **To equal types lead the same walks**, as long as they are not empty. -/
theorem walk_to_equated (meant : lattice.Meant) (high : ancestor.Equated top) {length : Nat} {low : Head}
    (walk : Walk lattice.Hop (length + 1) low ancestor.head) : Walk lattice.Hop (length + 1) low top.head := by
  obtain ⟨_, -, hop⟩ := Walk.succ_iff.mp walk
  rw [Ty.head_eq_of_equals (meant _ hop.mem) (Ty.isResolved_head high.two) high.same] at walk
  exact walk

theorem meetings_subset (meant : lattice.Meant) (low : child.Equated other) (high : ancestor.Equated top) :
    lattice.meetings child ancestor ⊆ lattice.meetings other top := by
  intro length meeting
  obtain ⟨positive, walk⟩ := (mem_meetings_iff meant.resolved (Ty.isResolved_head high.one)).mp meeting
  obtain ⟨shorter, rfl⟩ := Nat.exists_eq_succ_of_ne_zero (Nat.ne_of_gt positive)
  have moved := walk_to_equated meant high (walk_of_equated meant low walk)
  exact (mem_meetings_iff meant.resolved (Ty.isResolved_head high.two)).mpr ⟨positive, moved⟩

theorem meetings_congr (meant : lattice.Meant) (low : child.Equated other) (high : ancestor.Equated top) :
    lattice.meetings child ancestor = lattice.meetings other top :=
  Set.Subset.antisymm (meetings_subset meant low high) (meetings_subset meant low.symm high.symm)

/-! ## Distances -/

theorem distance_congr (meant : lattice.Meant) (low : child.Equated other) (high : ancestor.Equated top) :
    lattice.distance child ancestor = lattice.distance other top := by
  apply Option.ext
  intro length
  rw [distance_eq_some_iff meant.resolved, distance_eq_some_iff meant.resolved, low.equals_congr high,
    meetings_congr meant low high]

/-- A climb from one of two equal types goes on for ever if the other does. -/
theorem climbsForever_of_equated (meant : lattice.Meant) (low : child.Equated other) (high : ancestor.Equated top)
    (forever : lattice.ClimbsForever child ancestor) : lattice.ClimbsForever other top := by
  rw [climbsForever_iff meant.resolved, reaches_iff] at forever ⊢
  rw [← meetings_congr meant low high]
  refine ⟨?_, forever.2⟩
  intro length
  cases length with
  | zero => exact ⟨other.head, .refl _⟩
  | succ length =>
    obtain ⟨high, walk⟩ := forever.1 (length + 1)
    exact ⟨high, walk_of_equated meant low walk⟩

/-- **The equality of types is an equivalence and a congruence.** It is reflexive and symmetric on all types and
transitive on resolved ones. And in a lattice of what names can mean, resolved types may take the place of equal ones:
the distances are the same, and if one search goes on for ever so does the other. -/
theorem equals_congruence :
    (∀ ty : Ty, ty.equals ty = true) ∧
      (∀ first second : Ty, first.equals second = true → second.equals first = true) ∧
      (∀ first second third : Ty, first.Equated second → second.Equated third → first.equals third = true) ∧
      ∀ lattice : Lattice, lattice.Meant → ∀ child other ancestor top : Ty,
        child.Equated other → ancestor.Equated top →
          lattice.distance child ancestor = lattice.distance other top ∧
            (lattice.ClimbsForever child ancestor ↔ lattice.ClimbsForever other top) := by
  refine ⟨Ty.equals_self, ?_, ?_, ?_⟩
  · intro first second same
    rw [Ty.equals_comm]
    exact same
  · intro first second third low high
    exact (low.trans high).same
  · intro lattice meant child other ancestor top low high
    exact ⟨distance_congr meant low high, climbsForever_of_equated meant low high,
      climbsForever_of_equated meant low.symm high.symm⟩

/-- The builtins and a struct. -/
def withBox : Lattice := initial.insert (.struct "Box" [.generic "T"]) (.builtin .struct)

/-- Boxes of different placeholders, one of them nullable, are equally far below `Any`, and so are the placeholders
themselves equally far from a box: not at all. -/
theorem equals_congruence_withBox :
    withBox.Meant ∧ (Ty.struct "Box" [.generic "T"]).Equated (.app (.struct "Box") [.generic "Other"] true) ∧
      (Ty.generic "T").Equated (.generic "Other") ∧
      withBox.distance (.app (.struct "Box") [.generic "Other"] true) .any = some 2 ∧
      withBox.distance (.struct "Box" [.generic "T"]) .any = some 2 ∧
      withBox.distance (.generic "T") (.struct "Box" [.generic "T"]) =
        withBox.distance (.generic "Other") (.app (.struct "Box") [.generic "Other"] true) := by
  have meant : withBox.Meant := by
    unfold Meant
    decide
  have boxes : (Ty.struct "Box" [.generic "T"]).Equated (.app (.struct "Box") [.generic "Other"] true) :=
    ⟨by decide, by decide, by decide⟩
  have placeholders : (Ty.generic "T").Equated (.generic "Other") := ⟨by decide, by decide, by decide⟩
  have root : Ty.any.Equated .any := ⟨by decide, by decide, by decide⟩
  have congruent := equals_congruence.2.2.2 withBox meant
  have far : withBox.distance (.app (.struct "Box") [.generic "Other"] true) .any = some 2 := by decide
  exact ⟨meant, boxes, placeholders, far, (congruent _ _ _ _ boxes root).1.trans far,
    (congruent _ _ _ _ placeholders boxes).1⟩

end Lattice

end DeclCheck
