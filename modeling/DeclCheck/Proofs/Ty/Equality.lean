import DeclCheck.Ty.Basic

/-!
# Equality of types

The equality of the type system is reflexive and symmetric, and nullability takes no part in it. All of this is
inherited from heads: agreement of heads is symmetric although an unresolved name agrees with several of them.

It is not transitive: a written name equals a struct and an enum of that name, which do not equal each other.
`Proofs.Lattice.Congruence` says where it is.
-/

namespace DeclCheck

/-! ## Heads -/

namespace Head

/-- Agreement goes both ways. -/
theorem agrees_comm (first second : Head) : first.agrees second = second.agrees first := by
  cases first <;> cases second <;>
    simp only [agrees, answersTo, name?, Bool.beq_comm]

/-- So does being taken for one another. -/
theorem equates_comm (first second : Head) : first.equates second = second.equates first := by
  cases first <;> cases second <;> simp only [equates] <;> exact agrees_comm _ _

/-- Every head is taken for itself. -/
theorem equates_self (head : Head) : head.equates head = true := by
  cases head with
  | generic name => rfl
  | unresolved name => exact beq_self_eq_true (some name)
  | void => rfl
  | enum name | group name | builtin kind | struct name => exact beq_self_eq_true _

end Head

namespace Ty

/-- Types are equal if their heads are taken for one another and their arguments are pairwise equal. -/
theorem equals_iff {first second : Ty} :
    first.equals second = true ↔
      first.head.equates second.head = true ∧ allEqual first.args second.args = true := by
  cases first with
  | atom shape nullable =>
    rw [equals, Bool.and_eq_true, head, args]
    cases second.args <;> simp [allEqual]
  | app ctor args nullable => rw [equals, Bool.and_eq_true, head, Ty.args]

/-! ## Reflexivity -/

mutual

/-- **Equality is reflexive**, at any depth. -/
theorem equals_self (ty : Ty) : ty.equals ty = true := by
  cases ty with
  | atom shape nullable => simp only [equals, head, args, Head.equates_self, List.isEmpty_nil, Bool.and_self]
  | app ctor args nullable =>
    simp only [equals, head, Ty.args, Head.equates_self, allEqual_self args, Bool.and_self]

/-- So is that of lists. -/
theorem allEqual_self (types : List Ty) : allEqual types types = true := by
  cases types with
  | nil => simp only [allEqual]
  | cons ty rest => simp only [allEqual, equals_self ty, allEqual_self rest, Bool.and_self]

end

/-! ## Symmetry -/

/-- No types equal no types only. -/
theorem allEqual_nil_right (types : List Ty) : allEqual types [] = types.isEmpty := by
  cases types <;> simp only [allEqual, List.isEmpty_nil, List.isEmpty_cons]

mutual

/-- **Equality of types is symmetric.** -/
theorem equals_comm (first second : Ty) : first.equals second = second.equals first := by
  cases first with
  | atom shape _ =>
    cases second with
    | atom other _ =>
      simp only [equals, head, args, List.isEmpty_nil, Bool.and_true]
      exact Head.equates_comm _ _
    | app ctor args _ =>
      simp only [equals, head, Ty.args, allEqual_nil_right]
      rw [Head.equates_comm]
  | app ctor args _ =>
    cases second with
    | atom shape _ =>
      simp only [equals, head, Ty.args, allEqual_nil_right]
      rw [Head.equates_comm]
    | app other others _ =>
      simp only [equals, head, Ty.args]
      rw [Head.equates_comm, allEqual_comm args others]

/-- Pairwise equality is symmetric. -/
theorem allEqual_comm (types others : List Ty) : allEqual types others = allEqual others types := by
  cases types with
  | nil => cases others <;> simp only [allEqual]
  | cons ty rest =>
    cases others with
    | nil => simp only [allEqual]
    | cons other others =>
      simp only [allEqual]
      rw [equals_comm ty other, allEqual_comm rest others]

end

/-! ## Nullability -/

@[simp] theorem head_withNullable (nullable : Bool) (ty : Ty) :
    (ty.withNullable nullable).head = ty.head := by
  cases ty <;> rfl

@[simp] theorem nullable_withNullable (nullable : Bool) (ty : Ty) :
    (ty.withNullable nullable).nullable = nullable := by
  cases ty <;> rfl

/-- Nullability that is set twice is what was set last. -/
theorem withNullable_withNullable (ty : Ty) (nullable other : Bool) :
    (ty.withNullable nullable).withNullable other = ty.withNullable other := by
  cases ty <;> rfl

/-- **Nullability takes no part in equality.** -/
theorem equals_withNullable (first second : Ty) (nullable other : Bool) :
    (first.withNullable nullable).equals (second.withNullable other) = first.equals second := by
  cases first <;> cases second <;> simp only [withNullable, equals, head, args]

end Ty

end DeclCheck
