import DeclCheck.Lattice

/-!
# Conformity

Two questions are asked about a value's type and the type expected of it: whether the value may be used
there at all, and at what cost when overloads compete for a call. Assignments and members ask the
first question, arguments the second.
-/

namespace DeclCheck

namespace Lattice

/-- Whether one of two types is that of `nil` and the other admits `nil`. -/
def meetsAtNil (actual expected : Ty) : Bool :=
  (actual.isNil && expected.nullable) || (expected.isNil && actual.nullable)

/-- **Whether a value of one type may be used where another is expected.** -/
def isSubtype (lattice : Lattice) (actual expected : Ty) : Bool :=
  actual.equals expected || expected.isAny || meetsAtNil actual expected ||
    (lattice.distance actual expected).isSome

/-- The cost from which on an argument disqualifies an overload. -/
def unrelatedCost : Nat := 99

/-- The cost of an argument that reaches `Any` outside the lattice. -/
def anyCost : Nat := 50

/-- The cost of passing `nil` to a nullable parameter, or a nullable value to `Nil`. -/
def nilCost : Nat := 1

/-- **The cost of passing an argument where a type is declared.** -/
def cost (lattice : Lattice) (actual declared : Ty) : Nat :=
  if actual.equals declared then 0
  else if meetsAtNil actual declared then nilCost
  else
    match lattice.distance actual declared with
    | some hops => hops
    | none => if declared.isAny then anyCost else unrelatedCost

end Lattice

end DeclCheck
