import DeclCheck.Proofs.Overloading.Declared
import DeclCheck.Proofs.Restrictions.Members

/-!
# What a restriction means to the overloads made from a function

The restriction of a placeholder is looked at once: when a call binds the placeholder to a type. From then on the
type stands in the place of the placeholder, in the overload that the call leaves and in all that are made from it.
So at every place where the function has the placeholder itself, an overload made from it has the placeholder still,
with its restriction, or a member of the group.
-/

namespace DeclCheck

/-! ## Binding and replacing -/

/-- Whether no placeholder is bound to a nullable type. -/
def Bindings.Plain (bindings : Bindings) : Prop := bindings.Every fun _ ty => ty.nullable = false

namespace Ty

mutual

/-- What a placeholder is bound to is not nullable. -/
theorem plain_bind : ∀ (declared : Ty) {bindings : Bindings} {actual : Ty}, bindings.Plain →
    Bindings.Plain (declared.bind bindings actual)
  | .atom (.generic _ _) _, _, _, plain => Dict.Every.insert plain (nullable_withNullable _ _)
  | .atom .void _, _, _, plain => plain
  | .atom (.enum _) _, _, _, plain => plain
  | .atom (.group _) _, _, _, plain => plain
  | .app _ args _, _, _, plain => plain_bindAll args plain

/-- Binding several types keeps all that is bound from admitting `nil`. -/
theorem plain_bindAll : ∀ (declared : List Ty) {bindings : Bindings} {actuals : List Ty}, bindings.Plain →
    Bindings.Plain (bindAll bindings declared actuals)
  | [], _, [], plain => plain
  | [], _, _ :: _, plain => plain
  | _ :: _, _, [], plain => plain
  | ty :: rest, _, _ :: _, plain => plain_bindAll rest (plain_bind ty plain)

end

/-- A bound placeholder is replaced by what it is bound to. -/
theorem substitute_generic {bindings : Bindings} {name : String} {bound : Ty} (plain : bindings.Plain)
    (found : bindings.find? name = some bound) (location : Location) :
    (Ty.atom (.generic name location) false).substitute bindings = bound := by
  have own : bound.nullable = false := plain.of_find? found
  rw [substitute, found]
  dsimp only
  rw [own, Bool.or_false]
  cases bound with
  | atom shape nullable => exact congrArg (Ty.atom shape) own.symm
  | app ctor args nullable => exact congrArg (Ty.app ctor args) own.symm

end Ty

/-- So no placeholder of a call is bound to a nullable type. -/
theorem Overloading.plain_bindings (decl : FunctionDecl) (actuals : List Ty) : (bindings decl actuals).Plain :=
  List.foldlRecOn _ _ (Dict.every_empty _) fun _ plain pair _ => Ty.plain_bind pair.1 plain

/-- A specialisation violates no restriction. -/
theorem Overloading.violates_eq_false {lattice : Lattice} {candidate decl : FunctionDecl} {actuals : List Ty}
    (specialised : specialise lattice candidate actuals = .ok decl) {generic : GenericParam}
    (listed : generic ∈ candidate.generics) : violates lattice (bindings candidate actuals) generic = false := by
  simp only [specialise] at specialised
  split at specialised
  · cases specialised
  · rename_i none
    exact Bool.eq_false_iff.mpr (List.find?_eq_none.mp none generic listed)

/-! ## Restrictions -/

namespace FunctionDecl

/-- **Whether the parameter at a position is a placeholder restricted to a group**, and nothing else. -/
structure Restricts (function : FunctionDecl) (generic : GenericParam) (group : String) (position : Nat) :
    Prop where
  listed : generic ∈ function.generics
  restricted : ∃ nullable, generic.constraint = some (.atom (.group group) nullable)
  exactly : ∃ location, function.paramTypes[position]? = some (.atom (.generic generic.name.name location) false)

/-- **Whether an overload has, at the place of each restricted placeholder of a function, that placeholder or a member
of the group.** -/
def Meets (lattice : Lattice) (function overload : FunctionDecl) : Prop :=
  ∀ generic group position, function.Restricts generic group position →
    overload.Restricts generic group position ∨
      ∃ ty, overload.paramTypes[position]? = some ty ∧ ty.nullable = false ∧ lattice.HasMember group ty

variable {lattice after : Lattice} {function overload made : FunctionDecl}

theorem Meets.refl (lattice : Lattice) (function : FunctionDecl) : Meets lattice function function :=
  fun _ _ _ restricts => Or.inl restricts

/-- Restrictions that are met stay met while the lattice grows. -/
theorem Meets.of_grown (resolved : lattice.Resolved) (resolvedAfter : after.Resolved)
    (grown : lattice.nodes <+: after.nodes) (meets : Meets lattice function overload) :
    Meets after function overload := by
  intro generic group position restricts
  rcases meets generic group position restricts with still | ⟨ty, there, plain, member⟩
  · exact Or.inl still
  · exact Or.inr ⟨ty, there, plain, member.of_grown resolved resolvedAfter grown⟩

/-- Substitution changes the type of each parameter in its place. -/
theorem getElem?_paramTypes_substituted (decl : FunctionDecl) (bindings : Bindings) (position : Nat) :
    (Overloading.substituted decl bindings).paramTypes[position]? =
      (decl.paramTypes[position]?).map (Ty.substitute bindings) := by
  simp only [Overloading.substituted, paramTypes, List.map_map, List.getElem?_map, Option.map_map]
  rfl

/-- **A specialisation has a member where it had a restricted placeholder**, or the placeholder still if no argument
has bound it. -/
theorem Restricts.specialise {actuals : List Ty} {generic : GenericParam} {group : String} {position : Nat}
    (restricts : overload.Restricts generic group position)
    (special : Overloading.specialise lattice overload actuals = .ok made) :
    made.Restricts generic group position ∨
      ∃ ty, made.paramTypes[position]? = some ty ∧ ty.nullable = false ∧ lattice.HasMember group ty := by
  obtain ⟨listed, ⟨nullable, restricted⟩, location, exactly⟩ := restricts
  have kept := Overloading.violates_eq_false special listed
  rw [Overloading.specialise_eq_ok special]
  have type := getElem?_paramTypes_substituted overload (Overloading.bindings overload actuals) position
  rw [exactly, Option.map_some] at type
  have plain := Overloading.plain_bindings overload actuals
  cases found : (Overloading.bindings overload actuals).find? generic.name.name with
  | none =>
    rw [Ty.substitute, found] at type
    refine Or.inl ⟨List.mem_filter.mpr ⟨listed, ?_⟩, ⟨nullable, restricted⟩, location, type⟩
    simp only [Dict.contains, found, Option.isSome_none, Bool.not_false]
  | some bound =>
    rw [Ty.substitute_generic plain found] at type
    simp only [Overloading.violates, restricted, found, ← Option.not_isSome, Bool.not_eq_false'] at kept
    exact Or.inr ⟨bound, type, plain.of_find? found, (Lattice.hasMember_iff_distance nullable).mpr kept⟩

/-- **A specialisation meets the restrictions of the function that it comes from.** -/
theorem Meets.specialise (meant : lattice.Meant) {actuals : List Ty} (meets : Meets lattice function overload)
    (special : Overloading.specialise lattice overload actuals = .ok made) : Meets lattice function made := by
  intro generic group position restricts
  rcases meets generic group position restricts with still | ⟨ty, there, plain, member⟩
  · exact still.specialise special
  · have type := getElem?_paramTypes_substituted overload (Overloading.bindings overload actuals) position
    rw [there, Option.map_some, ← Overloading.specialise_eq_ok special] at type
    obtain ⟨head, nullable, args⟩ := Ty.substitute_frame (member.isGeneric_eq_false meant)
      (Overloading.bindings overload actuals)
    exact Or.inr ⟨_, type, nullable.trans plain, member.of_head meant.resolved head args⟩

end FunctionDecl

end DeclCheck
