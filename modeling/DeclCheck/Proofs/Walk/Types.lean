import DeclCheck.Proofs.Literal
import DeclCheck.Proofs.Overloading.Choice
import DeclCheck.Proofs.Ty.BuiltFrom

/-!
# The types that calls, literals and accesses make

A call, a struct literal or a member access makes a type from the types of its parts and from a declaration. It is
built from the constructors of these, and of nothing else.
-/

namespace DeclCheck

variable {allowed : Ctor → Prop}

/-! ## Bindings -/

/-- Arguments bind placeholders to types built from what theirs are built from. -/
theorem Overloading.builtFrom_bindings (decl : FunctionDecl) {actuals : List Ty}
    (built : ∀ actual ∈ actuals, actual.BuiltFrom allowed) :
    Bindings.BuiltFrom allowed (bindings decl actuals) := by
  refine List.foldlRecOn _ _ Bindings.builtFrom_empty fun bound known pair mem => ?_
  have second : pair.2 ∈ actuals := (List.of_mem_zip (List.mem_reverse.mp mem)).2
  exact Ty.builtFrom_bind pair.1 known (built pair.2 second)

/-- So do written arguments. -/
theorem builtFrom_bindPairs {names : List String} {args : List Ty}
    (built : ∀ arg ∈ args, arg.BuiltFrom allowed) :
    Bindings.BuiltFrom allowed (bindPairs (names.zip args)) := by
  refine List.foldlRecOn _ _ Bindings.builtFrom_empty fun bound known pair mem => ?_
  exact known.insert pair.1 (built _ (List.of_mem_zip mem).2)

/-- Of two bindings both are built so, if each is. -/
theorem builtFrom_bindMissing {bindings found : Bindings} (known : bindings.BuiltFrom allowed)
    (new : found.BuiltFrom allowed) : Bindings.BuiltFrom allowed (bindMissing bindings found) := by
  refine List.foldlRecOn _ _ known fun bound held pair mem => ?_
  exact Dict.Every.insertNew held (new pair mem)

/-! ## Struct literals and members -/

namespace Literal

variable {env : Env} {literal next : Literal} {location : Location} {ty : Ty}

/-- A value that is accepted binds placeholders to parts of its type. -/
theorem builtFrom_accept {declared : Member} {actual : Ty} (known : literal.bindings.BuiltFrom allowed)
    (built : actual.BuiltFrom allowed) (accepted : literal.accept env declared actual location = .ok next) :
    next.bindings.BuiltFrom allowed := by
  obtain ⟨-, rfl⟩ := accept_eq_ok accepted
  show Bindings.BuiltFrom allowed (literal.bindingsAfter declared actual)
  unfold bindingsAfter
  split
  · exact known
  · exact builtFrom_bindMissing known (Ty.builtFrom_bind declared.ty Bindings.builtFrom_empty built)

/-- **The type of a literal** is built from its struct and what its placeholders are bound to. -/
theorem builtFrom_finish (known : literal.bindings.BuiltFrom allowed) (own : allowed (.struct literal.name))
    (finished : literal.finish location = .ok ty) : ty.BuiltFrom allowed := by
  obtain ⟨args, bound, rfl⟩ := finish_eq_ok finished
  have named := boundArgs_eq_ok bound
  refine ⟨own, Ty.allBuiltFrom_iff.mpr fun arg mem => ?_⟩
  have listed : some arg ∈ literal.decl.genericNames.map literal.bindings.find? :=
    named ▸ List.mem_map.mpr ⟨arg, mem, rfl⟩
  obtain ⟨name, -, found⟩ := List.mem_map.mp listed
  exact Dict.Every.of_find? known found

end Literal

/-- **The type of a member** is built from its declared type and the arguments of the struct type. -/
theorem builtFrom_memberType {env : Env} {subject ty : Ty} {location : Location} {key : Ident}
    (members : ∀ {name decl member}, env.types.structs.find? name = some decl → member ∈ decl.members →
      member.ty.BuiltFrom allowed)
    (built : subject.BuiltFrom allowed) (found : memberType env subject location key = .ok ty) :
    ty.BuiltFrom allowed := by
  obtain ⟨name, args, nullable, decl, declared, rfl, listed, member, rfl⟩ := memberType_eq_ok found
  refine Ty.BuiltFrom.substitute (builtFrom_bindPairs (Ty.allBuiltFrom_iff.mp built.2)) ?_
  exact members listed (List.mem_of_find?_eq_some member)

end DeclCheck
