import DeclCheck.Proofs.Resolution.Spelling

/-!
# What is at fault where resolution fails

Resolution stops at the first name that it refuses. That name is a part of the written type whose own arguments were
all resolved, so the refusal is its own: it has no meaning, or it means a struct that takes another number of
arguments.
-/

namespace DeclCheck

namespace TypeTable

/-- **Whether a part of a written type is at fault for an error**: it is refused with it, although all its arguments
are resolved. -/
structure FaultAt (types : TypeTable) (generics : List String) (written : Ty) (path : List Nat) (part : Ty)
    (error : Error) : Prop where
  found : written.part? path = some part
  refused : types.resolve generics part = .error error
  arguments : ∀ arg ∈ part.args, ∃ ty, types.resolve generics arg = .ok ty

variable {types : TypeTable} {generics : List String} {error : Error}

/-- A fault in an argument is one of the type, a step farther down. -/
theorem FaultAt.below {ty arg part : Ty} {position : Nat} {path : List Nat}
    (fault : types.FaultAt generics arg path part error) (given : ty.args[position]? = some arg) :
    types.FaultAt generics ty (position :: path) part error :=
  ⟨(Ty.part?_cons_of_getElem? given path).trans fault.found, fault.refused, fault.arguments⟩

/-- Where each argument can be resolved, all can. -/
theorem exists_resolveAll {args : List Ty} (each : ∀ arg ∈ args, ∃ ty, types.resolve generics arg = .ok ty) :
    ∃ found, types.resolveAll generics args = .ok found := by
  induction args with
  | nil => exact ⟨[], rfl⟩
  | cons arg rest ih =>
    obtain ⟨ty, first⟩ := each arg List.mem_cons_self
    obtain ⟨others, later⟩ := ih fun other mem => each other (List.mem_cons_of_mem _ mem)
    exact ⟨ty :: others, bind_eq_ok.mpr ⟨ty, first, bind_eq_ok.mpr ⟨others, later, rfl⟩⟩⟩

/-- Where all can be resolved, each can. -/
theorem exists_resolve_of_resolveAll {args found : List Ty} (resolved : types.resolveAll generics args = .ok found) :
    ∀ arg ∈ args, ∃ ty, types.resolve generics arg = .ok ty := by
  intro arg listed
  obtain ⟨position, given⟩ := List.getElem?_of_mem listed
  rcases getElem?_of_resolveAll resolved position with ⟨absent, -⟩ | ⟨source, ty, same, -, inner⟩
  · rw [given] at absent
    cases absent
  · rw [given] at same
    cases same
    exact ⟨ty, inner⟩

/-- A type whose arguments are refused is refused with the same error. -/
theorem error_of_resolveAll {ctor : Ctor} {args : List Ty} {nullable : Bool} {other : Error}
    (refused : types.resolve generics (.app ctor args nullable) = .error error)
    (inside : types.resolveAll generics args = .error other) : other = error := by
  cases ctor with
  | builtin | struct =>
    rcases bind_eq_error.mp refused with same | ⟨_, resolved, -⟩
    · exact Except.error.inj (inside.symm.trans same)
    · cases inside.symm.trans resolved
  | unresolved name location =>
    rw [resolve] at refused
    split at refused
    · cases refused
    · rw [inside] at refused
      exact Except.error.inj refused

mutual

/-- **In a type that is refused some part is at fault.** -/
theorem exists_faultAt : ∀ (written : Ty) {error : Error}, types.resolve generics written = .error error →
    ∃ path part, types.FaultAt generics written path part error
  | .atom shape nullable, _, refused => ⟨[], .atom shape nullable, rfl, refused, fun _ mem => nomatch mem⟩
  | .app ctor args nullable, error, refused => by
    cases resolving : types.resolveAll generics args with
    | ok found => exact ⟨[], _, rfl, refused, exists_resolve_of_resolveAll resolving⟩
    | error other =>
      obtain rfl := error_of_resolveAll refused resolving
      obtain ⟨position, arg, path, part, given, fault⟩ := exists_faultAt_of_resolveAll args resolving
      exact ⟨position :: path, part, fault.below given⟩

/-- A failure for several types comes from a fault in one of them. -/
theorem exists_faultAt_of_resolveAll : ∀ (args : List Ty) {error : Error},
    types.resolveAll generics args = .error error →
    ∃ (position : Nat) (arg : Ty) (path : List Nat) (part : Ty), args[position]? = some arg ∧
      types.FaultAt generics arg path part error
  | [], _, refused => by cases refused
  | ty :: rest, error, refused => by
    rcases bind_eq_error.mp refused with first | ⟨_, -, later⟩
    · obtain ⟨path, part, fault⟩ := exists_faultAt ty first
      exact ⟨0, ty, path, part, rfl, fault⟩
    · rcases bind_eq_error.mp later with inRest | ⟨_, -, made⟩
      · obtain ⟨position, arg, path, part, given, fault⟩ := exists_faultAt_of_resolveAll rest inRest
        exact ⟨position + 1, arg, path, part, given, fault⟩
      · cases made

end

/-- A refusal of arguments names both numbers of them. -/
theorem exists_count_of_checkTypeArguments {ty : Ty} {location : Location}
    (refused : types.checkTypeArguments ty location = .error error) :
    ∃ own expected actual, error = .found (.typeArgumentCount own expected actual) location := by
  unfold checkTypeArguments at refused
  split at refused
  · split at refused
    · cases refused
    · split at refused
      · cases refused
      · exact ⟨_, _, _, (Except.error.inj refused).symm⟩
  · cases refused

/-- **What is wrong with a written name that is at fault**: it has no meaning, or it means a struct that takes another
number of arguments. -/
theorem refusal_of_arguments {name : String} {location : Location} {args : List Ty} {nullable : Bool}
    (refused : types.resolve generics (.app (.unresolved name location) args nullable) = .error error)
    (arguments : ∀ arg ∈ args, ∃ ty, types.resolve generics arg = .ok ty) :
    error = .found (types.undefinedName generics name) location ∨
      ∃ own expected actual, error = .found (.typeArgumentCount own expected actual) location := by
  obtain ⟨found, resolving⟩ := exists_resolveAll arguments
  rw [resolve] at refused
  split at refused
  · cases refused
  · rcases bind_eq_error.mp refused with inside | ⟨_, -, next⟩
    · cases resolving.symm.trans inside
    · split at next
      · exact Or.inl (Except.error.inj next).symm
      · rcases bind_eq_error.mp next with count | ⟨_, -, made⟩
        · exact Or.inr (exists_count_of_checkTypeArguments count)
        · cases made

end TypeTable

end DeclCheck
