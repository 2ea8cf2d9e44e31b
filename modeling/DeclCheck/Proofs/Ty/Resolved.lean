import DeclCheck.Proofs.Ty.BuiltFrom

/-!
# Where no written name is left

A type is resolved if it is built from resolved constructors. So resolution leaves no written name anywhere in a
type, and nothing that the checker does with resolved types brings one back.
-/

namespace DeclCheck

namespace Ty

mutual

/-- **A type is resolved exactly if it is built from resolved constructors.** -/
theorem isResolved_iff : ∀ {ty : Ty}, ty.isResolved = true ↔ ty.BuiltFrom (·.isResolved = true)
  | .atom _ _ => by simp [isResolved, BuiltFrom]
  | .app _ args _ => by simp [isResolved, BuiltFrom, @allResolved_iff_builtFrom args]

theorem allResolved_iff_builtFrom :
    ∀ {types : List Ty}, allResolved types = true ↔ AllBuiltFrom (·.isResolved = true) types
  | [] => by simp [allResolved, AllBuiltFrom]
  | ty :: rest => by
    simp [allResolved, AllBuiltFrom, @isResolved_iff ty, @allResolved_iff_builtFrom rest]

end

/-- Several types are resolved if each of them is. -/
theorem allResolved_iff {types : List Ty} :
    allResolved types = true ↔ ∀ ty ∈ types, ty.isResolved = true := by
  simp only [allResolved_iff_builtFrom, allBuiltFrom_iff, isResolved_iff]

/-- The arguments of a resolved type are resolved. -/
theorem isResolved_args {ty : Ty} (resolved : ty.isResolved = true) :
    ∀ arg ∈ ty.args, arg.isResolved = true :=
  fun arg mem => isResolved_iff.mpr ((isResolved_iff.mp resolved).args arg mem)

end Ty

/-- Whether all placeholders are bound to resolved types. -/
def Bindings.Resolved (bindings : Bindings) : Prop :=
  bindings.Every fun _ ty => ty.isResolved = true

/-- The same for what placeholders are bound to. -/
theorem Bindings.resolved_iff {bindings : Bindings} :
    bindings.Resolved ↔ bindings.BuiltFrom (·.isResolved = true) := by
  simp only [Bindings.Resolved, Bindings.BuiltFrom, Dict.Every, Ty.isResolved_iff]

/-- **Replacing placeholders by resolved types leaves a resolved type resolved.** -/
theorem Ty.isResolved_substitute {bindings : Bindings} (bound : bindings.Resolved) (ty : Ty)
    (resolved : ty.isResolved = true) : (ty.substitute bindings).isResolved = true :=
  isResolved_iff.mpr (BuiltFrom.substitute (Bindings.resolved_iff.mp bound) (isResolved_iff.mp resolved))

namespace TypeTable

variable {types : TypeTable} {generics : List String}

/-- Meanings have resolved constructors. -/
theorem allowed_of_meaning {meaning : Meaning} : meaning.Allowed (·.isResolved = true) := by
  cases meaning with
  | builtin kind => rfl
  | struct name => rfl
  | enum name => trivial
  | group name => trivial

/-- As many types are resolved as were written. -/
theorem length_resolveAll {written args : List Ty} (resolved : types.resolveAll generics written = .ok args) :
    args.length = written.length := by
  induction written generalizing args with
  | nil =>
    cases resolved
    rfl
  | cons ty rest ih =>
    obtain ⟨first, -, next⟩ := bind_eq_ok.mp resolved
    obtain ⟨others, later, made⟩ := bind_eq_ok.mp next
    cases made
    rw [List.length_cons, List.length_cons, ih later]

/-- **A type that is resolved has no written name left.** -/
theorem isResolved_of_resolve (written : Ty) {ty : Ty} (resolved : types.resolve generics written = .ok ty) :
    ty.isResolved = true :=
  Ty.isResolved_iff.mpr
    (builtFrom_resolve (fun _ => allowed_of_meaning) written (.of_forall fun _ own => own) resolved)

/-- What several types are resolved to is resolved. -/
theorem allResolved_of_resolveAll (written : List Ty) {found : List Ty}
    (resolved : types.resolveAll generics written = .ok found) : Ty.allResolved found = true :=
  Ty.allResolved_iff_builtFrom.mpr
    (builtFrom_resolveAll (fun _ => allowed_of_meaning) written (.of_forall fun _ own => own) resolved)

end TypeTable

end DeclCheck
