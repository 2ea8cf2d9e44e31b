import DeclCheck.Proofs.Dict
import DeclCheck.Proofs.Steps
import DeclCheck.Resolution
import DeclCheck.Ty.Substitution

/-!
# The constructors in a type

A type is *built from* allowed constructors if every constructor anywhere in it is allowed. Nothing that the checker
does with types brings in other constructors: neither binding placeholders nor replacing them, nor taking a type
apart. Resolution brings in what written names mean, and takes the written names out.
-/

namespace DeclCheck

namespace Ty

mutual

/-- **Whether all constructors in a type are allowed.** -/
def BuiltFrom (allowed : Ctor → Prop) : Ty → Prop
  | .atom _ _ => True
  | .app ctor args _ => allowed ctor ∧ AllBuiltFrom allowed args

/-- Whether all constructors in several types are allowed. -/
def AllBuiltFrom (allowed : Ctor → Prop) : List Ty → Prop
  | [] => True
  | ty :: rest => ty.BuiltFrom allowed ∧ AllBuiltFrom allowed rest

end

variable {allowed more : Ctor → Prop}

/-- Several types are built from constructors if each of them is. -/
theorem allBuiltFrom_iff {types : List Ty} :
    AllBuiltFrom allowed types ↔ ∀ ty ∈ types, ty.BuiltFrom allowed := by
  induction types with
  | nil => simp [AllBuiltFrom]
  | cons ty rest ih => simp [AllBuiltFrom, ih]

/-- Nullability is no constructor. -/
@[simp] theorem builtFrom_withNullable (ty : Ty) (nullable : Bool) :
    (ty.withNullable nullable).BuiltFrom allowed ↔ ty.BuiltFrom allowed := by
  cases ty with
  | atom shape flag => exact Iff.rfl
  | app ctor args flag => exact Iff.rfl

/-- The arguments of a type are built from what it is built from. -/
theorem BuiltFrom.args {ty : Ty} (built : ty.BuiltFrom allowed) : ∀ arg ∈ ty.args, arg.BuiltFrom allowed := by
  cases ty with
  | atom shape nullable =>
    intro arg mem
    cases mem
  | app ctor args nullable => exact allBuiltFrom_iff.mp built.2

mutual

/-- Where all constructors are allowed, all types are. -/
theorem BuiltFrom.of_forall (all : ∀ ctor, allowed ctor) : ∀ {ty : Ty}, ty.BuiltFrom allowed
  | .atom _ _ => trivial
  | .app ctor _ _ => ⟨all ctor, AllBuiltFrom.of_forall all⟩

theorem AllBuiltFrom.of_forall (all : ∀ ctor, allowed ctor) : ∀ {types : List Ty}, AllBuiltFrom allowed types
  | [] => trivial
  | _ :: _ => ⟨BuiltFrom.of_forall all, AllBuiltFrom.of_forall all⟩

end

mutual

/-- Where more are allowed, a type is still built from them. -/
theorem BuiltFrom.mono (wider : ∀ ctor, allowed ctor → more ctor) :
    ∀ {ty : Ty}, ty.BuiltFrom allowed → ty.BuiltFrom more
  | .atom _ _, _ => trivial
  | .app ctor _ _, built => ⟨wider ctor built.1, AllBuiltFrom.mono wider built.2⟩

theorem AllBuiltFrom.mono (wider : ∀ ctor, allowed ctor → more ctor) :
    ∀ {types : List Ty}, AllBuiltFrom allowed types → AllBuiltFrom more types
  | [], _ => trivial
  | _ :: _, built => ⟨BuiltFrom.mono wider built.1, AllBuiltFrom.mono wider built.2⟩

end

end Ty

/-- Whether all placeholders are bound to types built from allowed constructors. -/
def Bindings.BuiltFrom (allowed : Ctor → Prop) (bindings : Bindings) : Prop :=
  bindings.Every fun _ ty => ty.BuiltFrom allowed

namespace Bindings

variable {allowed : Ctor → Prop}

theorem builtFrom_empty : Bindings.BuiltFrom allowed .empty := Dict.every_empty _

/-- Bindings may be extended by types that are built from what is allowed. -/
theorem BuiltFrom.insert {bindings : Bindings} (bound : bindings.BuiltFrom allowed) (name : String) {ty : Ty}
    (built : ty.BuiltFrom allowed) : Bindings.BuiltFrom allowed (bindings.insert name ty) :=
  Dict.Every.insert bound built

end Bindings

namespace Ty

variable {allowed : Ctor → Prop}

mutual

/-- **Placeholders are bound to parts of the actual type.** -/
theorem builtFrom_bind : ∀ (declared : Ty) {bindings : Bindings} {actual : Ty},
    bindings.BuiltFrom allowed → actual.BuiltFrom allowed →
    Bindings.BuiltFrom allowed (declared.bind bindings actual)
  | .atom (.generic name _) _, _, actual, bound, built =>
    bound.insert name ((builtFrom_withNullable actual false).mpr built)
  | .atom .void _, _, _, bound, _ => bound
  | .atom (.enum _) _, _, _, bound, _ => bound
  | .atom (.group _) _, _, _, bound, _ => bound
  | .app _ args _, _, _, bound, built => builtFrom_bindAll args bound built.args

/-- Binding placeholders of several types keeps all that is bound so. -/
theorem builtFrom_bindAll : ∀ (declared : List Ty) {bindings : Bindings} {actuals : List Ty},
    bindings.BuiltFrom allowed → (∀ actual ∈ actuals, actual.BuiltFrom allowed) →
    Bindings.BuiltFrom allowed (bindAll bindings declared actuals)
  | [], _, [], bound, _ => bound
  | [], _, _ :: _, bound, _ => bound
  | _ :: _, _, [], bound, _ => bound
  | ty :: rest, _, actual :: _, bound, built =>
    builtFrom_bindAll rest (builtFrom_bind ty bound (built actual List.mem_cons_self))
      fun other mem => built other (List.mem_cons_of_mem _ mem)

end

mutual

/-- **Replacing placeholders brings in the constructors that they are bound to.** -/
theorem BuiltFrom.substitute {bindings : Bindings} (bound : bindings.BuiltFrom allowed) :
    ∀ {ty : Ty}, ty.BuiltFrom allowed → (ty.substitute bindings).BuiltFrom allowed
  | .atom (.generic name location) nullable, _ => by
    rw [Ty.substitute]
    split
    · rename_i ty found
      rw [builtFrom_withNullable]
      exact Dict.Every.of_find? bound found
    · trivial
  | .atom .void _, _ => trivial
  | .atom (.enum _) _, _ => trivial
  | .atom (.group _) _, _ => trivial
  | .app _ _ _, built => ⟨built.1, AllBuiltFrom.substitute bound built.2⟩

/-- Substitution puts in nothing else. -/
theorem AllBuiltFrom.substitute {bindings : Bindings} (bound : bindings.BuiltFrom allowed) :
    ∀ {types : List Ty}, AllBuiltFrom allowed types → AllBuiltFrom allowed (substituteAll bindings types)
  | [], _ => trivial
  | _ :: _, built => ⟨BuiltFrom.substitute bound built.1, AllBuiltFrom.substitute bound built.2⟩

end

end Ty

/-! ## Resolution -/

/-- Whether the constructor of a meaning is allowed, if it has one. -/
def Meaning.Allowed (allowed : Ctor → Prop) : Meaning → Prop
  | builtin kind => allowed (.builtin kind)
  | struct name => allowed (.struct name)
  | enum _ | group _ => True

/-- What a name means is built from what it stands for and from its arguments. -/
theorem Meaning.builtFrom_applied {allowed : Ctor → Prop} {args : List Ty} {meaning : Meaning}
    (own : meaning.Allowed allowed) (built : Ty.AllBuiltFrom allowed args) (nullable : Bool) :
    (meaning.applied args nullable).BuiltFrom allowed := by
  cases meaning with
  | builtin kind => exact ⟨own, built⟩
  | struct name => exact ⟨own, built⟩
  | enum name => trivial
  | group name => trivial

namespace TypeTable

variable {types : TypeTable} {generics : List String} {allowed : Ctor → Prop}

mutual

/-- **A resolved type is built from what written names mean**, and from constructors that were resolved before. -/
theorem builtFrom_resolve
    (meant : ∀ {name meaning}, types.meaning? name = some meaning → meaning.Allowed allowed) :
    ∀ (written : Ty) {ty : Ty}, written.BuiltFrom (fun ctor => ctor.isResolved = true → allowed ctor) →
      types.resolve generics written = .ok ty → ty.BuiltFrom allowed
  | .atom (.generic name location) nullable, ty, _, resolved => by
    rw [resolve] at resolved
    split at resolved
    · cases resolved
      trivial
    · cases resolved
  | .atom .void _, _, _, resolved => by cases resolved; trivial
  | .atom (.enum _) _, _, _, resolved => by cases resolved; trivial
  | .atom (.group _) _, _, _, resolved => by cases resolved; trivial
  | .app (.unresolved name location) args nullable, ty, source, resolved => by
    rw [resolve] at resolved
    split at resolved
    · cases resolved
      trivial
    · obtain ⟨found, resolving, next⟩ := bind_eq_ok.mp resolved
      split at next
      · cases next
      · rename_i meaning found
        obtain ⟨_, checked, made⟩ := bind_eq_ok.mp next
        cases made
        exact Meaning.builtFrom_applied (meant found) (builtFrom_resolveAll meant args source.2 resolving) _
  | .app (.builtin kind) args nullable, ty, source, resolved => by
    obtain ⟨found, resolving, made⟩ := bind_eq_ok.mp resolved
    cases made
    exact ⟨source.1 rfl, builtFrom_resolveAll meant args source.2 resolving⟩
  | .app (.struct name) args nullable, ty, source, resolved => by
    obtain ⟨found, resolving, made⟩ := bind_eq_ok.mp resolved
    cases made
    exact ⟨source.1 rfl, builtFrom_resolveAll meant args source.2 resolving⟩

/-- Several resolved types are built from what names mean. -/
theorem builtFrom_resolveAll
    (meant : ∀ {name meaning}, types.meaning? name = some meaning → meaning.Allowed allowed) :
    ∀ (written : List Ty) {found : List Ty},
      Ty.AllBuiltFrom (fun ctor => ctor.isResolved = true → allowed ctor) written →
      types.resolveAll generics written = .ok found → Ty.AllBuiltFrom allowed found
  | [], _, _, resolved => by cases resolved; trivial
  | ty :: rest, _, source, resolved => by
    obtain ⟨first, resolving, next⟩ := bind_eq_ok.mp resolved
    obtain ⟨others, resolvingRest, made⟩ := bind_eq_ok.mp next
    cases made
    exact ⟨builtFrom_resolve meant ty source.1 resolving,
      builtFrom_resolveAll meant rest source.2 resolvingRest⟩

end

end TypeTable

end DeclCheck
