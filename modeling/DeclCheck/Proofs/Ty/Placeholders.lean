import DeclCheck.Proofs.Ty.Resolved
import Mathlib.Data.List.Basic

/-!
# The placeholders that a type mentions

Where the placeholder names of a type come from, for each way in which the checker makes one type of others. A
resolved type mentions names of its declaration only. What placeholders are bound to mentions no more than the
actual type does. And replacing placeholders brings in what they are bound to, and leaves the names that are not
bound.
-/

namespace DeclCheck

/-- A name that is added is there, and no other is new. -/
theorem mem_addName {names : List String} {name own : String} :
    name ∈ addName names own ↔ name ∈ names ∨ name = own := by
  unfold addName
  split
  · rename_i there
    constructor
    · exact Or.inl
    · rintro (old | rfl)
      · exact old
      · exact there
  · rw [List.mem_append, List.mem_singleton]

namespace Ty

/-! ## Names, constructor by constructor -/

mutual

/-- **Collecting from a type adds its own placeholders**, and no others. -/
theorem mem_addGenericNames {name : String} : ∀ (ty : Ty) (names : List String),
    name ∈ ty.addGenericNames names ↔ name ∈ names ∨ name ∈ ty.genericNames
  | .atom (.generic own _) _, names => by
    simp only [genericNames, addGenericNames, mem_addName, List.not_mem_nil, false_or]
  | .atom .void _, names => by simp [genericNames, addGenericNames]
  | .atom (.enum _) _, names => by simp [genericNames, addGenericNames]
  | .atom (.group _) _, names => by simp [genericNames, addGenericNames]
  | .app _ args _, names => by
    simp only [genericNames, addGenericNames, mem_addAllGenericNames args, List.not_mem_nil, false_or]

/-- Collecting from several types adds those of each. -/
theorem mem_addAllGenericNames {name : String} : ∀ (types : List Ty) (names : List String),
    name ∈ addAllGenericNames names types ↔ name ∈ names ∨ ∃ ty ∈ types, name ∈ ty.genericNames
  | [], names => by simp [addAllGenericNames]
  | ty :: rest, names => by
    rw [addAllGenericNames, mem_addAllGenericNames rest, mem_addGenericNames ty]
    simp [or_assoc]

end

/-- A placeholder mentions itself. -/
@[simp] theorem mem_genericNames_generic {name own : String} {location : Location} {nullable : Bool} :
    name ∈ (Ty.atom (.generic own location) nullable).genericNames ↔ name = own := by
  simp [genericNames, addGenericNames, addName]

/-- A type with arguments mentions what these mention. -/
@[simp] theorem mem_genericNames_app {name : String} {ctor : Ctor} {args : List Ty} {nullable : Bool} :
    name ∈ (Ty.app ctor args nullable).genericNames ↔ ∃ arg ∈ args, name ∈ arg.genericNames := by
  simp [genericNames, addGenericNames, mem_addAllGenericNames]

/-- Nullability has no placeholders. -/
@[simp] theorem genericNames_withNullable (ty : Ty) (nullable : Bool) :
    (ty.withNullable nullable).genericNames = ty.genericNames := by
  cases ty with
  | atom shape flag => cases shape <;> rfl
  | app ctor args flag => rfl

mutual

/-- A type that mentions a placeholder contains one. -/
theorem containsGeneric_of_mem_genericNames {name : String} : ∀ ty : Ty,
    name ∈ ty.genericNames → ty.containsGeneric = true
  | .atom (.generic _ _) _, _ => rfl
  | .atom .void _, mem => by cases mem
  | .atom (.enum _) _, mem => by cases mem
  | .atom (.group _) _, mem => by cases mem
  | .app _ args _, mem => anyContainsGeneric_of_mem_genericNames args (mem_genericNames_app.mp mem)

/-- So do several types of which one mentions it. -/
theorem anyContainsGeneric_of_mem_genericNames {name : String} : ∀ types : List Ty,
    (∃ ty ∈ types, name ∈ ty.genericNames) → anyContainsGeneric types = true
  | [], mentioned => by
    obtain ⟨ty, mem, -⟩ := mentioned
    cases mem
  | ty :: rest, mentioned => by
    rw [anyContainsGeneric, Bool.or_eq_true]
    rcases (List.exists_mem_cons_iff _ _ _).mp mentioned with here | later
    · exact Or.inl (containsGeneric_of_mem_genericNames ty here)
    · exact Or.inr (anyContainsGeneric_of_mem_genericNames rest later)

end

/-! ## Types within allowed names -/

/-- **Whether a type mentions allowed placeholders only.** -/
def Within (allowed : String → Prop) (ty : Ty) : Prop := ∀ name ∈ ty.genericNames, allowed name

variable {allowed : String → Prop}

/-- A type with arguments stays within what is allowed if these do. -/
theorem within_app {ctor : Ctor} {args : List Ty} {nullable : Bool} :
    (Ty.app ctor args nullable).Within allowed ↔ ∀ arg ∈ args, arg.Within allowed := by
  simp only [Within, mem_genericNames_app]
  constructor
  · intro all arg mem name mentioned
    exact all name ⟨arg, mem, mentioned⟩
  · rintro all name ⟨arg, mem, mentioned⟩
    exact all arg mem name mentioned

theorem within_builtin (kind : Builtin) : (Ty.builtin kind).Within allowed :=
  within_app.mpr fun _ mem => by cases mem

theorem within_enum (name : String) : (Ty.enum name).Within allowed := fun _ mem => by cases mem

/-- Arguments of a type that stays within what is allowed do so too. -/
theorem Within.args {ty : Ty} (within : ty.Within allowed) : ∀ arg ∈ ty.args, arg.Within allowed := by
  cases ty with
  | atom shape nullable =>
    intro arg mem
    cases mem
  | app ctor args nullable => exact within_app.mp within

/-- Nullability is always allowed. -/
theorem within_withNullable {ty : Ty} {nullable : Bool} :
    (ty.withNullable nullable).Within allowed ↔ ty.Within allowed := by
  rw [Within, genericNames_withNullable, Within]

end Ty

/-! ## Binding and replacing -/

/-- Whether all placeholders are bound to types within allowed names. -/
def Bindings.Within (allowed : String → Prop) (bindings : Bindings) : Prop :=
  bindings.Every fun _ ty => ty.Within allowed

theorem Bindings.within_empty {allowed : String → Prop} : Bindings.Within allowed .empty :=
  Dict.every_empty _

namespace Ty

variable {allowed : String → Prop}

mutual

/-- **What placeholders are bound to mentions no more than the actual type.** -/
theorem within_bind : ∀ (declared : Ty) {bindings : Bindings} {actual : Ty}, bindings.Within allowed →
    actual.Within allowed → Bindings.Within allowed (declared.bind bindings actual)
  | .atom (.generic _ _) _, _, _, bound, within =>
    Dict.Every.insert bound (within_withNullable.mpr within)
  | .atom .void _, _, _, bound, _ => bound
  | .atom (.enum _) _, _, _, bound, _ => bound
  | .atom (.group _) _, _, _, bound, _ => bound
  | .app _ args _, _, _, bound, within => within_bindAll args bound within.args

/-- Binding the placeholders of several types keeps all that is bound within what is allowed. -/
theorem within_bindAll : ∀ (declared : List Ty) {bindings : Bindings} {actuals : List Ty},
    bindings.Within allowed → (∀ actual ∈ actuals, actual.Within allowed) →
    Bindings.Within allowed (bindAll bindings declared actuals)
  | [], _, [], bound, _ => bound
  | [], _, _ :: _, bound, _ => bound
  | _ :: _, _, [], bound, _ => bound
  | ty :: rest, _, actual :: _, bound, within =>
    within_bindAll rest (within_bind ty bound (within actual List.mem_cons_self))
      fun other mem => within other (List.mem_cons_of_mem _ mem)

end

/-- Only placeholders change their heads, their nullability, and whether they have arguments. -/
theorem substitute_frame {ty : Ty} (plain : ty.isGeneric = false) (bindings : Bindings) :
    (ty.substitute bindings).head = ty.head ∧ (ty.substitute bindings).nullable = ty.nullable ∧
      (ty.args = [] → (ty.substitute bindings).args = []) := by
  cases ty with
  | atom shape nullable =>
    cases shape with
    | generic => cases plain
    | void | enum | group => exact ⟨rfl, rfl, fun none => none⟩
  | app ctor args nullable =>
    refine ⟨rfl, rfl, fun none => ?_⟩
    obtain rfl : args = [] := none
    rfl

mutual

/-- **Bindings that agree on the placeholders of a type replace them alike.** -/
theorem substitute_congr {first second : Bindings} : ∀ ty : Ty,
    (∀ name ∈ ty.genericNames, first.find? name = second.find? name) → ty.substitute first = ty.substitute second
  | .atom (.generic own _) _, agree => by
    rw [substitute, substitute, agree own (mem_genericNames_generic.mpr rfl)]
  | .atom .void _, _ => rfl
  | .atom (.enum _) _, _ => rfl
  | .atom (.group _) _, _ => rfl
  | .app _ args _, agree => by
    rw [substitute, substitute, substituteAll_congr args fun arg mem name mentioned =>
      agree name (mem_genericNames_app.mpr ⟨arg, mem, mentioned⟩)]

/-- Bindings that agree on what several types mention make the same of these. -/
theorem substituteAll_congr {first second : Bindings} : ∀ types : List Ty,
    (∀ ty ∈ types, ∀ name ∈ ty.genericNames, first.find? name = second.find? name) →
    substituteAll first types = substituteAll second types
  | [], _ => rfl
  | ty :: rest, agree => by
    rw [substituteAll, substituteAll, substitute_congr ty (agree ty List.mem_cons_self),
      substituteAll_congr rest fun other mem => agree other (List.mem_cons_of_mem _ mem)]

end

/-- Whether replacing a placeholder brings a name in: the name is mentioned by what the placeholder is bound to,
or it is the placeholder's own and not bound. -/
def BringsIn (bindings : Bindings) (name placeholder : String) : Prop :=
  (∃ bound, bindings.find? placeholder = some bound ∧ name ∈ bound.genericNames) ∨
    (bindings.find? placeholder = none ∧ name = placeholder)

mutual

/-- **A type with its placeholders replaced mentions what these bring in**, and nothing else. -/
theorem mem_genericNames_substitute {bindings : Bindings} {name : String} : ∀ ty : Ty,
    name ∈ (ty.substitute bindings).genericNames ↔
      ∃ placeholder ∈ ty.genericNames, BringsIn bindings name placeholder
  | .atom (.generic own location) nullable => by
    rw [substitute]
    cases found : bindings.find? own with
    | some bound => simp [BringsIn, found]
    | none => simp [BringsIn, found]
  | .atom .void _ => by simp [substitute, genericNames, addGenericNames]
  | .atom (.enum _) _ => by simp [substitute, genericNames, addGenericNames]
  | .atom (.group _) _ => by simp [substitute, genericNames, addGenericNames]
  | .app ctor args nullable => by
    rw [substitute, mem_genericNames_app, exists_mem_genericNames_substituteAll args]
    simp only [mem_genericNames_app]
    constructor
    · rintro ⟨arg, mem, placeholder, mentioned, brought⟩
      exact ⟨placeholder, ⟨arg, mem, mentioned⟩, brought⟩
    · rintro ⟨placeholder, ⟨arg, mem, mentioned⟩, brought⟩
      exact ⟨arg, mem, placeholder, mentioned, brought⟩

/-- What several types mention after a substitution was brought in by what they mentioned before. -/
theorem exists_mem_genericNames_substituteAll {bindings : Bindings} {name : String} : ∀ types : List Ty,
    (∃ ty ∈ substituteAll bindings types, name ∈ ty.genericNames) ↔
      ∃ ty ∈ types, ∃ placeholder ∈ ty.genericNames, BringsIn bindings name placeholder
  | [] => by simp [substituteAll]
  | ty :: rest => by
    simp only [substituteAll, List.exists_mem_cons_iff, mem_genericNames_substitute ty,
      exists_mem_genericNames_substituteAll rest]

end

end Ty

/-! ## Resolution -/

/-- A name that means something brings in no placeholder. -/
theorem Meaning.within_applied {allowed : String → Prop} {args : List Ty}
    (within : ∀ arg ∈ args, arg.Within allowed) (nullable : Bool) (meaning : Meaning) :
    (meaning.applied args nullable).Within allowed := by
  cases meaning with
  | builtin kind => exact Ty.within_app.mpr within
  | struct name => exact Ty.within_app.mpr within
  | enum name => exact fun _ mem => by cases mem
  | group name => exact fun _ mem => by cases mem

namespace TypeTable

mutual

/-- **A resolved type mentions placeholders of its declaration only.** -/
theorem within_of_resolve {types : TypeTable} {generics : List String} :
    ∀ (written : Ty) {ty : Ty}, types.resolve generics written = .ok ty → ty.Within (· ∈ generics)
  | .atom (.generic name location) nullable, ty, resolved => by
    rw [resolve] at resolved
    split at resolved
    · rename_i own
      cases resolved
      intro other mem
      rw [Ty.mem_genericNames_generic.mp mem]
      exact own
    · cases resolved
  | .atom .void _, _, resolved => by cases resolved; exact fun _ mem => by cases mem
  | .atom (.enum _) _, _, resolved => by cases resolved; exact fun _ mem => by cases mem
  | .atom (.group _) _, _, resolved => by cases resolved; exact fun _ mem => by cases mem
  | .app (.unresolved name location) args nullable, ty, resolved => by
    rw [resolve] at resolved
    split at resolved
    · rename_i own
      cases resolved
      intro other mem
      rw [Ty.mem_genericNames_generic.mp mem]
      simp only [Bool.and_eq_true, decide_eq_true_eq] at own
      exact own.2
    · obtain ⟨found, resolving, next⟩ := bind_eq_ok.mp resolved
      split at next
      · cases next
      · obtain ⟨_, checked, made⟩ := bind_eq_ok.mp next
        cases made
        exact Meaning.within_applied (within_of_resolveAll args resolving) _ _
  | .app (.builtin kind) args nullable, ty, resolved => by
    obtain ⟨found, resolving, made⟩ := bind_eq_ok.mp resolved
    cases made
    exact Ty.within_app.mpr (within_of_resolveAll args resolving)
  | .app (.struct name) args nullable, ty, resolved => by
    obtain ⟨found, resolving, made⟩ := bind_eq_ok.mp resolved
    cases made
    exact Ty.within_app.mpr (within_of_resolveAll args resolving)

/-- Several resolved types mention only placeholders in scope. -/
theorem within_of_resolveAll {types : TypeTable} {generics : List String} :
    ∀ (written : List Ty) {found : List Ty}, types.resolveAll generics written = .ok found →
      ∀ ty ∈ found, ty.Within (· ∈ generics)
  | [], _, resolved => by cases resolved; exact fun _ mem => by cases mem
  | ty :: rest, _, resolved => by
    obtain ⟨first, resolving, next⟩ := bind_eq_ok.mp resolved
    obtain ⟨others, resolvingRest, made⟩ := bind_eq_ok.mp next
    cases made
    exact List.forall_mem_cons.mpr
      ⟨within_of_resolve ty resolving, within_of_resolveAll rest resolvingRest⟩

end

end TypeTable

end DeclCheck
