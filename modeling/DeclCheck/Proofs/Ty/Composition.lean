import DeclCheck.Check.Literal
import DeclCheck.Proofs.Ty.Equality
import DeclCheck.Proofs.Ty.Placeholders

/-!
# Replacing placeholders twice

To replace the placeholders of a type and then those of the result is to replace them once, by bindings made of both.
What a placeholder is bound to may mention placeholders again, also itself: the first bindings never see these, the
second ones do. So the composed bindings have the first ones' types with the second ones applied, and the second ones'
types for all other names.

Nullability decides whether this holds exactly. A nullable placeholder makes the type nullable that replaces it, and if
that type is a placeholder, the mark is handed on to what replaces it in turn.
-/

namespace DeclCheck

/-- **The bindings that replace what first one map of bindings and then another one does.** -/
def Bindings.andThen (first second : Bindings) : Bindings :=
  bindMissing (first.mapValues (Ty.substitute second)) second

/-- What is bound first has the second put in; other names are bound by the second. -/
theorem Bindings.find?_andThen (first second : Bindings) (name : String) :
    (first.andThen second).find? name =
      ((first.find? name).map (Ty.substitute second)).or (second.find? name) := by
  unfold andThen bindMissing
  rw [Dict.find?_foldl_insertNew, Dict.find?_mapValues]
  rfl

namespace Ty

/-- **A type that is made nullable is nullable after its placeholders are replaced**, and is otherwise replaced as
before. -/
theorem substitute_widened (bindings : Bindings) (ty : Ty) (nullable : Bool) :
    (ty.withNullable (ty.nullable || nullable)).substitute bindings =
      (ty.substitute bindings).withNullable ((ty.substitute bindings).nullable || nullable) := by
  cases ty with
  | app ctor args own => rfl
  | atom shape own =>
    cases shape with
    | void | enum | group => rfl
    | generic name location =>
      show (Ty.atom (.generic name location) (own || nullable)).substitute bindings = _
      rw [substitute, substitute]
      cases bindings.find? name with
      | none => rfl
      | some bound =>
        dsimp only
        rw [withNullable_withNullable, nullable_withNullable, Bool.or_assoc]

mutual

/-- **Two substitutions in a row are one.** -/
theorem substitute_andThen (first second : Bindings) : ∀ ty : Ty,
    (ty.substitute first).substitute second = ty.substitute (first.andThen second)
  | .atom (.generic name location) nullable => by
    rw [substitute, substitute, Bindings.find?_andThen]
    cases first.find? name with
    | some bound => exact substitute_widened second bound nullable
    | none =>
      -- the placeholder is still there, and the second bindings decide
      rw [Option.map_none, Option.none_or]
      dsimp only
      rw [substitute]
  | .atom .void _ => rfl
  | .atom (.enum _) _ => rfl
  | .atom (.group _) _ => rfl
  | .app ctor args nullable => by
    rw [substitute, substitute, substitute, substituteAll_andThen first second args]

/-- The same in lists of types. -/
theorem substituteAll_andThen (first second : Bindings) : ∀ types : List Ty,
    substituteAll second (substituteAll first types) = substituteAll (first.andThen second) types
  | [] => rfl
  | ty :: rest => by
    rw [substituteAll, substituteAll, substituteAll, substitute_andThen first second ty,
      substituteAll_andThen first second rest]

end

/-- **Replacements compose.** Two replacements one after the other are one replacement, by bindings in which each name
of the first ones stands for its type with the second ones applied, and each other name for what the second ones have.
After a replacement a type mentions the placeholders that were not bound, and those in the types of the ones that
were. -/
theorem substitute_composes (first second : Bindings) :
    (∀ name, (first.andThen second).find? name =
      ((first.find? name).map (Ty.substitute second)).or (second.find? name)) ∧
    ∀ ty : Ty,
      (ty.substitute first).substitute second = ty.substitute (first.andThen second) ∧
      ∀ name, name ∈ (ty.substitute first).genericNames ↔
        (name ∈ ty.genericNames ∧ first.find? name = none) ∨
          ∃ placeholder ∈ ty.genericNames, ∃ bound,
            first.find? placeholder = some bound ∧ name ∈ bound.genericNames := by
  refine ⟨Bindings.find?_andThen first second, fun ty => ⟨substitute_andThen first second ty, fun name => ?_⟩⟩
  rw [mem_genericNames_substitute]
  constructor
  · rintro ⟨placeholder, mentioned, ⟨bound, found, inside⟩ | ⟨unbound, rfl⟩⟩
    · exact Or.inr ⟨placeholder, mentioned, bound, found, inside⟩
    · exact Or.inl ⟨mentioned, unbound⟩
  · rintro (⟨mentioned, unbound⟩ | ⟨placeholder, mentioned, bound, found, inside⟩)
    · exact ⟨name, mentioned, Or.inr ⟨unbound, rfl⟩⟩
    · exact ⟨placeholder, mentioned, Or.inl ⟨bound, found, inside⟩⟩

end Ty

end DeclCheck
