import DeclCheck.Proofs.Ty.Placeholders

/-!
# Resolving a second time

A type is *closed* under generic names if no written name is left in it and every placeholder that it mentions is one
of the names. Resolution leads to closed types, and closed types are just those that it leaves as they are, down to
the places where their placeholders were written. So a second resolution changes nothing, whatever the first one did
at each place: a written name that stood for a placeholder is one now, arguments that an enum dropped are gone, and
the number of arguments of a struct is asked for only where its name is written.

That a written type can be resolved is not said here: `Proofs.Resolution.Faults` says what stands in the way.
-/

namespace DeclCheck

/-- **Whether a type is closed under generic names**: it has no written name left, and mentions no other
placeholder. -/
def Ty.ClosedUnder (generics : List String) (ty : Ty) : Prop :=
  ty.isResolved = true ∧ ∀ name ∈ ty.genericNames, name ∈ generics

namespace Ty

variable {generics : List String}

/-- A placeholder is closed where it is in scope. -/
theorem closedUnder_generic {name : String} {location : Location} {nullable : Bool} :
    (Ty.atom (.generic name location) nullable).ClosedUnder generics ↔ name ∈ generics := by
  simp [ClosedUnder, isResolved]

/-- A type with arguments is closed if it is resolved and these are closed. -/
theorem closedUnder_app {ctor : Ctor} {args : List Ty} {nullable : Bool} :
    (Ty.app ctor args nullable).ClosedUnder generics ↔
      ctor.isResolved = true ∧ ∀ arg ∈ args, arg.ClosedUnder generics := by
  simp only [ClosedUnder, isResolved, Bool.and_eq_true, allResolved_iff, mem_genericNames_app]
  constructor
  · rintro ⟨⟨own, resolved⟩, within⟩
    exact ⟨own, fun arg mem => ⟨resolved arg mem, fun name mentioned => within name ⟨arg, mem, mentioned⟩⟩⟩
  · rintro ⟨own, closed⟩
    refine ⟨⟨own, fun arg mem => (closed arg mem).1⟩, ?_⟩
    rintro name ⟨arg, mem, mentioned⟩
    exact (closed arg mem).2 name mentioned

end Ty

namespace TypeTable

variable {types : TypeTable} {generics : List String}

/-- Resolution leads to closed types. -/
theorem closedUnder_of_resolve {written ty : Ty} (resolved : types.resolve generics written = .ok ty) :
    ty.ClosedUnder generics :=
  ⟨isResolved_of_resolve written resolved, within_of_resolve written resolved⟩

mutual

/-- A closed type is resolved to itself. -/
theorem resolve_of_closedUnder : ∀ ty : Ty, ty.ClosedUnder generics → types.resolve generics ty = .ok ty
  | .atom (.generic name location) nullable, closed => by
    rw [resolve, if_pos (Ty.closedUnder_generic.mp closed)]
  | .atom .void _, _ => rfl
  | .atom (.enum _) _, _ => rfl
  | .atom (.group _) _, _ => rfl
  | .app (.unresolved _ _) _ _, closed => by cases (Ty.closedUnder_app.mp closed).1
  | .app (.builtin _) args _, closed =>
    bind_eq_ok.mpr ⟨args, resolveAll_of_closedUnder args (Ty.closedUnder_app.mp closed).2, rfl⟩
  | .app (.struct _) args _, closed =>
    bind_eq_ok.mpr ⟨args, resolveAll_of_closedUnder args (Ty.closedUnder_app.mp closed).2, rfl⟩

/-- Closed types are resolved to themselves. -/
theorem resolveAll_of_closedUnder : ∀ args : List Ty, (∀ arg ∈ args, arg.ClosedUnder generics) →
    types.resolveAll generics args = .ok args
  | [], _ => rfl
  | arg :: rest, closed => by
    rw [resolveAll, resolve_of_closedUnder arg (closed arg List.mem_cons_self),
      resolveAll_of_closedUnder rest fun other mem => closed other (List.mem_cons_of_mem _ mem)]
    rfl

end

/-- **The types that resolution leaves as they are** are the closed ones. -/
theorem resolve_eq_self_iff {ty : Ty} : types.resolve generics ty = .ok ty ↔ ty.ClosedUnder generics :=
  ⟨closedUnder_of_resolve, resolve_of_closedUnder ty⟩

/-- **Resolution is closed and idempotent.** What any type is resolved to has no written name left and mentions only
the generic names of its declaration, and it is resolved to itself, as the same value. -/
theorem resolve_resolved {written ty : Ty} (resolved : types.resolve generics written = .ok ty) :
    ty.isResolved = true ∧ (∀ name ∈ ty.genericNames, name ∈ generics) ∧ types.resolve generics ty = .ok ty := by
  have closed := closedUnder_of_resolve resolved
  exact ⟨closed.1, closed.2, resolve_eq_self_iff.mpr closed⟩

/-- A list of written and resolved parts: a name that stands for a placeholder, a placeholder that is one already, and
an enum with an argument, which it drops. -/
def mixedType : Ty :=
  .app (.builtin .list)
    [.app (.unresolved "T" ⟨1, 6, 1, 7⟩) [] true, .atom (.generic "U" ⟨1, 9, 1, 10⟩) false,
      .app (.unresolved "Boolean" ⟨1, 12, 1, 19⟩) [.app (.unresolved "Int" ⟨1, 20, 1, 23⟩) [] false] false]
    true

/-- What the list is resolved to. -/
def mixedTypeResolved : Ty :=
  .app (.builtin .list)
    [.atom (.generic "T" ⟨1, 6, 1, 7⟩) true, .atom (.generic "U" ⟨1, 9, 1, 10⟩) false, .enum "Boolean"] true

theorem mixedType_resolved :
    TypeTable.initial.resolve ["T", "U"] mixedType = .ok mixedTypeResolved ∧
      mixedTypeResolved.isResolved = true ∧ (∀ name ∈ mixedTypeResolved.genericNames, name ∈ ["T", "U"]) ∧
      TypeTable.initial.resolve ["T", "U"] mixedTypeResolved = .ok mixedTypeResolved := by
  have resolved : TypeTable.initial.resolve ["T", "U"] mixedType = .ok mixedTypeResolved := rfl
  exact ⟨resolved, resolve_resolved resolved⟩

end TypeTable

end DeclCheck
