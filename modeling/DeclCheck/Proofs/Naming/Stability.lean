import DeclCheck.Proofs.Defects.Session
import DeclCheck.Proofs.Naming.Catalogue
import DeclCheck.Proofs.Overloading.Persistence
import DeclCheck.Proofs.Resolution.Spelling

/-!
# Names keep their meaning

A type that is resolved in some state of a session is resolved to the same type in all later states. New types may have
known names, but they come after the known ones in the lattice, and the first of a name decides. So a name could get
another meaning only if the lattice did not know it before, and there is one such name: `Int` is no builtin's own name.
A struct that has a meaning also has its declaration, which stays, and with it the number of its arguments.

The converse is not established, and is false: a name that means nothing yet may be declared later. Of types that
mention `Int` nothing is said.
-/

namespace DeclCheck

/-- Whether a name is written nowhere in the type. -/
def Ty.Avoids (name : String) (ty : Ty) : Prop := ty.BuiltFrom fun ctor => ctor.head ≠ .unresolved name

/-- What stands in the lattice is found by its name, or another type of that name is. -/
theorem Lattice.exists_find?_of_mem {lattice : Lattice} {head : Head} (mem : head ∈ lattice.types.map Ty.head)
    {name : String} (named : head.name? = some name) : ∃ found, lattice.find? name = some found := by
  obtain ⟨ty, listed, rfl⟩ := List.mem_map.mp mem
  rw [← Option.isSome_iff_exists, find?, List.find?_isSome]
  exact ⟨ty, listed, by simpa [Ty.name?] using named⟩

namespace TypeTable

variable {types after : TypeTable} {generics : List String}

/-- **A name other than `Int` has a meaning only if the lattice knows it.** -/
theorem Catalogued.exists_find?_of_meaning (catalogued : types.Catalogued) {name : String} (other : name ≠ "Int")
    {meaning : Meaning} (meant : types.meaning? name = some meaning) :
    ∃ found, types.lattice.find? name = some found := by
  unfold meaning? at meant
  split at meant
  · rename_i found located
    exact ⟨found, located⟩
  · split at meant
    · rename_i listed
      exact Lattice.exists_find?_of_mem (catalogued.enums listed) rfl
    · split at meant
      · rename_i listed
        exact Lattice.exists_find?_of_mem (catalogued.structs listed) rfl
      · obtain ⟨kind, named, -⟩ := Option.map_eq_some_iff.mp meant
        have own : (Head.builtin kind).name? = some name :=
          congrArg some (Builtin.name_of_ofName? other named)
        exact Lattice.exists_find?_of_mem (catalogued.builtins kind) own

/-! ## Grown tables -/

section

variable (grown : types.Extends after)

include grown

/-- The first type of a name stays the first. -/
theorem Extends.find?_eq_some {name : String} {found : Ty} (located : types.lattice.find? name = some found) :
    after.lattice.find? name = some found :=
  (grown.nodes.map LatticeNode.ty).find?_eq_some located

/-- The number of arguments that a declared struct takes stays the same. -/
theorem Extends.checkTypeArguments {meaning : Meaning} (allowed : meaning.Allowed types.Declares) (args : List Ty)
    (nullable : Bool) (location : Location) :
    after.checkTypeArguments (meaning.applied args nullable) location =
      types.checkTypeArguments (meaning.applied args nullable) location := by
  cases meaning with
  | builtin | enum | group => rfl
  | struct name =>
    obtain ⟨decl, found⟩ := allowed
    simp only [TypeTable.checkTypeArguments, Meaning.applied, found, grown.structs found]

/-- **A name other than `Int` keeps its meaning.** -/
theorem Extends.meaning (catalogued : types.Catalogued) {name : String} (other : name ≠ "Int") {meaning : Meaning}
    (meant : types.meaning? name = some meaning) : after.meaning? name = some meaning := by
  obtain ⟨found, located⟩ := catalogued.exists_find?_of_meaning other meant
  simp only [meaning?, located] at meant
  simp only [meaning?, grown.find?_eq_some located]
  exact meant

end

mutual

/-- **A type keeps what it is resolved to.** -/
theorem Extends.resolve (grown : types.Extends after) (catalogued : types.Catalogued) (grounded : types.Grounded) :
    ∀ (written : Ty) {ty : Ty}, written.Avoids "Int" → types.resolve generics written = .ok ty →
      after.resolve generics written = .ok ty
  | .atom (.generic name location) nullable, ty, _, resolved => by
    rw [TypeTable.resolve] at resolved ⊢
    split at resolved
    · rename_i own
      rw [if_pos own]
      exact resolved
    · cases resolved
  | .atom .void _, _, _, resolved => resolved
  | .atom (.enum _) _, _, _, resolved => resolved
  | .atom (.group _) _, _, _, resolved => resolved
  | .app (.unresolved name location) args nullable, ty, avoids, resolved => by
    rw [TypeTable.resolve] at resolved ⊢
    split at resolved
    · rename_i own
      rw [if_pos own]
      exact resolved
    · rename_i own
      rw [if_neg own]
      have other : name ≠ "Int" := fun same => avoids.1 (congrArg Head.unresolved same)
      obtain ⟨found, resolving, next⟩ := bind_eq_ok.mp resolved
      refine bind_eq_ok.mpr ⟨found, grown.resolveAll catalogued grounded args avoids.2 resolving, ?_⟩
      split at next
      · cases next
      · rename_i meaning meant
        rw [grown.meaning catalogued other meant]
        dsimp only
        rw [grown.checkTypeArguments (grounded.allowed_of_meaning meant)]
        exact next
  | .app (.builtin kind) args nullable, ty, avoids, resolved => by
    obtain ⟨found, resolving, made⟩ := bind_eq_ok.mp resolved
    exact bind_eq_ok.mpr ⟨found, grown.resolveAll catalogued grounded args avoids.2 resolving, made⟩
  | .app (.struct name) args nullable, ty, avoids, resolved => by
    obtain ⟨found, resolving, made⟩ := bind_eq_ok.mp resolved
    exact bind_eq_ok.mpr ⟨found, grown.resolveAll catalogued grounded args avoids.2 resolving, made⟩

theorem Extends.resolveAll (grown : types.Extends after) (catalogued : types.Catalogued)
    (grounded : types.Grounded) : ∀ (written : List Ty) {found : List Ty},
      Ty.AllBuiltFrom (fun ctor => ctor.head ≠ .unresolved "Int") written →
      types.resolveAll generics written = .ok found → after.resolveAll generics written = .ok found
  | [], _, _, resolved => resolved
  | ty :: rest, _, avoids, resolved => by
    obtain ⟨first, resolving, next⟩ := bind_eq_ok.mp resolved
    obtain ⟨others, resolvingRest, made⟩ := bind_eq_ok.mp next
    refine bind_eq_ok.mpr ⟨first, grown.resolve catalogued grounded ty avoids.1 resolving, ?_⟩
    exact bind_eq_ok.mpr ⟨others, grown.resolveAll catalogued grounded rest avoids.2 resolvingRest, made⟩

end

end TypeTable

/-! ## Sessions -/

namespace Session

theorem Given.reachable {form : SourceUnit → Prop} {session : Session} (given : session.Given form) :
    session.Reachable := by
  induction given with
  | initial => exact .initial
  | add _ _ ih => exact .add ih _

/-- **Types keep their meaning.** A type that is resolved in some state of a session is resolved to the same type in all
later states, whatever generic names are in scope, if `Int` is not written in it. -/
theorem typeMeaning_persists {session after : Session} (given : session.Given (·.hasWrittenTypes = true))
    (later : session.Later after) {generics : List String} {written ty : Ty} (avoids : written.Avoids "Int")
    (resolved : session.symbols.types.resolve generics written = .ok ty) :
    after.symbols.types.resolve generics written = .ok ty := by
  have catalogued := given.reachable.catalogued
  have grounded := given.grounded.types
  exact later.extends.types.resolve catalogued grounded written avoids resolved

/-- A unit that declares a struct of one placeholder. -/
def boxUnit : SourceUnit where
  filename := "box.pine"
  content := ""
  declarations :=
    [.struct ⟨⟨"Box", .nowhere⟩, [⟨⟨"item", .nowhere⟩, .app (.unresolved "T" .nowhere) [] false⟩],
      [⟨"T", .nowhere⟩], "", .nowhere⟩]

/-- A unit that declares an enum, a group and a struct of known names. It is rejected for the struct, and the enum and
the group stay. -/
def clashingUnit : SourceUnit where
  filename := "clashing.pine"
  content := ""
  declarations :=
    [.enum ⟨⟨"Box", .nowhere⟩, [⟨"open", .nowhere⟩], "", .nowhere⟩, .group ⟨⟨"Integer", .nowhere⟩, "", .nowhere⟩,
      .struct ⟨⟨"Box", .nowhere⟩, [], [], "", .nowhere⟩]

/-- A box of integers stays what it is, although an enum and a group take the names. -/
theorem box_typeMeaning_persists :
    let session := (initial.addUnit boxUnit).2
    let after := (session.addUnit clashingUnit).2
    let written : Ty := .app (.unresolved "Box" .nowhere) [.app (.unresolved "Integer" .nowhere) [] false] true
    let ty : Ty := .app (.struct "Box") [.builtin .integer] true
    session.Given (·.hasWrittenTypes = true) ∧ session.Later after ∧ written.Avoids "Int" ∧
      session.symbols.types.resolve [] written = .ok ty ∧ after.symbols.types.enums.contains "Box" = true ∧
      after.symbols.types.resolve [] written = .ok ty := by
  have given : (initial.addUnit boxUnit).2.Given (·.hasWrittenTypes = true) := .add .initial rfl
  have later : (initial.addUnit boxUnit).2.Later ((initial.addUnit boxUnit).2.addUnit clashingUnit).2 :=
    .add .now rfl
  have avoids : Ty.Avoids "Int"
      (.app (.unresolved "Box" .nowhere) [.app (.unresolved "Integer" .nowhere) [] false] true) :=
    ⟨by decide, ⟨by decide, trivial⟩, trivial⟩
  exact ⟨given, later, avoids, rfl, rfl, typeMeaning_persists given later avoids rfl⟩

/-- A unit that declares a struct named `Int`. -/
def intUnit : SourceUnit where
  filename := "int.pine"
  content := ""
  declarations := [.struct ⟨⟨"Int", .nowhere⟩, [], [], "", .nowhere⟩]

/-- `Int` means the integers until something else has that name. -/
example :
    let written : Ty := .app (.unresolved "Int" .nowhere) [] false
    initial.symbols.types.resolve [] written = .ok (.builtin .integer) ∧
      (initial.addUnit intUnit).2.symbols.types.resolve [] written = .ok (.struct "Int" []) :=
  ⟨rfl, rfl⟩

end Session

end DeclCheck
