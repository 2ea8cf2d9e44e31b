import DeclCheck.Proofs.Defects.Written
import DeclCheck.Proofs.Growth
import DeclCheck.Proofs.Lattice.Rooted
import DeclCheck.Proofs.Overloading.History
import DeclCheck.Proofs.Places.Decisions
import DeclCheck.Proofs.Walk.Types

/-!
# Grounded tables

The tables are *grounded* if every struct that a type in them mentions has a declaration: the types in the lattice,
the types of members, and the types that overloads return. Member types that a rejected unit left as they are written
mention no struct at all. Everything that written declarations do keeps tables grounded, and none of it ends in an
error that is not a report about the unit.
-/

namespace DeclCheck

/-- Whether an error reports a problem of the unit, and no defect of the checker. -/
def Error.IsReport (error : Error) : Prop := error.isInternal = false

/-- An error that was found is reported. -/
theorem ErrorsIn.reports {α : Type} {outcome : Except Error α}
    (errors : ErrorsIn (Error.FoundWhere fun _ => True) outcome) : ErrorsIn Error.IsReport outcome :=
  errors.mono fun error found => by
    cases error with
    | found problem location => rfl
    | internal message => cases found

/-! ## Structs with a declaration -/

/-- Whether a constructor that is a struct has a declaration. -/
def TypeTable.Declares (types : TypeTable) : Ctor → Prop
  | .struct name => ∃ decl, types.structs.find? name = some decl
  | .unresolved _ _ | .builtin _ => True

/-- **Whether every struct that the type tables mention has a declaration.** -/
structure TypeTable.Grounded (types : TypeTable) : Prop where
  nodes : ∀ ty ∈ types.lattice.types, ∀ name, ty.head = .struct name → types.Declares (.struct name)
  members : ∀ {name decl member}, types.structs.find? name = some decl → member ∈ decl.members →
    member.ty.BuiltFrom types.Declares

/-- Whether every struct that an overload returns has a declaration. -/
def FunctionTable.Grounded (types : TypeTable) (functions : FunctionTable) : Prop :=
  functions.Every fun _ decl => decl.returnType.BuiltFrom types.Declares

/-- **Whether every struct that the tables mention has a declaration.** -/
structure Symbols.Grounded (symbols : Symbols) : Prop where
  types : symbols.types.Grounded
  functions : symbols.functions.Grounded symbols.types

/-- Functions stay grounded where more is declared. -/
theorem FunctionTable.Grounded.mono {types after : TypeTable} {functions : FunctionTable}
    (wider : ∀ ctor, types.Declares ctor → after.Declares ctor) (grounded : functions.Grounded types) :
    functions.Grounded after :=
  fun key mem decl listed => (grounded key mem decl listed).mono wider

namespace TypeTable

variable {types after : TypeTable}

/-- What is declared stays declared. -/
theorem Extends.declares (grown : types.Extends after) (ctor : Ctor) (declared : types.Declares ctor) :
    after.Declares ctor := by
  cases ctor with
  | struct name =>
    obtain ⟨decl, found⟩ := declared
    exact ⟨decl, grown.structs found⟩
  | unresolved | builtin => trivial

/-! ## Resolution -/

/-- A written name means a struct only if it has a declaration. -/
theorem Grounded.allowed_of_meaning (grounded : types.Grounded) {name : String} {meaning : Meaning}
    (meant : types.meaning? name = some meaning) : meaning.Allowed types.Declares := by
  cases meaning with
  | builtin kind => trivial
  | enum | group => trivial
  | struct name =>
    unfold meaning? at meant
    split at meant
    · rename_i found located
      have head : found.head = .struct name := by
        generalize found.head = head at meant
        cases head <;> cases meant
        rfl
      exact grounded.nodes found (List.mem_of_find?_eq_some located) name head
    · split at meant
      · cases meant
      · split at meant
        · rename_i listed
          cases meant
          exact Option.isSome_iff_exists.mp listed
        · cases named : Builtin.ofName? _ with
          | none => rw [named] at meant; cases meant
          | some kind => rw [named] at meant; cases meant

/-- **Every struct in a resolved type has a declaration.** -/
theorem Grounded.resolve (grounded : types.Grounded) {generics : List String} {written ty : Ty}
    (form : written.isWritten = true) (resolved : types.resolve generics written = .ok ty) :
    ty.BuiltFrom types.Declares :=
  builtFrom_resolve grounded.allowed_of_meaning written (Ty.builtFrom_of_isWritten form) resolved

/-- Several written types are resolved to types built from declared ones. -/
theorem Grounded.resolveAll (grounded : types.Grounded) {generics : List String} {written found : List Ty}
    (form : Ty.allWritten written = true) (resolved : types.resolveAll generics written = .ok found) :
    Ty.AllBuiltFrom types.Declares found :=
  builtFrom_resolveAll grounded.allowed_of_meaning written (Ty.allBuiltFrom_of_allWritten form) resolved

/-! ## Registrations -/

/-- Tables that declare at least as much stay grounded if what is new in them is. -/
theorem Grounded.of_declares (grounded : types.Grounded)
    (wider : ∀ ctor, types.Declares ctor → after.Declares ctor)
    (nodes : ∀ ty ∈ after.lattice.types, ∀ name, ty.head = .struct name →
      ty ∈ types.lattice.types ∨ after.Declares (.struct name))
    (members : ∀ {name decl member}, after.structs.find? name = some decl → member ∈ decl.members →
      types.structs.find? name = some decl ∨ member.ty.BuiltFrom after.Declares) : after.Grounded where
  nodes ty mem name head := by
    rcases nodes ty mem name head with old | new
    · exact wider _ (grounded.nodes ty old name head)
    · exact new
  members found listed := by
    rcases members found listed with old | new
    · exact (grounded.members old listed).mono wider
    · exact new

/-- A written type is built from names only. -/
theorem builtFrom_declares_of_isWritten (types : TypeTable) {ty : Ty} (written : ty.isWritten = true) :
    ty.BuiltFrom types.Declares := by
  have atMost : ty.BuiltFrom fun ctor => ctor.isResolved = true → types.Declares ctor :=
    Ty.builtFrom_of_isWritten written
  refine atMost.mono fun ctor own => ?_
  cases ctor with
  | unresolved => trivial
  | builtin => trivial
  | struct name => exact own rfl

/-- A struct whose members are written may be registered. -/
theorem Grounded.registerStruct {decl : StructDecl} (grounded : types.Grounded)
    (written : decl.hasWrittenMembers = true) (registered : types.registerStruct decl = .ok after) :
    after.Grounded := by
  have grown := extends_registerStruct registered
  obtain ⟨-, rfl⟩ := registerStruct_eq_ok registered
  refine grounded.of_declares grown.declares ?_ ?_
  · intro ty mem name head
    rcases Lattice.types_insert_subset ty mem with old | rfl
    · exact Or.inl old
    · cases head
      exact Or.inr ⟨decl, Dict.find?_insert_self _ _ _⟩
  · intro name other member found listed
    rw [Dict.find?_insert] at found
    split at found
    · cases found
      exact Or.inr (builtFrom_declares_of_isWritten _ (List.all_eq_true.mp written member listed))
    · exact Or.inl found

/-- So may an enum. -/
theorem Grounded.registerEnum {decl : EnumDecl} (grounded : types.Grounded)
    (registered : types.registerEnum decl = .ok after) : after.Grounded := by
  have grown := extends_registerEnum registered
  obtain ⟨-, rfl⟩ := registerEnum_eq_ok registered
  refine grounded.of_declares grown.declares ?_ fun found _ => Or.inl found
  intro ty mem name head
  rcases Lattice.types_insert_subset ty mem with old | rfl
  · exact Or.inl old
  · cases head

/-- So may a group. -/
theorem Grounded.registerGroup {decl : GroupDecl} (grounded : types.Grounded)
    (registered : types.registerGroup decl = .ok after) : after.Grounded := by
  have grown := extends_registerGroup registered
  obtain rfl := registerGroup_eq_ok registered
  refine grounded.of_declares grown.declares ?_ fun found _ => Or.inl found
  intro ty mem name head
  rcases Lattice.types_insert_subset ty mem with old | rfl
  · exact Or.inl old
  · cases head

/-- A written type may be bound into a group. -/
theorem Grounded.bindTypes {binding bound : GroupBinding} (grounded : types.Grounded)
    (written : binding.child.isWritten = true)
    (reached : Analysis.bindTypes binding types = .ok (bound, after)) : after.Grounded := by
  have grown := Analysis.extends_bindTypes reached
  obtain ⟨child, group, nullable, lattice, resolvedChild, -, inserted, -, rfl⟩ :=
    Analysis.bindTypes_inserted reached
  have built := grounded.resolve written resolvedChild
  refine grounded.of_declares grown.declares ?_ fun found _ => Or.inl found
  intro ty mem name head
  obtain ⟨position, -, rfl⟩ := Option.map_eq_some_iff.mp inserted
  have place : ty ∈ types.lattice.types ∨ ty = child.withNullable false := by
    simpa [Lattice.types] using mem
  rcases place with old | rfl
  · exact Or.inl old
  · cases child with
    | atom shape flag => cases shape <;> cases head
    | app ctor args flag =>
      cases ctor with
      | struct own =>
        cases head
        exact Or.inr built.1
      | unresolved | builtin => cases head

/-- Replacing a struct leaves all that was declared. -/
theorem declares_updateStruct (decl : StructDecl) (ctor : Ctor) (declared : types.Declares ctor) :
    (types.updateStruct decl).Declares ctor := by
  cases ctor with
  | struct name =>
    obtain ⟨other, found⟩ := declared
    by_cases same : name = decl.name.name
    · exact ⟨decl, same ▸ Dict.find?_insert_self _ _ _⟩
    · exact ⟨other, (Dict.find?_insert_of_ne _ _ same).trans found⟩
  | unresolved | builtin => trivial

/-- A struct may be replaced by its resolved form. -/
theorem Grounded.updateStruct {decl resolved : StructDecl} (grounded : types.Grounded)
    (written : decl.hasWrittenMembers = true) (resolving : types.resolveStruct decl = .ok resolved) :
    (types.updateStruct resolved).Grounded := by
  obtain ⟨members, made, each⟩ := resolveStruct_eq_ok resolving
  refine grounded.of_declares (declares_updateStruct resolved) (fun _ mem _ _ => Or.inl mem) ?_
  intro name other member found listed
  simp only [TypeTable.updateStruct, Dict.find?_insert] at found
  split at found
  · cases found
    rw [made] at listed
    obtain ⟨source, mem, -, found⟩ := each member listed
    have built := grounded.resolve (List.all_eq_true.mp written source mem) found
    exact Or.inr (built.mono (declares_updateStruct resolved))
  · exact Or.inl found

/-- **A group that a written type is resolved to is in the lattice.** -/
theorem contains_of_resolve {generics : List String} {written : Ty} (form : written.isWritten = true) {name : String}
    {nullable : Bool} (resolved : types.resolve generics written = .ok (.atom (.group name) nullable)) :
    types.lattice.contains (.atom (.group name) nullable) = true := by
  obtain ⟨ty, mem, head⟩ := List.mem_map.mp (mem_heads_of_resolve form resolved rfl)
  obtain ⟨node, listed, rfl⟩ := List.mem_map.mp mem
  refine List.any_eq_true.mpr ⟨node, listed, ?_⟩
  show node.ty.head.agrees (.group name) = true
  rw [head]
  exact beq_self_eq_true (Head.group name)

end TypeTable

/-- **A group binding whose types are as they are written fails with reports only.** The group it is resolved to is in
the lattice. -/
theorem Analysis.errorsIn_bindTypes {binding : GroupBinding} (written : binding.parent.isWritten = true)
    (types : TypeTable) : ErrorsIn Error.IsReport (bindTypes binding types) := by
  refine ErrorsIn.bind (ErrorsIn.reports (TypeTable.errorsIn_resolve types [] _ fun _ _ => trivial)) fun child _ => ?_
  refine ErrorsIn.bind (ErrorsIn.reports (TypeTable.errorsIn_resolve types [] _ fun _ _ => trivial))
    fun parent resolved => ?_
  split
  · rename_i name nullable
    split
    · exact ErrorsIn.ok _
    · rename_i missing
      have there := TypeTable.contains_of_resolve written resolved
      rw [← Lattice.isSome_insert? types.lattice child, Option.map_eq_none_iff.mp missing] at there
      cases there
  · exact ErrorsIn.reports (errorsIn_refuse _ trivial)

/-! ## Signatures and calls -/

namespace FunctionDecl

variable {types : TypeTable} {decl closed : FunctionDecl}

/-- Every struct in a closed signature has a declaration. -/
theorem grounded_close (grounded : types.Grounded) (written : decl.hasWrittenSignature = true)
    (closing : decl.close types = .ok closed) :
    (∀ param ∈ closed.params, param.ty.BuiltFrom types.Declares) ∧
      closed.returnType.BuiltFrom types.Declares := by
  simp only [hasWrittenSignature, Bool.and_eq_true] at written
  constructor
  · intro param mem
    obtain ⟨source, listed, found⟩ := exists_param_of_close closing param mem
    exact grounded.resolve (List.all_eq_true.mp written.1.1 source listed) found
  · obtain ⟨_, _, returnType, -, -, returned, rfl, -⟩ := close_eq_ok closing
    exact grounded.resolve written.1.2 returned

end FunctionDecl

namespace Overloading

/-- **Every struct that a bound overload returns has a declaration**, if the arguments' structs do. -/
theorem grounded_resolve {types : TypeTable} {lattice : Lattice} {functions after : FunctionTable}
    {key : FunctionKey} {signature : String} {actuals : List Ty} {location : Location} {decl : FunctionDecl}
    (grounded : functions.Grounded types) (built : ∀ actual ∈ actuals, actual.BuiltFrom types.Declares)
    (bound : resolve lattice functions key signature actuals location = .ok (decl, after)) :
    decl.returnType.BuiltFrom types.Declares ∧ after.Grounded types := by
  have special : ∀ candidate made : FunctionDecl, candidate.returnType.BuiltFrom types.Declares →
      specialise lattice candidate actuals = .ok made → made.returnType.BuiltFrom types.Declares := by
    intro candidate made known specialised
    rw [specialise_eq_ok specialised]
    exact Ty.BuiltFrom.substitute (builtFrom_bindings candidate built) known
  refine ⟨?_, every_resolve grounded special bound⟩
  rcases resolve_listed_or_specialised bound with ⟨listed, -⟩ | ⟨candidate, listed, -, specialised, -⟩
  · exact grounded.of_mem listed
  · exact special candidate decl (grounded.of_mem listed) specialised

end Overloading

end DeclCheck
