import DeclCheck.Proofs.Annotation.Erasure
import DeclCheck.Proofs.Annotation.Walk

/-!
# Accepted units are completely annotated

Each pass over the declarations of a unit completes one kind of them, and leaves the others as they are:
group bindings, struct members, signatures, and last bodies. Between the first pass and the end of the third
the tables hold structs whose members are still as written. They are *pending*: their names are those of the
declarations that the third pass has not come to. After it, whatever the resolution of members brings about holds of
all structs. A unit that is rejected may leave pending structs behind for ever, so this is about sessions that have
rejected nothing.

Not established here is that the noted types are right: that is the subject of `Proofs.Typing.Acceptance`.
-/

namespace DeclCheck

/-- Whether a property holds of all structs, except under the names given. -/
def TypeTable.StructsBut (good : StructDecl → Prop) (pending : List String) (types : TypeTable) : Prop :=
  ∀ ⦃name : String⦄ ⦃decl : StructDecl⦄, types.structs.find? name = some decl → good decl ∨ name ∈ pending

/-- The name of a declaration that is a struct. -/
def Decl.structName? : Decl → Option String
  | .struct decl => some decl.name.name
  | _ => none

/-- The names of the structs among declarations. -/
def Decl.structNames (decls : List Decl) : List String := decls.filterMap structName?

/-- Whether all types in the tables are resolved. -/
def Symbols.Resolved (symbols : Symbols) : Prop :=
  symbols.types.Resolved ∧ symbols.functions.Resolved

/-! ## Pending structs -/

namespace TypeTable

variable {types after : TypeTable} {good : StructDecl → Prop} {pending : List String}

/-- A registered struct is one of those that are pending. -/
theorem StructsBut.registerStruct {decl : StructDecl} (known : types.StructsBut good pending)
    (named : decl.name.name ∈ pending) (registered : types.registerStruct decl = .ok after) :
    after.StructsBut good pending := by
  obtain ⟨-, rfl⟩ := registerStruct_eq_ok registered
  intro name other found
  rw [Dict.find?_insert] at found
  split at found
  · rename_i same
    exact Or.inr (same ▸ named)
  · exact known found

/-- An enum is no struct. -/
theorem StructsBut.registerEnum {decl : EnumDecl} (known : types.StructsBut good pending)
    (registered : types.registerEnum decl = .ok after) : after.StructsBut good pending := by
  obtain ⟨-, rfl⟩ := registerEnum_eq_ok registered
  exact known

theorem StructsBut.registerGroup {decl : GroupDecl} (known : types.StructsBut good pending)
    (registered : types.registerGroup decl = .ok after) : after.StructsBut good pending := by
  obtain rfl := registerGroup_eq_ok registered
  exact known

/-- A struct that has the property is pending no longer. -/
theorem StructsBut.updateStruct {decl : StructDecl} (known : types.StructsBut good (decl.name.name :: pending))
    (holds : good decl) : (types.updateStruct decl).StructsBut good pending := by
  intro name other found
  simp only [TypeTable.updateStruct, Dict.find?_insert] at found
  split at found
  · cases found
    exact Or.inl holds
  · rename_i different
    rcases known found with old | waiting
    · exact Or.inl old
    · rcases List.mem_cons.mp waiting with same | later
      · exact absurd same different
      · exact Or.inr later

/-- A resolved struct has its name, and resolved members. -/
theorem resolved_resolveStruct {decl resolved : StructDecl}
    (resolving : types.resolveStruct decl = .ok resolved) :
    resolved.name = decl.name ∧ resolved.hasResolvedMembers = true := by
  obtain ⟨members, rfl, each⟩ := resolveStruct_eq_ok resolving
  refine ⟨rfl, List.all_eq_true.mpr fun member mem => ?_⟩
  obtain ⟨source, -, -, found⟩ := each member mem
  exact isResolved_of_resolve _ found

end TypeTable

/-! ## Signatures -/

namespace FunctionDecl

/-- A resolved restriction is resolved. -/
theorem resolved_resolveConstraint {types : TypeTable} {generic resolved : GenericParam}
    (resolving : resolveConstraint types generic = .ok resolved) :
    resolved.constraint.all Ty.isResolved = true := by
  unfold resolveConstraint at resolving
  split at resolving
  · rename_i free
    cases resolving
    rw [free]
    rfl
  · obtain ⟨constraint, found, made⟩ := bind_eq_ok.mp resolving
    cases made
    exact TypeTable.isResolved_of_resolve _ found

/-- **A closed signature is resolved**, whatever was written. -/
theorem resolved_close {types : TypeTable} {decl closed : FunctionDecl}
    (closing : decl.close types = .ok closed) : closed.hasResolvedSignature = true := by
  have types : ∀ param ∈ closed.params, param.ty.isResolved = true := by
    intro param mem
    obtain ⟨source, -, found⟩ := exists_param_of_close closing param mem
    exact TypeTable.isResolved_of_resolve _ found
  obtain ⟨generics, params, returnType, restricted, -, returned, rfl, -⟩ := close_eq_ok closing
  have constraints : ∀ generic ∈ generics, generic.constraint.all Ty.isResolved = true :=
    forall_of_mapM_eq_ok (fun _ _ => resolved_resolveConstraint) restricted
  simp only [hasResolvedSignature, overload, Overload.isResolved, Bool.and_eq_true]
  refine ⟨⟨Ty.allResolved_iff.mpr fun ty mem => ?_, TypeTable.isResolved_of_resolve _ returned⟩,
    List.all_eq_true.mpr constraints⟩
  obtain ⟨param, listed, rfl⟩ := List.mem_map.mp mem
  exact types param listed

/-- The parameters of a resolved signature are variables of resolved types. -/
theorem resolved_params {decl : FunctionDecl} (resolved : decl.hasResolvedSignature = true) :
    LocalVariable.AllResolved (Param.variables decl.params) := by
  simp only [hasResolvedSignature, overload, Overload.isResolved, Bool.and_eq_true] at resolved
  intro var mem
  obtain ⟨param, listed, rfl⟩ := List.mem_map.mp (List.mem_reverse.mp mem)
  exact Ty.allResolved_iff.mp resolved.1.1 _ (List.mem_map.mpr ⟨param, listed, rfl⟩)

end FunctionDecl

/-! ## The passes -/

namespace Analysis

variable {before after : Analysis} {decl result : Decl}

/-- First pass: the structs of the unit become pending. -/
theorem registerName_structsBut {good : StructDecl → Prop} {pending : List String}
    (named : ∀ name, decl.structName? = some name → name ∈ pending)
    (known : before.symbols.types.StructsBut good pending)
    (reached : registerName decl before = .ok () after) :
    after.symbols.types.StructsBut good pending := by
  cases decl with
  | struct decl =>
    rw [registerName] at reached
    exact known.registerStruct (named _ rfl) (onTypes_map_eq_ok reached)
  | enum decl =>
    rw [registerName] at reached
    exact known.registerEnum (onTypes_map_eq_ok reached)
  | group decl =>
    rw [registerName] at reached
    exact known.registerGroup (onTypes_map_eq_ok reached)
  | function | binding | exampleBlock | importing =>
    cases reached
    exact known

/-- A bound group binding is resolved, and no struct is touched. -/
theorem bindTypes_eq_ok {binding bound : GroupBinding} {types after : TypeTable}
    (reached : bindTypes binding types = .ok (bound, after)) :
    bound.isResolved = true ∧ after.structs = types.structs := by
  obtain ⟨child, name, nullable, lattice, resolvedChild, resolvedParent, -, rfl, rfl⟩ :=
    bindTypes_inserted reached
  simp only [GroupBinding.isResolved, TypeTable.isResolved_of_resolve _ resolvedChild,
    TypeTable.isResolved_of_resolve _ resolvedParent, Bool.and_self, and_self]

/-- Second pass: group bindings are resolved, and structs stay as they are. -/
theorem bindGroup_resolved (reached : bindGroup decl before = .ok result after) :
    after.symbols.types.structs = before.symbols.types.structs ∧
      result.hasResolvedBinding = true ∧ result.structName? = decl.structName? := by
  cases decl with
  | binding decl =>
    obtain ⟨bound, between, binding, made⟩ := step_bind_eq_ok.mp reached
    obtain ⟨types, bindings, rfl⟩ := onTypes_eq_ok binding
    obtain ⟨resolved, same⟩ := bindTypes_eq_ok bindings
    cases made
    exact ⟨same, resolved, rfl⟩
  | struct | enum | group | function | exampleBlock | importing =>
    cases reached
    exact ⟨rfl, rfl, rfl⟩

/-- Third pass: one pending struct less, if the declaration is one. -/
theorem resolveMembers_structsBut {good : StructDecl → Prop} {rest : List Decl}
    (makes : ∀ ⦃types : TypeTable⦄ ⦃decl resolved : StructDecl⦄,
      types.resolveStruct decl = .ok resolved → good resolved)
    (known : before.symbols.types.StructsBut good (Decl.structNames (decl :: rest)))
    (reached : resolveMembers decl before = .ok result after) :
    after.symbols.types.StructsBut good (Decl.structNames rest) := by
  cases decl with
  | struct decl =>
    rw [resolveMembers] at reached
    obtain ⟨types, updated, rfl⟩ := onTypes_eq_ok reached
    obtain ⟨resolved, resolving, made⟩ := bind_eq_ok.mp updated
    obtain ⟨same, -⟩ := TypeTable.resolved_resolveStruct resolving
    cases made
    refine TypeTable.StructsBut.updateStruct ?_ (makes resolving)
    rw [same]
    exact known
  | enum | group | function | binding | exampleBlock | importing =>
    cases reached
    exact known

/-- Third pass: the members of structs are resolved, and bindings stay as they are. -/
theorem resolveMembers_resolved (bound : decl.hasResolvedBinding = true)
    (reached : resolveMembers decl before = .ok result after) :
    result.hasResolvedBinding = true ∧ result.hasResolvedMembers = true := by
  cases decl with
  | struct decl =>
    rw [resolveMembers] at reached
    obtain ⟨types, updated, rfl⟩ := onTypes_eq_ok reached
    obtain ⟨resolved, resolving, made⟩ := bind_eq_ok.mp updated
    cases made
    exact ⟨rfl, (TypeTable.resolved_resolveStruct resolving).2⟩
  | enum | group | function | binding | exampleBlock | importing =>
    cases reached
    exact ⟨bound, rfl⟩

/-- Fourth pass: signatures are resolved, and enter the function table so. -/
theorem collect_resolved {types : TypeTable}
    (known : before.symbols.types = types ∧ before.symbols.functions.Resolved)
    (bound : decl.hasResolvedBinding = true) (members : decl.hasResolvedMembers = true)
    (reached : collect decl before = .ok result after) :
    (after.symbols.types = types ∧ after.symbols.functions.Resolved) ∧
      result.hasResolvedBinding = true ∧ result.hasResolvedMembers = true ∧
        result.hasResolvedSignature = true := by
  cases decl with
  | function decl =>
    obtain ⟨closed, closing, rfl, rfl⟩ := collect_function_eq_ok reached
    have resolved := FunctionDecl.resolved_close closing
    refine ⟨⟨known.1, FunctionTable.Every.insert known.2 ?_⟩, rfl, rfl, resolved⟩
    simp only [FunctionDecl.hasResolvedSignature, Bool.and_eq_true] at resolved
    exact resolved.1
  | struct | enum | group | binding | exampleBlock | importing =>
    cases reached
    exact ⟨known, bound, members, rfl⟩

/-- Fifth pass: bodies are annotated, and what was resolved stays so. -/
theorem checkBody_annotated {types : TypeTable} (resolved : types.Resolved)
    (known : before.symbols.types = types ∧ before.symbols.functions.Resolved)
    (bound : decl.hasResolvedBinding = true) (members : decl.hasResolvedMembers = true)
    (signed : decl.hasResolvedSignature = true)
    (reached : checkBody decl before = .ok result after) :
    (after.symbols.types = types ∧ after.symbols.functions.Resolved) ∧ result.isAnnotated = true := by
  obtain ⟨rfl, functions⟩ := known
  cases decl with
  | function decl =>
    obtain ⟨body, returned, table, seen, rfl, walked, -, symbols⟩ := checkBody_function_eq_ok reached
    obtain ⟨annotated, kept, -⟩ := walked.annotated resolved (FunctionDecl.resolved_params signed) functions
    rw [symbols]
    refine ⟨⟨rfl, kept⟩, ?_⟩
    simp only [Decl.isAnnotated, Bool.and_eq_true]
    exact ⟨⟨⟨rfl, rfl⟩, signed⟩, annotated⟩
  | exampleBlock decl =>
    obtain ⟨body, returned, table, seen, rfl, walked, symbols⟩ := checkBody_example_eq_ok reached
    obtain ⟨annotated, kept, -⟩ := walked.annotated resolved (fun _ mem => by cases mem) functions
    rw [symbols]
    refine ⟨⟨rfl, kept⟩, ?_⟩
    simp only [Decl.isAnnotated, Bool.and_eq_true]
    exact ⟨⟨⟨rfl, rfl⟩, rfl⟩, annotated⟩
  | struct | enum | group | binding | importing =>
    cases reached
    refine ⟨⟨rfl, functions⟩, ?_⟩
    simp only [Decl.isAnnotated, Bool.and_eq_true]
    exact ⟨⟨⟨bound, members⟩, signed⟩, rfl⟩

/-- The second pass leaves the structs as they are, those in the table and those among the declarations. -/
theorem bindGroups_structs {decls groups : List Decl} (reached : decls.mapM bindGroup before = .ok groups after) :
    after.symbols.types.structs = before.symbols.types.structs ∧
      Decl.structNames groups = Decl.structNames decls ∧ ∀ decl ∈ groups, decl.hasResolvedBinding = true := by
  have each (decl : Decl) (_ : decl ∈ decls) {state next : Analysis} {result : Decl}
      (same : state.symbols.types.structs = before.symbols.types.structs)
      (stepped : bindGroup decl state = .ok result next) :
      next.symbols.types.structs = before.symbols.types.structs ∧ result.hasResolvedBinding = true := by
    obtain ⟨kept, resolved, -⟩ := bindGroup_resolved stepped
    exact ⟨kept.trans same, resolved⟩
  obtain ⟨same, resolved⟩ := mapM_eq_ok each rfl reached
  have mapped : groups.map Decl.structName? = decls.map Decl.structName? :=
    map_eq_of_mapM (fun _ {_ _ _} stepped => (bindGroup_resolved stepped).2.2) reached
  have listed := congrArg (List.filterMap id) mapped
  simp only [List.filterMap_map, Function.id_comp] at listed
  exact ⟨same, listed, resolved⟩

/-- **What the resolution of members brings about holds of all structs after the third pass**, if it held of those
that were there before the first. -/
theorem structs_of_passes {good : StructDecl → Prop} {decls groups structs : List Decl}
    {start named bound resolved : Analysis}
    (makes : ∀ ⦃types : TypeTable⦄ ⦃decl resolved : StructDecl⦄,
      types.resolveStruct decl = .ok resolved → good resolved)
    (known : ∀ ⦃name : String⦄ ⦃decl : StructDecl⦄, start.symbols.types.structs.find? name = some decl → good decl)
    (registered : decls.forM registerName start = .ok () named)
    (binding : decls.mapM bindGroup named = .ok groups bound)
    (resolving : groups.mapM resolveMembers bound = .ok structs resolved) ⦃name : String⦄ ⦃decl : StructDecl⦄
    (found : resolved.symbols.types.structs.find? name = some decl) : good decl := by
  have atFirst : start.symbols.types.StructsBut good (Decl.structNames decls) := fun _ _ there => Or.inl (known there)
  have enters (decl : Decl) (mem : decl ∈ decls) {before after : Analysis}
      (holds : before.symbols.types.StructsBut good (Decl.structNames decls))
      (stepped : registerName decl before = .ok () after) :
      after.symbols.types.StructsBut good (Decl.structNames decls) :=
    registerName_structsBut (fun _ own => List.mem_filterMap.mpr ⟨decl, mem, own⟩) holds stepped
  have entered := forM_eq_ok enters atFirst registered
  obtain ⟨same, names, -⟩ := bindGroups_structs binding
  have pending : bound.symbols.types.StructsBut good (Decl.structNames groups) := by
    intro name decl there
    rw [names]
    rw [same] at there
    exact entered there
  have settles (decl : Decl) (rest : List Decl) {before after : Analysis} {result : Decl}
      (holds : before.symbols.types.StructsBut good (Decl.structNames (decl :: rest)))
      (stepped : resolveMembers decl before = .ok result after) :
      after.symbols.types.StructsBut good (Decl.structNames rest) ∧ True :=
    ⟨resolveMembers_structsBut makes holds stepped, trivial⟩
  obtain ⟨settled, -⟩ := mapM_along
    (fun rest state => state.symbols.types.StructsBut good (Decl.structNames rest)) settles pending resolving
  rcases settled found with holds | waiting
  · exact holds
  · cases waiting

/-- **From resolved tables, the check of a unit annotates all of it and leaves resolved tables.** -/
theorem declarations_annotated {decls annotated : List Decl} (known : before.symbols.Resolved)
    (reached : declarations decls before = .ok annotated after) :
    after.symbols.Resolved ∧ ∀ decl ∈ annotated, decl.isAnnotated = true := by
  obtain ⟨named, bound, resolved, closed, groups, structs, signatures, registered, binding, resolving,
    functions, collecting, checking⟩ := declarations_eq_ok reached
  have types : resolved.symbols.types.Resolved :=
    structs_of_passes (fun _ _ _ made => (TypeTable.resolved_resolveStruct made).2) known.1 registered binding resolving
  obtain ⟨-, -, bindings⟩ := bindGroups_structs binding
  have members := (mapM_eq_ok (fun decl mem {_ _ _} (_ : True) stepped =>
    ⟨trivial, resolveMembers_resolved (bindings decl mem) stepped⟩) trivial resolving).2
  obtain ⟨kept, signed⟩ := mapM_eq_ok
    (fun decl mem {_ _ _} known => collect_resolved known (members decl mem).1 (members decl mem).2)
    ⟨rfl, functions.symm ▸ known.2⟩ collecting
  obtain ⟨⟨same, last⟩, filled⟩ := mapM_eq_ok
    (fun decl mem {_ _ _} known =>
      checkBody_annotated types known (signed decl mem).1 (signed decl mem).2.1 (signed decl mem).2.2)
    kept checking
  exact ⟨⟨same ▸ types, last⟩, filled⟩

end Analysis

/-! ## Sessions -/

namespace Session

/-- **The states of a session that has accepted every unit so far.** -/
inductive Accepting : Session → Prop
  | initial : Accepting .initial
  | add {session after : Session} {unit annotated : SourceUnit} (accepting : Accepting session)
      (accepted : session.addUnit unit = (.ok annotated, after)) : Accepting after

/-- The tables that every check starts from are resolved. -/
theorem resolved_initial : Symbols.initial.Resolved := by
  refine ⟨fun name decl found => ?_, FunctionTable.every_empty _⟩
  cases found

/-- **So are those of every session that has accepted all units.** -/
theorem Accepting.resolved {session : Session} (accepting : session.Accepting) :
    session.symbols.Resolved := by
  induction accepting with
  | initial => exact resolved_initial
  | add _ accepted ih =>
    obtain ⟨analysis, checked, symbols⟩ := addUnit_eq_ok accepted
    rw [symbols]
    exact (Analysis.declarations_annotated ih checked).1

/-- **Annotation is complete.** While a session has rejected nothing, each unit that it accepts comes back as it was
given but with every slot filled and every type resolved, whatever types were written. -/
theorem addUnit_annotated {session after : Session} {unit annotated : SourceUnit}
    (accepting : session.Accepting) (accepted : session.addUnit unit = (.ok annotated, after)) :
    annotated.erased = unit.withOrigins.erased ∧ ∀ decl ∈ annotated.declarations, decl.isAnnotated = true := by
  refine ⟨erased_eq accepted, ?_⟩
  obtain ⟨analysis, checked, -⟩ := addUnit_eq_ok accepted
  exact (Analysis.declarations_annotated accepting.resolved checked).2

theorem twiceUnit_annotated : ∃ annotated after,
    initial.addUnit twiceUnit = (.ok annotated, after) ∧ annotated.erased = twiceUnit.withOrigins.erased ∧
      ∀ decl ∈ annotated.declarations, decl.isAnnotated = true := by
  obtain ⟨annotated, after, accepted⟩ := accepts_twiceUnit
  exact ⟨annotated, after, accepted, addUnit_annotated .initial accepted⟩

end Session

end DeclCheck
