import DeclCheck.Proofs.Defects.Written
import DeclCheck.Proofs.Naming.Catalogue
import DeclCheck.Proofs.Placeholders.Acceptance
import DeclCheck.Proofs.Resolution.Faults

/-!
# Closed signatures

Two walks over the parameter types of a function have to agree. The first collects the placeholders that the parameters
introduce, and the second resolves the types with these among the generic names. Here the first walk is read as a list:
the names that are written without arguments, in order of occurrence, of which those count that have the form of a
placeholder and that no table knows. What the second walk refuses is traced to a *fault*, a part that is refused
although all its arguments are resolved. No bare name of the form of a placeholder is ever at fault: either a table
knows it, or it was declared, or the first walk has collected it.

Signatures with types that no source text spells are left out, and so are the bodies.
-/

namespace DeclCheck

/-! ## Names without arguments -/

namespace Ty

mutual

/-- **The names that are written without arguments**, in order of occurrence. -/
def bareNames : Ty → List String
  | .atom _ _ => []
  | .app (.unresolved name _) [] _ => [name]
  | .app _ args _ => allBareNames args

/-- The names that are written without arguments in several types. -/
def allBareNames : List Ty → List String
  | [] => []
  | ty :: rest => ty.bareNames ++ allBareNames rest

end

theorem mem_allBareNames {types : List Ty} {name : String} :
    name ∈ allBareNames types ↔ ∃ ty ∈ types, name ∈ ty.bareNames := by
  induction types with
  | nil => simp [allBareNames]
  | cons ty rest ih => simp [allBareNames, ih]

theorem bareNames_cons (ctor : Ctor) (arg : Ty) (rest : List Ty) (nullable : Bool) :
    (Ty.app ctor (arg :: rest) nullable).bareNames = allBareNames (arg :: rest) := by
  cases ctor <;> rfl

theorem mem_bareNames_of_mem_args {ty arg : Ty} {name : String} (listed : arg ∈ ty.args)
    (bare : name ∈ arg.bareNames) : name ∈ ty.bareNames := by
  cases ty with
  | atom shape nullable => cases listed
  | app ctor args nullable =>
    cases args with
    | nil => cases listed
    | cons first rest =>
      rw [bareNames_cons]
      exact mem_allBareNames.mpr ⟨arg, listed, bare⟩

/-- A name that stands bare somewhere in a type is one of its bare names. -/
theorem mem_bareNames_of_part? {ty : Ty} {path : List Nat} {name : String} {location : Location} {nullable : Bool}
    (found : ty.part? path = some (.app (.unresolved name location) [] nullable)) : name ∈ ty.bareNames := by
  induction path generalizing ty with
  | nil =>
    cases found
    exact List.mem_singleton.mpr rfl
  | cons position path ih =>
    obtain ⟨arg, given, inner⟩ := Option.bind_eq_some_iff.mp found
    exact mem_bareNames_of_mem_args (List.mem_of_getElem? given) (ih inner)

theorem isWritten_of_mem_args {ty arg : Ty} (written : ty.isWritten = true) (listed : arg ∈ ty.args) :
    arg.isWritten = true := by
  have all := allWritten_args written
  generalize ty.args = args at all listed
  induction args with
  | nil => cases listed
  | cons first rest ih =>
    rw [allWritten, Bool.and_eq_true] at all
    rcases List.mem_cons.mp listed with rfl | later
    · exact all.1
    · exact ih all.2 later

/-- The parts of a type as it is written are as they are written. -/
theorem isWritten_part? {ty part : Ty} {path : List Nat} (written : ty.isWritten = true)
    (found : ty.part? path = some part) : part.isWritten = true := by
  induction path generalizing ty with
  | nil =>
    cases found
    exact written
  | cons position path ih =>
    obtain ⟨arg, given, inner⟩ := Option.bind_eq_some_iff.mp found
    exact ih (isWritten_of_mem_args written (List.mem_of_getElem? given)) inner

end Ty

/-! ## Collected placeholders -/

/-- Names that are added one by one come once, in order of first occurrence, after those that were there. -/
theorem foldl_addName (more names : List String) :
    more.foldl addName names = names ++ (more.filter (· ∉ names)).eraseDups := by
  induction more generalizing names with
  | nil => simp
  | cons name rest ih =>
    rw [List.foldl_cons, ih]
    by_cases there : name ∈ names
    · simp [addName, there]
    · have others : rest.filter (· ∉ names ++ [name]) =
          (rest.filter (· ∉ names)).filter (fun other => !other == name) := by
        rw [List.filter_filter]
        apply List.filter_congr
        intro other _
        by_cases same : other = name <;> simp [same]
      simp only [addName, there, if_false, List.filter_cons, not_false_iff, decide_true, if_true,
        List.eraseDups_cons, others, List.append_assoc, List.singleton_append]

/-- Names that were collected apart are added as if they were added one by one. -/
theorem foldl_addName_foldl (more start names : List String) :
    (more.foldl addName start).foldl addName names = more.foldl addName (start.foldl addName names) := by
  induction more generalizing start with
  | nil => rfl
  | cons name rest ih =>
    rw [List.foldl_cons, ih, List.foldl_cons]
    congr 1
    by_cases there : name ∈ start
    · have known : name ∈ start.foldl addName names := by
        rw [foldl_addName, List.mem_append, List.mem_eraseDups, List.mem_filter]
        by_cases old : name ∈ names
        · exact Or.inl old
        · exact Or.inr ⟨there, decide_eq_true old⟩
      simp only [addName, there, known, if_true]
    · simp only [addName, there, if_false, List.foldl_append, List.foldl_cons, List.foldl_nil]

namespace TypeTable

/-- Whether a bare name introduces a placeholder: it has the form of one and no other meaning. -/
def introduces (types : TypeTable) (name : String) : Bool := looksGeneric name && (types.meaning? name).isNone

mutual

/-- **The placeholders that a type introduces are among its bare names.** -/
theorem implicitGenerics_eq (types : TypeTable) : ∀ (ty : Ty) (names : List String),
    types.implicitGenerics names ty = (ty.bareNames.filter types.introduces).foldl addName names
  | .atom _ _, _ => rfl
  | .app (.unresolved name _) [] _, names => by
    by_cases counts : types.introduces name = true
    · have met : (looksGeneric name && (types.meaning? name).isNone) = true := counts
      simp [implicitGenerics, Ty.bareNames, counts, met]
    · have missed : ¬ (looksGeneric name && (types.meaning? name).isNone) = true := counts
      simp [implicitGenerics, implicitGenericsAll, Ty.bareNames, counts, missed]
  | .app (.unresolved _ _) (arg :: rest) _, names => by
    rw [Ty.bareNames_cons, ← implicitGenericsAll_eq types (arg :: rest)]
    rfl
  | .app (.builtin _) args _, names => implicitGenericsAll_eq types args names
  | .app (.struct _) args _, names => implicitGenericsAll_eq types args names

theorem implicitGenericsAll_eq (types : TypeTable) : ∀ (written : List Ty) (names : List String),
    types.implicitGenericsAll names written =
      ((Ty.allBareNames written).filter types.introduces).foldl addName names
  | [], _ => rfl
  | ty :: rest, names => by
    rw [implicitGenericsAll, implicitGenerics_eq types ty, implicitGenericsAll_eq types rest, Ty.allBareNames,
      List.filter_append, List.foldl_append]

end

end TypeTable

namespace FunctionDecl

/-- **The placeholders that the parameters of a function introduce**, at all places where they stand: bare names of the
form of a placeholder that mean nothing else and are not declared. -/
def introducedNames (types : TypeTable) (decl : FunctionDecl) : List String :=
  (decl.params.flatMap (·.ty.bareNames)).filter fun name => types.introduces name && name ∉ decl.genericNames

theorem map_addImplicitGenerics (types : TypeTable) (generics : List GenericParam) (param : Param) :
    (addImplicitGenerics types generics param).map (·.name.name) =
      (param.ty.bareNames.filter types.introduces).foldl addName (generics.map (·.name.name)) := by
  have collected : types.implicitGenerics [] param.ty =
      (param.ty.bareNames.filter types.introduces).foldl addName [] := types.implicitGenerics_eq param.ty []
  have same := foldl_addName_foldl (param.ty.bareNames.filter types.introduces) [] (generics.map (·.name.name))
  rw [List.foldl_nil, ← collected] at same
  rw [← same, addImplicitGenerics]
  refine (List.foldl_hom (List.map fun generic : GenericParam => generic.name.name) fun known name => ?_).symm
  have listed : known.any (·.name.name == name) = true ↔ name ∈ known.map (·.name.name) := by
    simp [List.any_eq_true]
  by_cases there : known.any (·.name.name == name) = true
  · rw [if_pos there, addName, if_pos (listed.mp there)]
  · rw [if_neg there, addName, if_neg fun mem => there (listed.mpr mem), List.map_append]
    rfl

/-- **The generic names of a closed signature**: those declared, and then those that the parameters introduce, each
once and in order of first occurrence. -/
theorem closedNames_eq (types : TypeTable) (decl : FunctionDecl) :
    closedNames types decl = decl.genericNames ++ (decl.introducedNames types).eraseDups := by
  have folded : closedNames types decl =
      decl.params.foldl (fun names param => (param.ty.bareNames.filter types.introduces).foldl addName names)
        decl.genericNames :=
    (List.foldl_hom (List.map fun generic : GenericParam => generic.name.name)
      fun generics param => (map_addImplicitGenerics types generics param).symm).symm
  rw [folded, ← List.foldl_flatMap, foldl_addName, ← List.filter_flatMap, List.filter_filter, introducedNames]
  congr 3
  funext name
  exact Bool.and_comm _ _

theorem mem_closedNames {types : TypeTable} {decl : FunctionDecl} {param : Param} {name : String}
    (listed : param ∈ decl.params) (bare : name ∈ param.ty.bareNames) (counts : types.introduces name = true) :
    name ∈ closedNames types decl := by
  rw [closedNames_eq, List.mem_append, List.mem_eraseDups]
  by_cases declared : name ∈ decl.genericNames
  · exact Or.inl declared
  · refine Or.inr (List.mem_filter.mpr ⟨List.mem_flatMap.mpr ⟨param, listed, bare⟩, ?_⟩)
    rw [counts, decide_eq_true declared]
    rfl

end FunctionDecl

/-! ## Closing a signature -/

namespace FunctionDecl

variable {types : TypeTable} {decl : FunctionDecl} {param : Param} {path : List Nat} {name : String}
  {location : Location}

/-- **A bare name of the form of a placeholder is resolved wherever it stands in a parameter type.** -/
theorem exists_resolve_bare (types : TypeTable) {nullable : Bool} (listed : param ∈ decl.params)
    (found : param.ty.part? path = some (.app (.unresolved name location) [] nullable))
    (placeholder : looksGeneric name = true) :
    ∃ ty, types.resolve (closedNames types decl) (.app (.unresolved name location) [] nullable) = .ok ty := by
  by_cases own : name ∈ closedNames types decl
  · refine ⟨.atom (.generic name location) nullable, ?_⟩
    simp [TypeTable.resolve, own]
  · cases meant : types.meaning? name with
    | some meaning => exact ⟨_, TypeTable.resolve_of_meaning meant own location nullable⟩
    | none =>
      have counts : types.introduces name = true := by simp [TypeTable.introduces, placeholder, meant]
      exact absurd (mem_closedNames listed (Ty.mem_bareNames_of_part? found) counts) own

/-- Where a parameter type is refused for a generic name, the name at fault has arguments. -/
theorem exists_applied_of_faultAt {part : Ty} {suggestions : List String} (listed : param ∈ decl.params)
    (written : param.ty.isWritten = true)
    (fault : types.FaultAt (closedNames types decl) param.ty path part
      (.found (.undefinedGeneric name suggestions) location)) :
    ∃ args nullable, part = .app (.unresolved name location) args nullable ∧ args ≠ [] := by
  have spelled := Ty.isWritten_part? written fault.found
  cases part with
  | atom shape nullable =>
    cases shape with
    | void => cases fault.refused
    | generic | enum | group => cases spelled
  | app ctor args nullable =>
    cases ctor with
    | builtin | struct => cases spelled
    | unresolved own place =>
      rcases TypeTable.refusal_of_arguments fault.refused fault.arguments with same | ⟨_, _, _, same⟩
      · unfold TypeTable.undefinedName at same
        split at same
        · rename_i placeholder
          cases same
          refine ⟨args, nullable, rfl, ?_⟩
          rintro rfl
          obtain ⟨ty, resolved⟩ := exists_resolve_bare types listed fault.found placeholder
          rw [fault.refused] at resolved
          cases resolved
        · cases same
      · cases same

/-- **Why a signature is refused for a generic name**: the type of a restriction is; or a parameter type is, for a name
with arguments; or the return type is; or all types are resolved, and the return type mentions a placeholder that no
parameter does. -/
inductive RefusedFor (types : TypeTable) (decl : FunctionDecl) (name : String) (error : Error) : Prop
  | restriction {generic : GenericParam} {constraint : Ty} (listed : generic ∈ decl.generics)
      (given : generic.constraint = some constraint) (refused : types.resolve [] constraint = .error error)
  | parameter {param : Param} {path : List Nat} {location : Location} {args : List Ty} {nullable : Bool}
      (listed : param ∈ decl.params)
      (fault : types.FaultAt (closedNames types decl) param.ty path (.app (.unresolved name location) args nullable)
        error)
      (applied : args ≠ [])
  | result (refused : types.resolve (closedNames types decl) decl.returnType = .error error)
  | unbound {ty : Ty} (resolved : types.resolve (closedNames types decl) decl.returnType = .ok ty)
      (mentioned : name ∈ ty.genericNames)
      (unmentioned : ∀ param ∈ decl.params, ∃ own, types.resolve (closedNames types decl) param.ty = .ok own ∧
        name ∉ own.genericNames)

/-- A restriction that is refused is one of those given, for what parameters introduce is not restricted. -/
theorem exists_restriction_of_mapM {error : Error}
    (restricted : (closedGenerics types decl).mapM (resolveConstraint types) = .error error) :
    ∃ generic ∈ decl.generics, ∃ constraint, generic.constraint = some constraint ∧
      types.resolve [] constraint = .error error := by
  obtain ⟨generic, listed, refused⟩ := exists_of_mapM_eq_error restricted
  unfold resolveConstraint at refused
  split at refused
  · cases refused
  · rename_i constraint given
    obtain ⟨implicit, same, added⟩ := closedGenerics_eq_append types decl
    rw [same] at listed
    rcases List.mem_append.mp listed with own | new
    · rcases bind_eq_error.mp refused with failed | ⟨_, -, made⟩
      · exact ⟨generic, own, constraint, given, failed⟩
      · cases made
    · rw [(added generic new).1] at given
      cases given

/-- **A signature that is refused for a generic name** is refused for one of these reasons. -/
theorem refusedFor_of_close {suggestions : List String} (written : decl.hasWrittenSignature = true)
    (closing : decl.close types = .error (.found (.undefinedGeneric name suggestions) location)) :
    decl.RefusedFor types name (.found (.undefinedGeneric name suggestions) location) := by
  simp only [hasWrittenSignature, Bool.and_eq_true, List.all_eq_true] at written
  rcases bind_eq_error.mp closing with restricted | ⟨generics, -, next⟩
  · obtain ⟨generic, listed, constraint, given, refused⟩ := exists_restriction_of_mapM restricted
    exact .restriction listed given refused
  · rcases bind_eq_error.mp next with params | ⟨params, each, next⟩
    · obtain ⟨param, listed, refused⟩ := exists_of_mapM_eq_error params
      rcases bind_eq_error.mp refused with failed | ⟨_, -, made⟩
      · obtain ⟨path, part, fault⟩ := TypeTable.exists_faultAt param.ty failed
        obtain ⟨args, nullable, rfl, applied⟩ :=
          exists_applied_of_faultAt listed (written.1.1 param listed) fault
        exact .parameter listed fault applied
      · cases made
    · rcases bind_eq_error.mp next with returned | ⟨returnType, returned, made⟩
      · exact .result returned
      · dsimp only at made
        split at made
        · cases made
        · rename_i unbound
          cases made
          have mem : name ∈ unboundReturnNames { decl with generics, params, returnType } := by
            rw [unbound]
            exact List.mem_cons_self
          obtain ⟨mentioned, alone⟩ := List.mem_filter.mp mem
          refine .unbound returned mentioned fun param listed => ?_
          obtain ⟨resolved, there, stepped⟩ := exists_result_of_mapM_eq_ok each param listed
          obtain ⟨own, found, made⟩ := bind_eq_ok.mp stepped
          cases made
          refine ⟨own, found, fun inside => ?_⟩
          have some : params.any (fun param => decide (name ∈ param.ty.genericNames)) = true :=
            List.any_eq_true.mpr ⟨_, there, decide_eq_true inside⟩
          rw [some] at alone
          cases alone

end FunctionDecl

/-! ## What a closed signature has -/

/-- **Whether a name is unknown to the tables**: no type in the lattice has it, no struct and no enum is listed under
it, and it means no builtin. -/
structure TypeTable.Unknown (types : TypeTable) (name : String) : Prop where
  lattice : ∀ ty ∈ types.lattice.types, ty.name? ≠ some name
  structs : types.structs.contains name = false
  enums : types.enums.contains name = false
  builtins : Builtin.ofName? name = none

/-- Where the lattice holds only what names can mean, a name without a meaning is unknown. -/
theorem TypeTable.Catalogued.unknown_of_meaning {types : TypeTable} (catalogued : types.Catalogued) {name : String}
    (unmeant : types.meaning? name = none) : types.Unknown name := by
  cases located : types.lattice.find? name with
  | some found =>
    have listed : found ∈ types.lattice.types := List.mem_of_find?_eq_some located
    have named : found.name? = some name := by simpa using List.find?_some located
    obtain ⟨meaning, meant⟩ := Head.exists_meaning (catalogued.meant _ (List.mem_map_of_mem listed)) named
    simp only [meaning?, located, meant] at unmeant
    cases unmeant
  | none =>
    simp only [meaning?, located] at unmeant
    split at unmeant
    · cases unmeant
    · rename_i noEnum
      split at unmeant
      · cases unmeant
      · rename_i noStruct
        refine ⟨fun ty mem same => ?_, Bool.eq_false_iff.mpr noStruct, Bool.eq_false_iff.mpr noEnum,
          Option.map_eq_none_iff.mp unmeant⟩
        exact List.find?_eq_none.mp located ty mem (beq_iff_eq.mpr same)

namespace FunctionDecl

variable {types : TypeTable} {decl closed : FunctionDecl}

/-- **Whether a generic parameter is one that the parameters of a function introduce**: it is not restricted, and its
name is of the form of a placeholder, unknown to the tables, and written bare in some parameter type. -/
structure Introduces (types : TypeTable) (decl : FunctionDecl) (generic : GenericParam) : Prop where
  unrestricted : generic.constraint = none
  placeholder : looksGeneric generic.name.name = true
  unknown : types.Unknown generic.name.name
  bare : ∃ param ∈ decl.params, generic.name.name ∈ param.ty.bareNames

/-- **Whether a signature is a closed form of another.** All placeholders that it mentions are generic parameters, and
those of the return type are mentioned by some parameter. Its generic parameters are those given, followed by those
that the parameters introduce, each once and in order of first occurrence. -/
structure ClosesTo (types : TypeTable) (decl closed : FunctionDecl) : Prop where
  params : ∀ param ∈ closed.params, ∀ name ∈ param.ty.genericNames, name ∈ closed.genericNames
  result : ∀ name ∈ closed.returnType.genericNames, name ∈ closed.genericNames ∧
    ∃ param ∈ closed.params, name ∈ param.ty.genericNames
  generics : ∃ given implicit, closed.generics = given ++ implicit ∧
    given.map (·.name) = decl.generics.map (·.name) ∧
    implicit.map (·.name.name) = (decl.introducedNames types).eraseDups ∧
    ∀ generic ∈ implicit, decl.Introduces types generic

/-- Generic parameters without restrictions stay as they are. -/
theorem mapM_resolveConstraint_of_none {generics : List GenericParam}
    (unrestricted : ∀ generic ∈ generics, generic.constraint = none) :
    generics.mapM (resolveConstraint types) = .ok generics := by
  induction generics with
  | nil => rfl
  | cons generic rest ih =>
    have own : resolveConstraint types generic = .ok generic := by
      rw [resolveConstraint, unrestricted generic List.mem_cons_self]
    rw [List.mapM_cons, own, ih fun other mem => unrestricted other (List.mem_cons_of_mem _ mem)]
    rfl

/-- The generic parameters that the parameters of a function introduce come behind those that are given. -/
theorem exists_introduced_of_close (catalogued : types.Catalogued) (closing : decl.close types = .ok closed) :
    ∃ given implicit, closed.generics = given ++ implicit ∧ given.map (·.name) = decl.generics.map (·.name) ∧
      implicit.map (·.name.name) = (decl.introducedNames types).eraseDups ∧
      ∀ generic ∈ implicit, decl.Introduces types generic := by
  obtain ⟨generics, params, returnType, restricted, -, -, rfl, -⟩ := close_eq_ok closing
  obtain ⟨implicit, same, added⟩ := closedGenerics_eq_append types decl
  have unrestricted : ∀ generic ∈ implicit, generic.constraint = none := fun generic mem => (added generic mem).1
  rw [same, List.mapM_append] at restricted
  obtain ⟨given, resolving, later⟩ := bind_eq_ok.mp restricted
  rw [mapM_resolveConstraint_of_none unrestricted] at later
  cases later
  have names : implicit.map (·.name.name) = (decl.introducedNames types).eraseDups := by
    have split := closedNames_eq types decl
    rw [closedNames, same, List.map_append] at split
    exact List.append_cancel_left split
  refine ⟨given, implicit, rfl, map_eq_of_mapM_eq_ok (fun _ => name_resolveConstraint) resolving, names, ?_⟩
  intro generic mem
  have listed : generic.name.name ∈ implicit.map (·.name.name) := List.mem_map_of_mem mem
  rw [names, List.mem_eraseDups, introducedNames, List.mem_filter, Bool.and_eq_true, TypeTable.introduces,
    Bool.and_eq_true] at listed
  obtain ⟨bare, ⟨placeholder, unmeant⟩, -⟩ := listed
  exact ⟨unrestricted generic mem, placeholder,
    catalogued.unknown_of_meaning (Option.isNone_iff_eq_none.mp unmeant), List.mem_flatMap.mp bare⟩

/-- **A signature that closes is closed.** -/
theorem closesTo_of_close (catalogued : types.Catalogued) (closing : decl.close types = .ok closed) :
    decl.ClosesTo types closed := by
  obtain ⟨owns, returns⟩ := close_placeholders closing
  refine ⟨fun param mem => owns _ (List.mem_map_of_mem mem), fun name mentioned => ?_,
    exists_introduced_of_close catalogued closing⟩
  obtain ⟨ty, mem, inside⟩ := returns name mentioned
  obtain ⟨param, listed, rfl⟩ := List.mem_map.mp mem
  exact ⟨owns _ mem name inside, param, listed, inside⟩

end FunctionDecl

/-! ## Sessions -/

namespace Session

/-- **Collecting a function closes its signature**, in every state of a session. If it succeeds the signature is
closed. A bare name of the form of a placeholder is resolved wherever it stands in a parameter type. So if a function is
refused for a generic name, a parameter can be the reason only by a name that has arguments. -/
theorem Reachable.collect_closes {session : Session} (reachable : session.Reachable) (decl : FunctionDecl)
    (written : decl.hasWrittenSignature = true) :
    let types := session.symbols.types
    (∀ result after, Analysis.collect (.function decl) (.start session.symbols) = .ok result after →
      ∃ closed, result = .function closed ∧ decl.ClosesTo types closed) ∧
    (∀ param ∈ decl.params, ∀ path name location nullable,
      param.ty.part? path = some (.app (.unresolved name location) [] nullable) → looksGeneric name = true →
      ∃ ty, types.resolve (decl.closedNames types) (.app (.unresolved name location) [] nullable) = .ok ty) ∧
    (∀ name suggestions location after,
      Analysis.collect (.function decl) (.start session.symbols) =
        .error (.found (.undefinedGeneric name suggestions) location) after →
      decl.RefusedFor types name (.found (.undefinedGeneric name suggestions) location)) := by
  intro types
  refine ⟨?_, ?_, ?_⟩
  · intro result after collected
    obtain ⟨closed, closing, same, -⟩ := Analysis.collect_function_eq_ok collected
    exact ⟨closed, same, FunctionDecl.closesTo_of_close reachable.catalogued closing⟩
  · intro param listed path name location nullable found placeholder
    exact FunctionDecl.exists_resolve_bare types listed found placeholder
  · intro name suggestions location after collected
    cases closing : decl.close types with
    | ok closed =>
      rw [Analysis.collect_of_close closing] at collected
      cases collected
    | error error =>
      rw [Analysis.collect_of_close_error closing] at collected
      cases collected
      exact FunctionDecl.refusedFor_of_close written closing

/-- A function with one declared placeholder, which is restricted, and two more that its parameters introduce. -/
def zip : FunctionDecl where
  signature := [⟨"zip", .nowhere⟩]
  affix := .between
  returnType := Ty.written "Tuple" [Ty.written "U" [], Ty.written "K" []]
  params :=
    [⟨⟨"left", .nowhere⟩, Ty.written "List" [Ty.written "T" []], false⟩,
      ⟨⟨"right", .nowhere⟩, Ty.written "Tuple" [Ty.written "U" [], Ty.written "T" [], Ty.written "K" []], false⟩]
  body := []
  generics := [⟨⟨"K", .nowhere⟩, some (Ty.written "Number" [])⟩]
  origin := ""
  location := .nowhere

/-- The function with a parameter in whose type a placeholder is given an argument. -/
def zipApplied : FunctionDecl :=
  { zip with params := [⟨⟨"left", .nowhere⟩, Ty.written "List" [Ty.written "T" [Ty.written "U" []]], false⟩] }

/-- The signature of `zip` is closed, with its three generic names in order. With a parameter of type `List{T{U}}` it
is refused for the name that has an argument, and not for the one inside. -/
theorem collect_closes_zip :
    Session.initial.Reachable ∧ zip.hasWrittenSignature = true ∧ zipApplied.hasWrittenSignature = true ∧
    (∃ closed after, Analysis.collect (.function zip) (.start Session.initial.symbols) = .ok (.function closed) after ∧
      zip.ClosesTo Session.initial.symbols.types closed ∧ closed.genericNames = ["K", "T", "U"]) ∧
    zipApplied.RefusedFor Session.initial.symbols.types "T" (.found (.undefinedGeneric "T" ["K", "U"]) .nowhere) := by
  have reachable : Session.initial.Reachable := .initial
  have collected : ∃ closed after, Analysis.collect (.function zip) (.start Session.initial.symbols) =
      .ok (.function closed) after ∧ closed.genericNames = ["K", "T", "U"] := ⟨_, _, rfl, rfl⟩
  obtain ⟨closed, after, done, names⟩ := collected
  obtain ⟨other, same, closes⟩ := (reachable.collect_closes zip rfl).1 _ after done
  cases same
  refine ⟨reachable, rfl, rfl, ⟨closed, after, done, closes, names⟩, ?_⟩
  exact (reachable.collect_closes zipApplied rfl).2.2 "T" ["K", "U"] .nowhere _ rfl

end Session

end DeclCheck
