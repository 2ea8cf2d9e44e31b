import DeclCheck.Check.Signature
import DeclCheck.Proofs.Locations.Overloads

/-!
# The type tables without locations

Declared types are entered, found and resolved by name. Where they were declared is shown in errors only, and what
source file they came from is no location: an error about a second declaration names the file of the first.
-/

namespace DeclCheck

/-! ## Declared types -/

/-- The member written nowhere. -/
def Member.unplaced (member : Member) : Member := ⟨member.name.unplaced, member.ty.unplaced⟩

/-- The struct written nowhere. -/
def StructDecl.unplaced (decl : StructDecl) : StructDecl where
  name := decl.name.unplaced
  members := decl.members.map Member.unplaced
  generics := decl.generics.map Ident.unplaced
  origin := decl.origin
  location := .nowhere

/-- The enum written nowhere. -/
def EnumDecl.unplaced (decl : EnumDecl) : EnumDecl where
  name := decl.name.unplaced
  cases := decl.cases.map Ident.unplaced
  origin := decl.origin
  location := .nowhere

/-- The group written nowhere. -/
def GroupDecl.unplaced (decl : GroupDecl) : GroupDecl := ⟨decl.name.unplaced, decl.origin, .nowhere⟩

/-- The group binding written nowhere. -/
def GroupBinding.unplaced (binding : GroupBinding) : GroupBinding :=
  ⟨binding.child.unplaced, binding.parent.unplaced, binding.origin, .nowhere⟩

namespace StructDecl

variable (decl : StructDecl)

/-- A struct keeps the names of its placeholders. -/
@[simp] theorem genericNames_unplaced : decl.unplaced.genericNames = decl.genericNames := by
  simp only [genericNames, unplaced, List.map_map]
  rfl

/-- It keeps the names of its members. -/
@[simp] theorem memberNames_unplaced : decl.unplaced.memberNames = decl.memberNames := by
  simp only [memberNames, unplaced, List.map_map]
  rfl

/-- A member is found under the same name. -/
@[simp] theorem member?_unplaced (name : String) :
    decl.unplaced.member? name = (decl.member? name).map Member.unplaced := by
  simp only [member?, unplaced, List.find?_map]
  rfl

end StructDecl

/-- An enum keeps its cases. -/
@[simp] theorem EnumDecl.hasCase_unplaced (decl : EnumDecl) (case : String) :
    decl.unplaced.hasCase case = decl.hasCase case := by
  simp only [hasCase, unplaced, List.any_map]
  rfl

/-- What a name means has no place. -/
theorem Meaning.applied_unplaced (meaning : Meaning) (args : List Ty) (nullable : Bool) :
    meaning.applied (args.map Ty.unplaced) nullable = (meaning.applied args nullable).unplaced := by
  cases meaning <;> simp only [applied, Ty.unplaced, Ty.allUnplaced_eq_map] <;> rfl

/-! ## Entering names -/

namespace TypeTable

/-- **The tables without the places of what they hold.** -/
def unplaced (types : TypeTable) : TypeTable where
  lattice := types.lattice.unplaced
  structs := types.structs.mapValues StructDecl.unplaced
  enums := types.enums.mapValues EnumDecl.unplaced

variable (types : TypeTable)

/-- Placeholders that were never written have none. -/
theorem unplaced_generics (names : List String) : (names.map Ty.generic).map Ty.unplaced = names.map Ty.generic := by
  simp only [List.map_map]
  rfl

/-- A struct is registered, or refused, alike. -/
theorem registerStruct_unplaced (decl : StructDecl) :
    types.unplaced.registerStruct decl.unplaced = unplacing unplaced (types.registerStruct decl) := by
  have name : decl.unplaced.name.name = decl.name.name := rfl
  have node : (Ty.struct decl.name.name (decl.genericNames.map Ty.generic)).unplaced =
      Ty.struct decl.name.name (decl.genericNames.map Ty.generic) := by
    rw [Ty.struct, Ty.unplaced, Ty.allUnplaced_eq_map, unplaced_generics]
    rfl
  have attached := types.lattice.insert_unplaced
    (Ty.struct decl.name.name (decl.genericNames.map Ty.generic)) (Ty.builtin .struct)
  rw [node] at attached
  simp only [registerStruct, name, unplaced, Dict.find?_mapValues, StructDecl.genericNames_unplaced,
    Dict.insert_mapValues]
  cases types.structs.find? decl.name.name with
  | some previous => rfl
  | none =>
    simp only [Option.map_none, unplacing_ok, unplaced, ← attached]
    rfl

/-- It is replaced alike. -/
theorem updateStruct_unplaced (decl : StructDecl) :
    types.unplaced.updateStruct decl.unplaced = (types.updateStruct decl).unplaced := by
  simp only [updateStruct, unplaced]
  rw [← Dict.insert_mapValues]
  rfl

/-- An enum is registered, or refused, alike. -/
theorem registerEnum_unplaced (decl : EnumDecl) :
    types.unplaced.registerEnum decl.unplaced = unplacing unplaced (types.registerEnum decl) := by
  have name : decl.unplaced.name.name = decl.name.name := rfl
  simp only [registerEnum, name, unplaced, Dict.find?_mapValues, Dict.insert_mapValues]
  cases types.enums.find? decl.name.name with
  | some previous => rfl
  | none =>
    simp only [Option.map_none, unplacing_ok, unplaced, ← Lattice.insert_unplaced]
    rfl

/-- So is a group. -/
theorem registerGroup_unplaced (decl : GroupDecl) :
    types.unplaced.registerGroup decl.unplaced = unplacing unplaced (types.registerGroup decl) := by
  have known := types.lattice.contains_unplaced (Ty.group decl.name.name)
  have name : decl.unplaced.name.name = decl.name.name := rfl
  have node : (Ty.group decl.name.name).unplaced = Ty.group decl.name.name := rfl
  rw [node] at known
  simp only [registerGroup, name, unplaced, known]
  split
  · rfl
  · simp only [unplacing_ok, unplaced, ← Lattice.insert_unplaced]
    rfl

/-- A type is bound into a group alike. -/
theorem bindGroup?_unplaced (child parent : Ty) :
    types.unplaced.bindGroup? child.unplaced parent.unplaced = (types.bindGroup? child parent).map unplaced := by
  simp only [bindGroup?, unplaced, Lattice.insert?_unplaced, Option.map_map]
  rfl

/-- The same enum is the first with a case. -/
@[simp] theorem enumWithCase?_unplaced (case : String) :
    types.unplaced.enumWithCase? case = (types.enumWithCase? case).map EnumDecl.unplaced := by
  simp only [enumWithCase?, unplaced, Dict.values_mapValues, List.find?_map, Function.comp_def,
    EnumDecl.hasCase_unplaced]

/-- The names of all types are the same. -/
@[simp] theorem typeNames_unplaced : types.unplaced.typeNames = types.typeNames := by
  simp only [typeNames, unplaced, Lattice.types_unplaced, Dict.keys_mapValues, List.filterMap_map, Function.comp_def,
    Ty.name?_unplaced]

/-! ## Resolving written types -/

/-- Names mean the same. -/
@[simp] theorem meaning?_unplaced (name : String) : types.unplaced.meaning? name = types.meaning? name := by
  simp only [meaning?, unplaced, Lattice.find?_unplaced, Dict.contains_mapValues]
  cases types.lattice.find? name with
  | none => rfl
  | some found => simp only [Option.map_some, Ty.head_unplaced]

/-- A name without a meaning is reported with the same suggestions. -/
@[simp] theorem undefinedName_unplaced (generics : List String) (name : String) :
    types.unplaced.undefinedName generics name = (types.undefinedName generics name).unplaced := by
  simp only [undefinedName, typeNames_unplaced]
  split <;> rfl

/-- A wrong number of arguments is refused alike. -/
theorem checkTypeArguments_unplaced (ty : Ty) (location : Location) :
    types.unplaced.checkTypeArguments ty.unplaced .nowhere =
      unplacing id (types.checkTypeArguments ty location) := by
  cases ty with
  | atom shape nullable => rfl
  | app ctor args nullable =>
    cases ctor with
    | unresolved | builtin => rfl
    | struct name =>
      simp only [Ty.unplaced, Ctor.unplaced, checkTypeArguments, unplaced, Dict.find?_mapValues,
        Ty.allUnplaced_eq_map]
      cases types.structs.find? name with
      | none => rfl
      | some decl =>
        simp only [Option.map_some, StructDecl.unplaced, List.length_map, List.isEmpty_map]
        split <;> rfl

mutual

/-- **Where a type was written does not matter to what it is resolved to.** -/
theorem resolve_unplaced (generics : List String) : ∀ ty : Ty,
    types.unplaced.resolve generics ty.unplaced = unplacing Ty.unplaced (types.resolve generics ty)
  | .atom (.generic name location) nullable => by
    simp only [Ty.unplaced, Atom.unplaced, resolve]
    split <;> rfl
  | .atom .void _ => rfl
  | .atom (.enum _) _ => rfl
  | .atom (.group _) _ => rfl
  | .app (.unresolved name location) args nullable => by
    have each := resolveAll_unplaced generics args
    simp only [Ty.unplaced, Ctor.unplaced, resolve, Ty.allUnplaced_eq_map, List.isEmpty_map] at each ⊢
    split
    · rfl
    · refine unplacing_bind each fun found => ?_
      rw [meaning?_unplaced]
      cases types.meaning? name with
      | none => simp only [undefinedName_unplaced, unplacing_refuse]
      | some meaning =>
        dsimp only
        rw [Meaning.applied_unplaced]
        exact unplacing_bind (checkTypeArguments_unplaced types _ location) fun _ => rfl
  | .app (.builtin kind) args nullable => by
    have each := resolveAll_unplaced generics args
    simp only [Ty.unplaced, Ctor.unplaced, resolve]
    refine unplacing_bind each fun found => ?_
    simp only [unplacing_pure, Ty.unplaced, Ty.allUnplaced_eq_map, Ctor.unplaced]
  | .app (.struct name) args nullable => by
    have each := resolveAll_unplaced generics args
    simp only [Ty.unplaced, Ctor.unplaced, resolve]
    refine unplacing_bind each fun found => ?_
    simp only [unplacing_pure, Ty.unplaced, Ty.allUnplaced_eq_map, Ctor.unplaced]

/-- Several types are resolved alike. -/
theorem resolveAll_unplaced (generics : List String) : ∀ written : List Ty,
    types.unplaced.resolveAll generics (Ty.allUnplaced written) =
      unplacing (List.map Ty.unplaced) (types.resolveAll generics written)
  | [] => rfl
  | ty :: rest => by
    rw [Ty.allUnplaced, resolveAll, resolveAll]
    exact unplacing_bind (resolve_unplaced generics ty) fun first =>
      unplacing_bind (resolveAll_unplaced generics rest) fun others => rfl

end

/-- So are the members of a struct. -/
theorem resolveStruct_unplaced (decl : StructDecl) :
    types.unplaced.resolveStruct decl.unplaced = unplacing StructDecl.unplaced (types.resolveStruct decl) := by
  rw [resolveStruct, resolveStruct, StructDecl.genericNames_unplaced]
  refine unplacing_bind (unplacing_mapM Member.unplaced Member.unplaced (fun member => ?_) decl.members)
    fun members => rfl
  exact unplacing_bind (types.resolve_unplaced decl.genericNames member.ty) fun ty => rfl

mutual

/-- The same names are taken for placeholders. -/
theorem implicitGenerics_unplaced : ∀ (ty : Ty) (names : List String),
    types.unplaced.implicitGenerics names ty.unplaced = types.implicitGenerics names ty
  | .atom _ _, _ => rfl
  | .app (.unresolved name _) args _, names => by
    have inside := implicitGenericsAll_unplaced args names
    simp only [Ty.unplaced, Ctor.unplaced, implicitGenerics, meaning?_unplaced, inside]
    simp only [Ty.allUnplaced_eq_map, List.isEmpty_map]
  | .app (.builtin _) args _, names => implicitGenericsAll_unplaced args names
  | .app (.struct _) args _, names => implicitGenericsAll_unplaced args names

/-- The same in several types. -/
theorem implicitGenericsAll_unplaced : ∀ (written : List Ty) (names : List String),
    types.unplaced.implicitGenericsAll names (Ty.allUnplaced written) = types.implicitGenericsAll names written
  | [], _ => rfl
  | ty :: rest, names => by
    rw [Ty.allUnplaced, implicitGenericsAll, implicitGenericsAll, implicitGenerics_unplaced ty,
      implicitGenericsAll_unplaced rest]

end

end TypeTable

/-! ## Closing signatures -/

namespace FunctionDecl

variable (types : TypeTable)

/-- A parameter introduces the same placeholders. -/
theorem addImplicitGenerics_unplaced (generics : List GenericParam) (param : Param) :
    addImplicitGenerics types.unplaced (generics.map GenericParam.unplaced) param.unplaced =
      (addImplicitGenerics types generics param).map GenericParam.unplaced := by
  have introduced : types.unplaced.implicitGenerics [] param.unplaced.ty = types.implicitGenerics [] param.ty :=
    types.implicitGenerics_unplaced param.ty []
  rw [addImplicitGenerics, addImplicitGenerics, introduced]
  generalize types.implicitGenerics [] param.ty = names
  induction names generalizing generics with
  | nil => rfl
  | cons name rest ih =>
    have known : (generics.map GenericParam.unplaced).any (·.name.name == name) =
        generics.any (·.name.name == name) := by
      rw [List.any_map]
      rfl
    rw [List.foldl_cons, List.foldl_cons, known]
    split
    · exact ih generics
    · have added := ih (generics ++ [⟨⟨name, param.name.location⟩, none⟩])
      rw [List.map_append] at added
      exact added

/-- So a function has the same generic parameters when it is closed. -/
theorem closedGenerics_unplaced (body : List Stmt) (decl : FunctionDecl) :
    closedGenerics types.unplaced (decl.unplacedWith body) =
      (closedGenerics types decl).map GenericParam.unplaced :=
  foldl_image Param.unplaced (List.map GenericParam.unplaced) (addImplicitGenerics_unplaced types) decl.params
    decl.generics

/-- Their restrictions are resolved alike. -/
theorem resolveConstraint_unplaced (generic : GenericParam) :
    resolveConstraint types.unplaced generic.unplaced =
      unplacing GenericParam.unplaced (resolveConstraint types generic) := by
  cases generic with
  | mk name constraint =>
    cases constraint with
    | none => rfl
    | some written => exact unplacing_bind (types.resolve_unplaced [] written) fun constraint => rfl

/-- The same placeholders of the result are left unbound. -/
theorem unboundReturnNames_unplaced (body : List Stmt) (decl : FunctionDecl) :
    (decl.unplacedWith body).unboundReturnNames = decl.unboundReturnNames := by
  simp only [unboundReturnNames, unplacedWith, Ty.genericNames_unplaced, List.any_map, Function.comp_def,
    Param.unplaced]

/-- **A signature is closed whatever the places and the body.** -/
theorem close_unplaced (body : List Stmt) (decl : FunctionDecl) :
    close types.unplaced (decl.unplacedWith body) = unplacing (unplacedWith body) (close types decl) := by
  have names : ((closedGenerics types decl).map GenericParam.unplaced).map (·.name.name) =
      (closedGenerics types decl).map (·.name.name) := by
    rw [List.map_map]
    rfl
  simp only [close, closedGenerics_unplaced, names]
  refine unplacing_bind (unplacing_mapM _ _ (resolveConstraint_unplaced types) _) fun generics => ?_
  refine unplacing_bind (unplacing_mapM Param.unplaced Param.unplaced (fun param => ?_) decl.params) fun params => ?_
  · exact unplacing_bind (types.resolve_unplaced _ param.ty) fun ty => rfl
  refine unplacing_bind (types.resolve_unplaced _ decl.returnType) fun returnType => ?_
  have unbound := unboundReturnNames_unplaced body { decl with generics, params, returnType }
  rw [unplacedWith] at unbound
  dsimp only [unplacedWith] at unbound ⊢
  rw [unbound]
  cases unboundReturnNames { decl with generics, params, returnType } with
  | nil => rfl
  | cons name rest => exact congrArg (refuse _) (by rw [Ty.location_unplaced]; rfl)

end FunctionDecl

end DeclCheck
