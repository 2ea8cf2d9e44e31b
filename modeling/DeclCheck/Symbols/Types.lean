import DeclCheck.Ascending
import DeclCheck.Dict
import DeclCheck.Lattice
import DeclCheck.Problem
import DeclCheck.Tree.Decl

/-!
# The type tables

What is known of declared types: the structs and enums by name, and the subtype lattice. Groups live in
the lattice alone. Registering a name enters it into its table and into the lattice together, so each
struct and enum of the tables has a node there.
-/

namespace DeclCheck

/-- **The type tables.** -/
structure TypeTable where
  lattice : Lattice
  structs : Dict String StructDecl
  enums : Dict String EnumDecl
  deriving Repr

namespace TypeTable

/-- Enter a struct under its name. Member types stay as written until `updateStruct`. -/
def registerStruct (types : TypeTable) (decl : StructDecl) : Except Error TypeTable :=
  let name := decl.name.name
  match types.structs.find? name with
  | some previous => refuse (.structRedeclared name previous.origin) decl.name.location
  | none =>
    .ok { types with
      lattice := types.lattice.insert
        (Ty.struct name (decl.genericNames.map Ty.generic)) (Ty.builtin .struct)
      structs := types.structs.insert name decl }

/-- Replace a struct by its resolved form. -/
def updateStruct (types : TypeTable) (decl : StructDecl) : TypeTable :=
  { types with structs := types.structs.insert decl.name.name decl }

/-- Enter an enum under its name. -/
def registerEnum (types : TypeTable) (decl : EnumDecl) : Except Error TypeTable :=
  let name := decl.name.name
  match types.enums.find? name with
  | some previous => refuse (.enumRedeclared name previous.origin) decl.name.location
  | none =>
    .ok { types with
      lattice := types.lattice.insert (Ty.enum name) (Ty.builtin .enum)
      enums := types.enums.insert name decl }

/-- Enter a group directly under the root of the lattice. -/
def registerGroup (types : TypeTable) (decl : GroupDecl) : Except Error TypeTable :=
  let name := decl.name.name
  if types.lattice.contains (Ty.group name) then
    refuse (.groupRedeclared name) decl.name.location
  else
    .ok { types with lattice := types.lattice.insert (Ty.group name) Ty.any }

/-- Make a resolved type a member of a group. There is no result when the lattice lacks the group. -/
def bindGroup? (types : TypeTable) (child parent : Ty) : Option TypeTable :=
  (types.lattice.insert? child parent).map fun lattice => { types with lattice }

/-- The first enum, in the order of names, that has a case. -/
def enumWithCase? (types : TypeTable) (case : String) : Option EnumDecl :=
  types.enums.values.find? (·.hasCase case)

/-- All type names in the tables, in ascending order. -/
def typeNames (types : TypeTable) : List String :=
  Ascending.ofList Ascending.nameBefore
    (types.lattice.types.filterMap Ty.name? ++ types.structs.keys ++ types.enums.keys)

/-! ## The initial tables -/

/-- The origin of what no source file declares. -/
def builtinOrigin : String := "<builtin>"

/-- The declaration of an enum that no source file declares. -/
def builtinEnum (name : String) (cases : List String) : EnumDecl where
  name := ⟨name, .nowhere⟩
  cases := cases.map (⟨·, .nowhere⟩)
  origin := builtinOrigin
  location := .nowhere

/-- The enums that every unit may use. -/
def builtinEnums : List EnumDecl :=
  [builtinEnum Ty.booleanName ["true", "false"], builtinEnum Ty.nilName ["nil"]]

/-- **The tables that every check starts from.** -/
def initial : TypeTable :=
  builtinEnums.foldl
    (fun types decl => ((types.registerEnum decl).toOption).getD types)
    ⟨Lattice.initial, .empty, .empty⟩

instance : Inhabited TypeTable := ⟨initial⟩

end TypeTable

end DeclCheck
