import DeclCheck.Tree.Stmt

/-!
# Declarations and units

A unit is the parsed form of one source file: its name, its text, and its top-level declarations. Each
declaration carries the name of the file it came from, its *origin*.
-/

namespace DeclCheck

/-- A parameter of a function. -/
structure Param where
  name : Ident
  ty : Ty
  mutable : Bool
  deriving Repr, Inhabited

/-- A generic parameter, possibly restricted to the members of a group. -/
structure GenericParam where
  name : Ident
  constraint : Option Ty
  deriving Repr, Inhabited

/-- **A function declaration.** -/
structure FunctionDecl where
  signature : Signature
  affix : Affix
  returnType : Ty
  params : List Param
  body : List Stmt
  generics : List GenericParam
  origin : String
  location : Location
  deriving Repr, Inhabited

namespace FunctionDecl

/-- The key of the declaration's overloads. -/
def key (decl : FunctionDecl) : FunctionKey := .ofSignature decl.signature decl.params.length

/-- How a call of the function looks. -/
def shown (decl : FunctionDecl) : String := decl.signature.shown decl.affix

/-- The parameter types, in order. -/
def paramTypes (decl : FunctionDecl) : List Ty := decl.params.map (·.ty)

/-- The names of the generic parameters, in order. -/
def genericNames (decl : FunctionDecl) : List String := decl.generics.map (·.name.name)

/-- Whether a generic placeholder occurs in some parameter type. -/
def isGeneric (decl : FunctionDecl) : Bool := decl.params.any (·.ty.containsGeneric)

/-- Whether two declarations cannot stand beside each other: same key and equal parameter types. -/
def sameOverload (decl other : FunctionDecl) : Bool :=
  decl.key == other.key && Ty.allEqual decl.paramTypes other.paramTypes

end FunctionDecl

/-- A member of a struct. -/
structure Member where
  name : Ident
  ty : Ty
  deriving Repr, Inhabited

/-- **A struct declaration.** -/
structure StructDecl where
  name : Ident
  members : List Member
  generics : List Ident
  origin : String
  location : Location
  deriving Repr, Inhabited

namespace StructDecl

/-- The first member of a name. -/
def member? (decl : StructDecl) (name : String) : Option Member :=
  decl.members.find? (·.name.name == name)

/-- The names of the members, in order. -/
def memberNames (decl : StructDecl) : List String := decl.members.map (·.name.name)

/-- The names of the generic parameters, in order. -/
def genericNames (decl : StructDecl) : List String := decl.generics.map (·.name)

end StructDecl

/-- **An enum declaration.** -/
structure EnumDecl where
  name : Ident
  cases : List Ident
  origin : String
  location : Location
  deriving Repr, Inhabited

/-- Whether the enum has a case of the given name. -/
def EnumDecl.hasCase (decl : EnumDecl) (case : String) : Bool := decl.cases.any (·.name == case)

/-- **A group declaration.** -/
structure GroupDecl where
  name : Ident
  origin : String
  location : Location
  deriving Repr, Inhabited

/-- A declaration that makes a type a member of a group. -/
structure GroupBinding where
  child : Ty
  parent : Ty
  origin : String
  location : Location
  deriving Repr, Inhabited

/-- A reference to another source file. -/
structure ImportDecl where
  filename : Ident
  origin : String
  location : Location
  deriving Repr, Inhabited

/-- A block of statements checked like a function body. -/
structure ExampleDecl where
  body : List Stmt
  origin : String
  location : Location
  deriving Repr, Inhabited

/-- **A top-level declaration.** -/
inductive Decl where
  | function (decl : FunctionDecl)
  | struct (decl : StructDecl)
  | enum (decl : EnumDecl)
  | group (decl : GroupDecl)
  | binding (decl : GroupBinding)
  | importing (decl : ImportDecl)
  | exampleBlock (decl : ExampleDecl)
  deriving Repr, Inhabited

namespace Decl

/-- The file the declaration came from. -/
def origin : Decl → String
  | function decl => decl.origin
  | struct decl => decl.origin
  | enum decl => decl.origin
  | group decl => decl.origin
  | binding decl => decl.origin
  | importing decl => decl.origin
  | exampleBlock decl => decl.origin

/-- Where the declaration was written. -/
def location : Decl → Location
  | function decl => decl.location
  | struct decl => decl.location
  | enum decl => decl.location
  | group decl => decl.location
  | binding decl => decl.location
  | importing decl => decl.location
  | exampleBlock decl => decl.location

/-- The declaration with another origin. -/
def withOrigin (origin : String) : Decl → Decl
  | function decl => function { decl with origin }
  | struct decl => struct { decl with origin }
  | enum decl => enum { decl with origin }
  | group decl => group { decl with origin }
  | binding decl => binding { decl with origin }
  | importing decl => importing { decl with origin }
  | exampleBlock decl => exampleBlock { decl with origin }

end Decl

/-- The text of a source file under its name. -/
structure SourceFile where
  filename : String
  content : String
  deriving DecidableEq, Repr, Inhabited

/-- **The parsed form of one source file.** The text serves diagnostics only. -/
structure SourceUnit where
  filename : String
  content : String
  declarations : List Decl
  deriving Repr, Inhabited

namespace SourceUnit

/-- The file that the unit was parsed from. -/
def sourceFile (unit : SourceUnit) : SourceFile := ⟨unit.filename, unit.content⟩

/-- The unit with its own name as the origin of every declaration that has none. -/
def withOrigins (unit : SourceUnit) : SourceUnit :=
  { unit with
    declarations := unit.declarations.map fun decl =>
      if decl.origin.isEmpty then decl.withOrigin unit.filename else decl }

end SourceUnit

end DeclCheck
