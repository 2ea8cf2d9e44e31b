import DeclCheck.Symbols.Types
import DeclCheck.Text.Suggestion

/-!
# Resolving written types

A written name means what the tables say: a node of the lattice first, then an enum, a struct, and last
a builtin of the catalog. Inside a declaration, the names of its own generic parameters come before all
of these. Resolution replaces every written name by its meaning, keeps arguments and nullability, and
leaves what is resolved already as it is.
-/

namespace DeclCheck

/-- What a name can mean. -/
inductive Meaning where
  | builtin (kind : Builtin)
  | struct (name : String)
  | enum (name : String)
  | group (name : String)
  deriving DecidableEq, Repr

namespace Meaning

/-- The type that the meaning forms with arguments. Enums and groups take none and drop them. -/
def applied (args : List Ty) (nullable : Bool) : Meaning → Ty
  | builtin kind => .app (.builtin kind) args nullable
  | struct name => .app (.struct name) args nullable
  | enum name => .atom (.enum name) nullable
  | group name => .atom (.group name) nullable

/-- The meaning that a head stands for. Placeholders, written names and `Void` stand for none. -/
def ofHead? : Head → Option Meaning
  | .builtin kind => some (builtin kind)
  | .struct name => some (struct name)
  | .enum name => some (enum name)
  | .group name => some (group name)
  | .void | .generic _ | .unresolved _ => none

end Meaning

/-- Whether a name has the form of a placeholder: one capital letter and then only digits, all of them
ASCII. -/
def looksGeneric (name : String) : Bool :=
  match name.toList with
  | [] => false
  | first :: rest => first.isUpper && rest.all Char.isDigit

namespace TypeTable

/-- **What a name means outside of any generic declaration.** A name that the lattice knows means what
stands there, or nothing. -/
def meaning? (types : TypeTable) (name : String) : Option Meaning :=
  match types.lattice.find? name with
  | some found => Meaning.ofHead? found.head
  | none =>
    if types.enums.contains name then some (.enum name)
    else if types.structs.contains name then some (.struct name)
    else (Builtin.ofName? name).map .builtin

/-- The refusal of a generic name that the declaration does not introduce. -/
def undefinedGeneric (generics : List String) (name : String) : Problem :=
  .undefinedGeneric name (Text.similarNames name generics)

/-- The refusal of a name without a meaning. -/
def undefinedName (types : TypeTable) (generics : List String) (name : String) : Problem :=
  if looksGeneric name then undefinedGeneric generics name
  else .undefinedType name (Text.similarNames name types.typeNames)

/-- A struct written with arguments is given one for each of its placeholders. A bare name leaves them
to the context. -/
def checkTypeArguments (types : TypeTable) (ty : Ty) (location : Location) : Except Error Unit :=
  match ty with
  | .app (.struct name) args _ =>
    match types.structs.find? name with
    | none => .ok ()
    | some decl =>
      if args.isEmpty || args.length == decl.generics.length then .ok ()
      else refuse (.typeArgumentCount name decl.generics.length args.length) location
  | _ => .ok ()

mutual

/-- **Resolve a type** inside a declaration with the given generic names. -/
def resolve (types : TypeTable) (generics : List String) : Ty → Except Error Ty
  | .atom (.generic name location) nullable =>
    if name ∈ generics then .ok (.atom (.generic name location) nullable)
    else refuse (undefinedGeneric generics name) location
  | .atom shape nullable => .ok (.atom shape nullable)
  | .app (.unresolved name location) args nullable =>
    if args.isEmpty && name ∈ generics then .ok (.atom (.generic name location) nullable)
    else do
      let args ← types.resolveAll generics args
      match types.meaning? name with
      | none => refuse (types.undefinedName generics name) location
      | some meaning =>
        let ty := meaning.applied args nullable
        types.checkTypeArguments ty location
        return ty
  | .app ctor args nullable => do
    let args ← types.resolveAll generics args
    return .app ctor args nullable

/-- Resolve several types. The first that fails decides. -/
def resolveAll (types : TypeTable) (generics : List String) : List Ty → Except Error (List Ty)
  | [] => .ok []
  | ty :: rest => do
    let ty ← types.resolve generics ty
    let rest ← types.resolveAll generics rest
    return ty :: rest

end

/-- Resolve the member types of a struct, which may use its own generic names only. -/
def resolveStruct (types : TypeTable) (decl : StructDecl) : Except Error StructDecl := do
  let members ← decl.members.mapM fun member => do
    let ty ← types.resolve decl.genericNames member.ty
    return { member with ty }
  return { decl with members }

mutual

/-- **The placeholders that a parameter type introduces without declaring them**, added to those
already met: bare names of placeholder form that mean nothing else. -/
def implicitGenerics (types : TypeTable) (names : List String) : Ty → List String
  | .atom _ _ => names
  | .app (.unresolved name _) args _ =>
    if args.isEmpty && looksGeneric name && (types.meaning? name).isNone then addName names name
    else types.implicitGenericsAll names args
  | .app _ args _ => types.implicitGenericsAll names args

/-- The placeholders that several types introduce. -/
def implicitGenericsAll (types : TypeTable) (names : List String) : List Ty → List String
  | [] => names
  | ty :: rest => types.implicitGenericsAll (types.implicitGenerics names ty) rest

end

end TypeTable

end DeclCheck
