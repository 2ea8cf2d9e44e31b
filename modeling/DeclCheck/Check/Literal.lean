import DeclCheck.Check.Basic

/-!
# Struct literals, members and enum cases

The rules that hold between a struct or enum declaration and an expression that uses it. None of them
walks an expression: they are given the types already found.

A struct literal fixes the placeholders of its struct in one of two ways. Type arguments written with
the constructor bind all of them beforehand. Otherwise the members bind them in the order in which they
are given, and the first member to mention a placeholder decides.
-/

namespace DeclCheck

/-- A numeric literal is an integer unless it has a fraction or an exponent. -/
def numberType (literal : String) : Ty :=
  if literal.toList.any (fun char => char == '.' || char == 'e' || char == 'E') then
    Ty.builtin .number
  else Ty.builtin .integer

/-- Bindings for the pairs of a list. A later pair of the same name wins. -/
def bindPairs (pairs : List (String × Ty)) : Bindings :=
  pairs.foldl (fun bindings pair => bindings.insert pair.1 pair.2) .empty

/-- Bindings with those of a second map added for the names that are not bound yet. -/
def bindMissing (bindings found : Bindings) : Bindings :=
  found.entries.foldl (fun bindings pair => bindings.insertNew pair.1 pair.2) bindings

/-- **A struct literal under way**: its struct, the members given so far, and what is known of the
placeholders. -/
structure Literal where
  name : String
  decl : StructDecl
  /-- Whether the type arguments are written with the constructor. -/
  explicit : Bool
  given : List String
  bindings : Bindings
  deriving Repr

namespace Literal

/-- Begin a literal with its constructor as written. -/
def start (env : Env) (ctor : Ty) (location : Location) : Except Error Literal :=
  let name := ctor.name?.getD ""
  let location := ctor.location.orElse location
  match env.types.structs.find? name with
  | none => refuse (.undefinedStruct name) location
  | some decl =>
    let generics := decl.genericNames
    let explicit := !ctor.args.isEmpty
    if explicit && ctor.args.length != generics.length then
      refuse (.typeArgumentCount name generics.length ctor.args.length) location
    else do
      let args ← env.types.resolveAll env.generics ctor.args
      return ⟨name, decl, explicit, [], bindPairs (generics.zip args)⟩

/-- The declaration of a member that may be given next. -/
def claim (literal : Literal) (member : Ident) : Except Error Member :=
  match literal.decl.member? member.name with
  | none => refuse (.extraMember literal.name member.name) member.location
  | some declared =>
    if member.name ∈ literal.given then refuse (.repeatedMember member.name) member.location
    else .ok declared

/-- Accept the value of a claimed member. -/
def accept (env : Env) (literal : Literal) (declared : Member) (actual : Ty) (location : Location) :
    Except Error Literal :=
  let bindings :=
    if literal.explicit then literal.bindings
    else bindMissing literal.bindings (declared.ty.bind .empty actual)
  let expected := declared.ty.substitute bindings
  if env.types.lattice.isSubtype actual expected then
    .ok { literal with given := literal.given ++ [declared.name.name], bindings }
  else refuse (.memberMismatch declared.name.name expected actual) location

/-- The types bound to placeholder names, all of which must be bound. -/
def boundArgs (bindings : Bindings) (location : Location) : List String → Except Error (List Ty)
  | [] => .ok []
  | name :: rest =>
    match bindings.find? name with
    | none => refuse (.undefinedGeneric name []) location
    | some bound => do
      let bounds ← boundArgs bindings location rest
      return bound :: bounds

/-- The type of a literal whose members have all been given. -/
def finish (literal : Literal) (location : Location) : Except Error Ty :=
  let missing := literal.decl.memberNames.filter (· ∉ literal.given)
  if missing.isEmpty then do
    let args ← boundArgs literal.bindings location literal.decl.genericNames
    return Ty.struct literal.name args
  else refuse (.missingMembers literal.name missing) location

end Literal

/-- **The type of a member of a struct value.** `location` is that of the value. -/
def memberType (env : Env) (subject : Ty) (location : Location) (key : Ident) : Except Error Ty :=
  match subject with
  | .app (.struct name) args _ =>
    match env.types.structs.find? name with
    | none => .error (.internal ("struct " ++ quoted name ++ " has a type but no declaration"))
    | some decl =>
      match decl.member? key.name with
      | none =>
        refuse (.unknownMember name key.name (Text.similarNames key.name decl.memberNames))
          key.location
      | some declared => .ok (declared.ty.substitute (bindPairs (decl.genericNames.zip args)))
  | _ => refuse (.memberOfNonStruct subject) location

/-- **The type of an enum case.** A case named without its enum belongs to the first enum, in the order
of names, that has it. -/
def enumCaseType (env : Env) (enumName : Option Ident) (case : Ident) : Except Error Ty :=
  match enumName with
  | some name =>
    match env.types.enums.find? name.name with
    | none => refuse (.undefinedEnum name.name) name.location
    | some decl =>
      if decl.hasCase case.name then .ok (Ty.enum decl.name.name)
      else refuse (.undefinedEnum (name.name ++ "." ++ case.name)) case.location
  | none =>
    match env.types.enumWithCase? case.name with
    | none => refuse (.undefinedEnum case.name) case.location
    | some decl => .ok (Ty.enum decl.name.name)

end DeclCheck
