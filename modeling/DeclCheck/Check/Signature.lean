import DeclCheck.Resolution
import DeclCheck.Symbols.Basic

/-!
# Collecting signatures

Before any body is walked, the signature of every function is *closed*: placeholders that the parameters
introduce join the generic parameters, and all types of the signature are resolved. A placeholder of the
return type has to occur in some parameter, since no call could bind it otherwise.
-/

namespace DeclCheck

namespace FunctionDecl

/-- Add the placeholders that one parameter introduces to the generic parameters. They are placed where
the parameter is. -/
def addImplicitGenerics (types : TypeTable) (generics : List GenericParam) (param : Param) :
    List GenericParam :=
  (types.implicitGenerics [] param.ty).foldl
    (fun generics name =>
      if generics.any (·.name.name == name) then generics
      else generics ++ [⟨⟨name, param.name.location⟩, none⟩])
    generics

/-- The generic parameters with those that the parameters introduce. -/
def closedGenerics (types : TypeTable) (decl : FunctionDecl) : List GenericParam :=
  decl.params.foldl (addImplicitGenerics types) decl.generics

/-- Resolve the restriction of a generic parameter. It may not use placeholders. -/
def resolveConstraint (types : TypeTable) (generic : GenericParam) : Except Error GenericParam :=
  match generic.constraint with
  | none => .ok generic
  | some written => do
    let constraint ← types.resolve [] written
    return { generic with constraint := some constraint }

/-- The placeholders of the return type that no parameter mentions. -/
def unboundReturnNames (decl : FunctionDecl) : List String :=
  decl.returnType.genericNames.filter fun name =>
    !decl.params.any (fun param => name ∈ param.ty.genericNames)

/-- **Close the signature of a function.** -/
def close (types : TypeTable) (decl : FunctionDecl) : Except Error FunctionDecl := do
  let generics := closedGenerics types decl
  let names := generics.map (·.name.name)
  let generics ← generics.mapM (resolveConstraint types)
  let params ← decl.params.mapM fun param => do
    let ty ← types.resolve names param.ty
    return { param with ty }
  let returnType ← types.resolve names decl.returnType
  let closed := { decl with generics, params, returnType }
  match closed.unboundReturnNames with
  | [] => return closed
  | name :: _ => refuse (.undefinedGeneric name []) (returnType.location.orElse decl.location)

end FunctionDecl

end DeclCheck
