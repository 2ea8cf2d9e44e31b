import DeclCheck.Dict
import DeclCheck.Ty.Basic

/-!
# Binding and replacing generic placeholders

A declared type is matched against the type actually given by walking both in parallel: every
placeholder met on the declared side is bound to what stands at the same place on the other side.
Nothing else is compared; whether the types conform is decided afterwards, on the declared type with
its placeholders replaced.
-/

namespace DeclCheck

/-- What placeholder names stand for. -/
abbrev Bindings := Dict String Ty

namespace Ty

mutual

/-- Bind the placeholders of a declared type by an actual type. A name bound before is bound anew, and
the bound type is not nullable. -/
def bind (bindings : Bindings) : Ty → Ty → Bindings
  | .atom (.generic name _) _, actual => bindings.insert name (actual.withNullable false)
  | .atom _ _, _ => bindings
  | .app _ args _, actual => bindAll bindings args actual.args

/-- Bind the placeholders of several declared types by the actual types at the same places, from left
to right. What has no counterpart is passed over. -/
def bindAll (bindings : Bindings) : List Ty → List Ty → Bindings
  | declared :: rest, actual :: actuals => bindAll (declared.bind bindings actual) rest actuals
  | _, _ => bindings

end

mutual

/-- Replace every bound placeholder. Nullability adds up: the result admits `nil` when the placeholder
or the bound type does. -/
def substitute (bindings : Bindings) : Ty → Ty
  | .atom (.generic name location) nullable =>
    match bindings.find? name with
    | some bound => bound.withNullable (bound.nullable || nullable)
    | none => .atom (.generic name location) nullable
  | .atom shape nullable => .atom shape nullable
  | .app ctor args nullable => .app ctor (substituteAll bindings args) nullable

/-- Replace every bound placeholder in several types. -/
def substituteAll (bindings : Bindings) : List Ty → List Ty
  | [] => []
  | ty :: rest => ty.substitute bindings :: substituteAll bindings rest

end

end Ty

end DeclCheck
