import DeclCheck.Ty.Basic

/-!
# Names, signatures and keys

The parts that declarations and calls share: identifiers, the placement of a function's name tokens
around its arguments, and the key under which overloads are grouped.
-/

namespace DeclCheck

/-- A name together with where it was written. -/
structure Ident where
  name : String
  location : Location
  deriving DecidableEq, Repr, Inhabited

/-- **Where the name tokens of a function stand relative to its arguments.** -/
inductive Affix where
  /-- No argument: `.main`. -/
  | bare
  /-- Before the argument: `not x`. -/
  | before
  /-- After the argument: `x.show`. -/
  | after
  /-- Between two arguments: `x + y`. -/
  | between
  /-- Several tokens among several arguments: `list.replace x with y`. -/
  | mixed
  deriving DecidableEq, Repr, Inhabited

/-- The name tokens of a function, in order. -/
abbrev Signature := List Ident

namespace Signature

/-- The texts of the tokens. -/
def tokens (signature : Signature) : List String := signature.map (·.name)

/-- How a call looks, an underscore standing for each argument. All but the mixed form show the first
token alone. -/
def shown (signature : Signature) (affix : Affix) : String :=
  let first := signature.tokens.headD ""
  match affix with
  | .bare => "." ++ first
  | .before => first ++ " _"
  | .after => "_." ++ first
  | .between => "_ " ++ first ++ " _"
  | .mixed => "_." ++ " _ ".intercalate signature.tokens ++ " _"

/-- Where the first token was written. -/
def location (signature : Signature) : Location :=
  match signature with
  | [] => .nowhere
  | token :: _ => token.location

end Signature

/-- **What groups overloads**: the name tokens joined by underscores, and the number of parameters. -/
structure FunctionKey where
  name : String
  arity : Nat
  deriving DecidableEq, Repr, Inhabited

namespace FunctionKey

/-- The key of a signature used with a number of arguments. -/
def ofSignature (signature : Signature) (arity : Nat) : FunctionKey :=
  ⟨"_".intercalate signature.tokens, arity⟩

/-- Keys are ordered by name, then by arity. -/
instance : Ord FunctionKey where
  compare first second := (compare first.name second.name).then (compare first.arity second.arity)

/-- The text of a key. -/
def shown (key : FunctionKey) : String := key.name ++ "/" ++ toString key.arity

end FunctionKey

end DeclCheck
