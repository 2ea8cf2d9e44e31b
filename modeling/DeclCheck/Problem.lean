import DeclCheck.Text.Ordinal
import DeclCheck.Ty.Basic

/-!
# Problems and errors

Every static rule has one way to be violated, and each is a constructor of `Problem`. An error is a
problem at a place in the source, or a defect of the checker itself, which has no place. The wording of
a problem, its code, its name and the advice that goes with it are functions of the constructor, each
defined once, here.
-/

namespace DeclCheck

/-- **What is wrong with a unit.** -/
inductive Problem where
  /-- A type name that nothing declares. -/
  | undefinedType (name : String) (suggestions : List String)
  /-- A generic name that the enclosing declaration does not introduce. -/
  | undefinedGeneric (name : String) (suggestions : List String)
  /-- A literal of a struct that nothing declares. -/
  | undefinedStruct (name : String)
  /-- A struct written with more or fewer arguments than it has placeholders. -/
  | typeArgumentCount (name : String) (expected actual : Nat)
  /-- An enum, or a case of one, that nothing declares. -/
  | undefinedEnum (name : String)
  /-- A variable that is not visible. -/
  | undefinedVariable (name : String) (suggestions : List String)
  /-- A call of a function without any overload. -/
  | unknownFunction (signature : String)
  /-- A second struct of one name. -/
  | structRedeclared (name previousOrigin : String)
  /-- A second enum of one name. -/
  | enumRedeclared (name previousOrigin : String)
  /-- A second group of one name. -/
  | groupRedeclared (name : String)
  /-- A type bound into something that is no group. -/
  | boundToNonGroup (child parent : Ty)
  /-- A second declaration of a visible variable. -/
  | variableRedeclared (name : String)
  /-- An assignment to a variable that may not change. -/
  | immutableAssigned (name : String)
  /-- An assignment to a variable that was never declared. -/
  | undeclaredAssigned (name : String)
  /-- An assignment of what yields no value. -/
  | voidAssigned (name : String)
  /-- An assignment of `nil` to a variable that does not admit it. -/
  | nilAssigned (name : String) (expected : Ty)
  /-- An assignment of a value of the wrong type. -/
  | variableMismatch (name : String) (expected actual : Ty)
  /-- A member value of the wrong type. -/
  | memberMismatch (member : String) (expected actual : Ty)
  /-- A returned value of the wrong type. -/
  | returnMismatch (expected actual : Ty)
  /-- A loop over what is no list. -/
  | notIterable (actual : Ty)
  /-- A list element that differs from the first one. Positions count from one. -/
  | mixedList (position : Nat) (expected actual : Ty)
  /-- A member that the struct does not have. -/
  | extraMember (structName member : String)
  /-- Members that a struct literal leaves out. -/
  | missingMembers (structName : String) (members : List String)
  /-- A member given twice. -/
  | repeatedMember (member : String)
  /-- Access to a member that the struct does not have. -/
  | unknownMember (structName member : String) (suggestions : List String)
  /-- Access to a member of what is no struct. -/
  | memberOfNonStruct (actual : Ty)
  /-- A call that no overload accepts. Positions count from one. -/
  | noConformingOverload (signature : String) (position : Nat) (actual : Ty) (candidates : List Ty)
  /-- A call statement whose value is dropped. -/
  | valueDropped (ty : Ty)
  /-- A unit that cannot be found or read. -/
  | importFailed (filename : String)
  /-- A text that is no unit. -/
  | unreadable (message : String)
  deriving Repr, Inhabited

/-- A name in the quotation marks of messages. -/
def quoted (name : String) : String := "`" ++ name ++ "`"

/-- Several quoted names. -/
def quotedAll (names : List String) : String := ", ".intercalate (names.map quoted)

/-- The end of a message that offers other names. -/
def didYouMean : List String → String
  | [] => ""
  | [only] => ". Did you mean " ++ quoted only ++ "?"
  | many => ". Did you mean one of " ++ quotedAll many ++ "?"

namespace Problem

/-- The wording of a problem. -/
def message : Problem → String
  | undefinedType name suggestions =>
    s!"The type {quoted name} is not defined{didYouMean suggestions}"
  | undefinedGeneric name suggestions =>
    s!"The generic name {quoted name} does not exist in the current scope{didYouMean suggestions}"
  | undefinedStruct name => s!"There is no struct named {quoted name}"
  | typeArgumentCount name expected actual =>
    s!"{name} expects {expected} type argument(s), but was given {actual}"
  | undefinedEnum name => s!"There is no enum providing {quoted name}"
  | undefinedVariable name suggestions =>
    s!"The variable {quoted name} is not defined{didYouMean suggestions}"
  | unknownFunction signature =>
    s!"You cannot call the function {quoted signature} as it does not exist"
  | structRedeclared name previousOrigin =>
    s!"The struct {quoted name} is already defined in {previousOrigin}"
  | enumRedeclared name previousOrigin =>
    s!"The enum {quoted name} is already defined in {previousOrigin}"
  | groupRedeclared name => s!"The group {quoted name} is already defined"
  | boundToNonGroup child parent =>
    s!"{child.shown} can only be bound into a group, but {parent.shown} is not a group"
  | variableRedeclared name => s!"The variable {quoted name} is already declared"
  | immutableAssigned name => s!"You cannot assign a value to {quoted name} as it is immutable"
  | undeclaredAssigned name => s!"You cannot assign to {quoted name} as it was never declared"
  | voidAssigned name => s!"You cannot assign a Void expression to {quoted name}"
  | nilAssigned name expected =>
    s!"You cannot assign nil to {quoted name} as its type {expected.shown} is not nullable"
  | variableMismatch name expected actual =>
    s!"The variable {quoted name} expects {expected.shown}, but was given {actual.shown}"
  | memberMismatch member expected actual =>
    s!"The member {quoted member} expects {expected.shown}, but was given {actual.shown}"
  | returnMismatch expected actual =>
    s!"This function should return {expected.shown}, but this statement returns {actual.shown}"
  | notIterable actual =>
    s!"A for loop can only iterate over a List, but this expression has type {actual.shown}"
  | mixedList position expected actual =>
    s!"Every element of a list should have the type of the first element, {expected.shown}, " ++
      s!"but the {Text.ordinal position} element has type {actual.shown}"
  | extraMember structName member => s!"{structName} should not have the member {quoted member}"
  | missingMembers structName members =>
    s!"{structName} is missing the member(s) {quotedAll members}"
  | repeatedMember member => s!"The member {quoted member} is given more than once"
  | unknownMember structName member suggestions =>
    s!"{structName} does not have the member {quoted member}{didYouMean suggestions}"
  | memberOfNonStruct actual =>
    s!"Members can only be accessed on structs, but this expression has type {actual.shown}"
  | noConformingOverload signature position actual candidates =>
    s!"No overload of {quoted signature} accepts {actual.shown} as its " ++
      s!"{Text.ordinal position} argument; declared types there are: " ++
      ", ".intercalate (Ty.allShown candidates)
  | valueDropped ty =>
    s!"This expression returns {ty.shown}, so its value must be assigned to a variable"
  | importFailed filename => s!"Cannot import {quoted filename}"
  | unreadable message => s!"Syntax error: {message}"

/-- The stable code of a problem. -/
def code : Problem → String
  | unknownMember .. => "E0001"
  | immutableAssigned .. => "E0002"
  | undeclaredAssigned .. => "E0003"
  | voidAssigned .. => "E0004"
  | nilAssigned .. => "E0005"
  | undefinedVariable .. => "E0006"
  | variableRedeclared .. => "E0007"
  | variableMismatch .. => "E0008"
  | returnMismatch .. => "E0009"
  | unreadable .. => "E0010"
  | valueDropped .. => "E0011"
  | noConformingOverload .. => "E0012"
  | unknownFunction .. => "E0013"
  | undefinedType .. => "E0014"
  | undefinedStruct .. => "E0015"
  | undefinedEnum .. => "E0016"
  | structRedeclared .. => "E0017"
  | enumRedeclared .. => "E0018"
  | groupRedeclared .. => "E0019"
  | extraMember .. => "E0020"
  | missingMembers .. => "E0021"
  | repeatedMember .. => "E0022"
  | memberMismatch .. => "E0023"
  | mixedList .. => "E0024"
  | undefinedGeneric .. => "E0025"
  | notIterable .. => "E0026"
  | memberOfNonStruct .. => "E0027"
  | boundToNonGroup .. => "E0028"
  | typeArgumentCount .. => "E0029"
  | importFailed .. => "E0030"

/-- The name that reports give to a problem. -/
def name : Problem → String
  | undefinedType .. => "UsingUndefinedType"
  | undefinedGeneric .. => "UsingUndefinedGenericName"
  | undefinedStruct .. => "UsingUndefinedStruct"
  | typeArgumentCount .. => "WrongNumberOfTypeArguments"
  | undefinedEnum .. => "UsingUndefinedEnum"
  | undefinedVariable .. => "UsingUndefinedVariable"
  | unknownFunction .. => "UsingUnknownFunction"
  | structRedeclared .. => "StructRedeclare"
  | enumRedeclared .. => "EnumRedeclare"
  | groupRedeclared .. => "GroupRedeclare"
  | boundToNonGroup .. => "BindingToNonGroup"
  | variableRedeclared .. => "VariableRedeclare"
  | immutableAssigned .. => "AssigningToImmutableVariable"
  | undeclaredAssigned .. => "AssigningToUndefinedVariable"
  | voidAssigned .. => "AssigningVoidToVariable"
  | nilAssigned .. => "AssigningNullToUnnullableVariable"
  | variableMismatch .. => "IncorrectTypeGivenForVariable"
  | memberMismatch .. => "IncorrectTypeGivenForMember"
  | returnMismatch .. => "UnmatchingReturnType"
  | notIterable .. => "ForExprNotArray"
  | mixedList .. => "ListElementsArentHomogeneous"
  | extraMember .. => "ExtraMember"
  | missingMembers .. => "MissingMember"
  | repeatedMember .. => "DuplicatedMember"
  | unknownMember .. => "AccessingInexistentMember"
  | memberOfNonStruct .. => "AccessingMemberOfNonStruct"
  | noConformingOverload .. => "NoConformingFunction"
  | valueDropped .. => "NonVoidExprNotAssignedToVariable"
  | importFailed .. => "ImportFail"
  | unreadable .. => "Syntax"

/-- The names offered in place of an unknown one. -/
def suggestions : Problem → List String
  | undefinedType _ suggestions
  | undefinedGeneric _ suggestions
  | undefinedVariable _ suggestions
  | unknownMember _ _ suggestions => suggestions
  | _ => []

/-- The advice shown under a problem, where there is any. -/
def hint : Problem → Option String
  | immutableAssigned name =>
    some ("Variables are immutable unless declared with the `mutable` keyword, e.g.\n\n" ++
      "    let mutable " ++ name ++ " = ...")
  | nilAssigned _ expected =>
    some ("Mark the type as nullable to allow nil, e.g. " ++ quoted (expected.shown ++ "?"))
  | mixedList .. =>
    some ("Use a tuple if the elements should have different types, e.g.\n\n" ++
      "    let myTuple = (1, \"2\", 3)")
  | valueDropped .. => some "Bind the value with `let`, e.g.\n\n    let result = ..."
  | missingMembers _ members =>
    some ("Add the missing member(s):\n\n" ++
      "\n".intercalate (members.map fun member => "    :" ++ member ++ " = ..."))
  | _ => none

end Problem

/-- **Why a check stopped**: a problem at a place in the source, or a defect of the checker. -/
inductive Error where
  | found (problem : Problem) (location : Location)
  | internal (message : String)
  deriving Repr, Inhabited

namespace Error

/-- The wording of an error. -/
def message : Error → String
  | found problem _ => problem.message
  | internal message => s!"Internal compiler error: {message}"

/-- The stable code of an error. -/
def code : Error → String
  | found problem _ => problem.code
  | internal _ => "E9999"

/-- The name that reports give to an error. -/
def name : Error → String
  | found problem _ => problem.name
  | internal _ => "Internal"

/-- The place of an error. A defect of the checker has none. -/
def location? : Error → Option Location
  | found _ location => some location
  | internal _ => none

/-- The place of an error, if it is one that the source text has. -/
def place? (error : Error) : Option Location := error.location?.filter (!·.isNowhere)

/-- The names offered in place of an unknown one. -/
def suggestions : Error → List String
  | found problem _ => problem.suggestions
  | internal _ => []

/-- The advice shown under an error, where there is any. -/
def hint : Error → Option String
  | found problem _ => problem.hint
  | internal _ => some "This is possibly a compiler bug; please report it."

/-- Whether the checker rather than the unit is at fault. -/
def isInternal : Error → Bool
  | found _ _ => false
  | internal _ => true

end Error

/-- The failing outcome of a problem at a place. -/
def refuse {α : Type u} (problem : Problem) (location : Location) : Except Error α :=
  .error (.found problem location)

end DeclCheck
