import DeclCheck.Location

/-!
# Type values

A type is an *atom*, which takes no arguments, or a *constructor* applied to a list of arguments. Each
carries a nullability flag beside its shape. Types arrive from the parser as unresolved names; the
checker replaces each name by the builtin, struct, enum, group or generic placeholder that it means.

What identifies a type up to arguments and nullability is its *head*. The subtype lattice and all
searches through it look at heads alone, so `Head` is a type of its own here, and
`Ty.sameHead` is a function of two heads.

`Ty.equals` is the equality of the type system. It is coarser than identity in three ways: nullability
and locations are ignored, an unresolved name equals whatever answers to that name, and any two
generic placeholders are equal.
-/

namespace DeclCheck

/-! ## Builtin types -/

/-- The builtin catalog. `struct` and `enum` are the common ancestors of all struct and enum types. -/
inductive Builtin where
  | any | number | integer | string | date | list | table | struct | tuple | enum
  deriving DecidableEq, Repr, Inhabited

namespace Builtin

/-- The catalog in its listing order. -/
def all : List Builtin :=
  [any, number, integer, string, date, list, table, struct, tuple, enum]

/-- The name a builtin is written and shown with. -/
def name : Builtin → String
  | any => "Any"
  | number => "Number"
  | integer => "Integer"
  | string => "String"
  | date => "Date"
  | list => "List"
  | table => "Table"
  | struct => "Struct"
  | tuple => "Tuple"
  | enum => "Enum"

/-- The builtin that a written name means. Besides its own name, the integer type answers to
`Int`. -/
def ofName? (name : String) : Option Builtin :=
  if name = "Int" then some integer else all.find? (fun kind => kind.name == name)

end Builtin

/-! ## Types -/

/-- Shapes without arguments. -/
inductive Atom where
  | void
  /-- A placeholder bound by the generic parameters of a declaration. -/
  | generic (name : String) (location : Location)
  | enum (name : String)
  | group (name : String)
  deriving DecidableEq, Repr, Inhabited

/-- Shapes applied to arguments. -/
inductive Ctor where
  /-- A name as written, awaiting resolution. -/
  | unresolved (name : String) (location : Location)
  | builtin (kind : Builtin)
  | struct (name : String)
  deriving DecidableEq, Repr, Inhabited

/-- **A type value.** Nullability is independent of the shape. -/
inductive Ty where
  | atom (shape : Atom) (nullable : Bool)
  | app (ctor : Ctor) (args : List Ty) (nullable : Bool)
  deriving Repr

instance : Inhabited Ty := ⟨.atom .void false⟩

/-! ## Heads -/

/-- **What a type is, without its arguments, its nullability and its location.** -/
inductive Head where
  | void
  | generic (name : String)
  | enum (name : String)
  | group (name : String)
  | unresolved (name : String)
  | builtin (kind : Builtin)
  | struct (name : String)
  deriving DecidableEq, Repr, Inhabited

namespace Head

/-- The name of a head. Only `void` has none. -/
def name? : Head → Option String
  | void => none
  | generic name | enum name | group name | unresolved name | struct name => some name
  | builtin kind => some kind.name

/-- Whether a written name refers to the head. Builtins answer to every name of the catalog that
means them, all others to their own name. -/
def answersTo (head : Head) (name : String) : Bool :=
  match head with
  | builtin kind => Builtin.ofName? name == some kind
  | head => head.name? == some name

/-- Whether two heads stand for the same type. Resolved heads agree when they are equal; an unresolved
name agrees with everything that answers to it. -/
def agrees : Head → Head → Bool
  | unresolved name, other => other.answersTo name
  | head, unresolved name => head.answersTo name
  | head, other => head == other

/-- Agreement with all generic placeholders taken for one another, and for nothing else. -/
def equates : Head → Head → Bool
  | generic _, generic _ => true
  | generic _, _ => false
  | _, generic _ => false
  | head, other => head.agrees other

end Head

/-- The head of an atom. -/
def Atom.head : Atom → Head
  | void => .void
  | generic name _ => .generic name
  | enum name => .enum name
  | group name => .group name

/-- The head of a constructor. -/
def Ctor.head : Ctor → Head
  | unresolved name _ => .unresolved name
  | builtin kind => .builtin kind
  | struct name => .struct name

namespace Ty

/-! ## Parts -/

/-- The name of the enum whose one case is `nil`. -/
def nilName : String := "Nil"

/-- The name of the enum with the cases `true` and `false`. -/
def booleanName : String := "Boolean"

/-- The head of a type. -/
def head : Ty → Head
  | .atom shape _ => shape.head
  | .app ctor _ _ => ctor.head

/-- The type arguments. Atoms have none. -/
def args : Ty → List Ty
  | .atom _ _ => []
  | .app _ args _ => args

/-- Whether `nil` is admitted. -/
def nullable : Ty → Bool
  | .atom _ nullable => nullable
  | .app _ _ nullable => nullable

/-- The same type with the given nullability. -/
def withNullable (nullable : Bool) : Ty → Ty
  | .atom shape _ => .atom shape nullable
  | .app ctor args _ => .app ctor args nullable

/-- The name of the head. -/
def name? (ty : Ty) : Option String := ty.head.name?

/-- Where the type was written. Resolution forgets the locations of all but generic placeholders. -/
def location : Ty → Location
  | .atom (.generic _ location) _ => location
  | .app (.unresolved _ location) _ _ => location
  | _ => .nowhere

/-- Whether the type is `Void`. -/
def isVoid (ty : Ty) : Bool := ty.head == .void

/-- Whether the type is that of `nil`. -/
def isNil (ty : Ty) : Bool := ty.head == .enum nilName

/-- Whether the type is the root of the subtype order. -/
def isAny (ty : Ty) : Bool := ty.head == .builtin .any

/-- Whether the type is a generic placeholder. -/
def isGeneric : Ty → Bool
  | .atom (.generic _ _) _ => true
  | _ => false

/-- Two types share a head when one name or kind stands for both, whatever their arguments. -/
def sameHead (first second : Ty) : Bool := first.head.agrees second.head

end Ty

/-! ## Traversals -/

/-- Whether the constructor is more than a written name. -/
def Ctor.isResolved : Ctor → Bool
  | unresolved _ _ => false
  | _ => true

mutual

/-- Whether no written name is left anywhere in the type. -/
def Ty.isResolved : Ty → Bool
  | .atom _ _ => true
  | .app ctor args _ => ctor.isResolved && Ty.allResolved args

/-- Whether no written name is left anywhere in the types. -/
def Ty.allResolved : List Ty → Bool
  | [] => true
  | ty :: rest => ty.isResolved && Ty.allResolved rest

end

mutual

/-- Whether a generic placeholder occurs anywhere in the type. -/
def Ty.containsGeneric : Ty → Bool
  | .atom (.generic _ _) _ => true
  | .atom _ _ => false
  | .app _ args _ => Ty.anyContainsGeneric args

/-- Whether a generic placeholder occurs anywhere in the types. -/
def Ty.anyContainsGeneric : List Ty → Bool
  | [] => false
  | ty :: rest => ty.containsGeneric || Ty.anyContainsGeneric rest

end

/-- A list of names with one more at its end, unless it is there already. -/
def addName (names : List String) (name : String) : List String :=
  if name ∈ names then names else names ++ [name]

mutual

/-- The placeholder names of a type added to those already met, in order of first occurrence. -/
def Ty.addGenericNames (names : List String) : Ty → List String
  | .atom (.generic name _) _ => addName names name
  | .atom _ _ => names
  | .app _ args _ => Ty.addAllGenericNames names args

/-- The placeholder names of several types added to those already met. -/
def Ty.addAllGenericNames (names : List String) : List Ty → List String
  | [] => names
  | ty :: rest => Ty.addAllGenericNames (ty.addGenericNames names) rest

end

/-- The placeholder names that occur in a type, each once, in order of first occurrence. -/
def Ty.genericNames (ty : Ty) : List String := ty.addGenericNames []

/-! ## Equality -/

mutual

/-- **Equality of the type system**: equal heads, all placeholders taken for one another, and pairwise
equal arguments. Nullability and locations take no part. -/
def Ty.equals : Ty → Ty → Bool
  | .atom shape _, other => shape.head.equates other.head && other.args.isEmpty
  | .app ctor args _, other => ctor.head.equates other.head && Ty.allEqual args other.args

/-- Pairwise equality of two lists of the same length. -/
def Ty.allEqual : List Ty → List Ty → Bool
  | [], [] => true
  | ty :: rest, other :: others => ty.equals other && Ty.allEqual rest others
  | _, _ => false

end

/-! ## Display -/

/-- The text of the head with its arguments in braces, if there are any. -/
def Ty.shownHead (head : Head) (args : List String) : String :=
  let name := head.name?.getD "Void"
  if args.isEmpty then name else name ++ "\x7b" ++ ", ".intercalate args ++ "\x7d"

/-- The mark of a nullable type. -/
def Ty.nullMark (nullable : Bool) : String := if nullable then "?" else ""

mutual

/-- The text of a type: its name, its arguments in braces, and a question mark if it is nullable. -/
def Ty.shown : Ty → String
  | .atom shape nullable => Ty.shownHead shape.head [] ++ Ty.nullMark nullable
  | .app ctor args nullable => Ty.shownHead ctor.head (Ty.allShown args) ++ Ty.nullMark nullable

/-- The texts of several types. -/
def Ty.allShown : List Ty → List String
  | [] => []
  | ty :: rest => ty.shown :: Ty.allShown rest

end

namespace Ty

/-! ## Common types -/

/-- The type of what yields no value. -/
def void : Ty := .atom .void false

/-- A builtin without arguments. -/
def builtin (kind : Builtin) : Ty := .app (.builtin kind) [] false

/-- The root of the subtype order. -/
def any : Ty := builtin .any

/-- The list type of an element type. -/
def list (element : Ty) : Ty := .app (.builtin .list) [element] false

/-- The tuple type of its element types. -/
def tuple (elements : List Ty) : Ty := .app (.builtin .tuple) elements false

/-- A struct applied to type arguments. -/
def struct (name : String) (args : List Ty) : Ty := .app (.struct name) args false

/-- An enum. -/
def enum (name : String) : Ty := .atom (.enum name) false

/-- A group. -/
def group (name : String) : Ty := .atom (.group name) false

/-- A generic placeholder that no source text spells. -/
def generic (name : String) : Ty := .atom (.generic name .nowhere) false

/-- The type of the literal `nil`. -/
def nil : Ty := enum nilName

/-- The type of truth values. -/
def boolean : Ty := enum booleanName

end Ty

end DeclCheck
