import DeclCheck.Dict
import DeclCheck.Tree.Decl

/-!
# The function table

Overloads grouped by key, each group in order of registration. A group never holds two overloads with
equal parameter types: the second one is refused.
-/

namespace DeclCheck

namespace FunctionDecl

/-- Whether the first parameter belongs to the struct or group of a name, or is a placeholder
restricted to it. -/
def isBoundTo (decl : FunctionDecl) (name : String) : Bool :=
  match decl.paramTypes with
  | .app (.struct own) _ _ :: _ => own == name
  | .atom (.group own) _ :: _ => own == name
  | .atom (.generic placeholder _) _ :: _ =>
    decl.generics.any fun generic =>
      generic.name.name == placeholder && generic.constraint.any (·.name? == some name)
  | _ => false

end FunctionDecl

/-- **The function table.** -/
structure FunctionTable where
  groups : Dict FunctionKey (List FunctionDecl)
  deriving Repr

namespace FunctionTable

/-- The table without overloads. -/
def empty : FunctionTable := ⟨.empty⟩

instance : Inhabited FunctionTable := ⟨empty⟩

/-- The overloads of a key, in order of registration. -/
def overloads (table : FunctionTable) (key : FunctionKey) : List FunctionDecl :=
  (table.groups.find? key).getD []

/-- **Add an overload at the end of its group.** There is no result when the group has an equal one. -/
def insert? (table : FunctionTable) (decl : FunctionDecl) : Option FunctionTable :=
  let group := table.overloads decl.key
  if group.any (·.sameOverload decl) then none
  else some ⟨table.groups.insert decl.key (group ++ [decl])⟩

/-- The table with an overload, which may have been there already. -/
def insert (table : FunctionTable) (decl : FunctionDecl) : FunctionTable :=
  (table.insert? decl).getD table

/-- All overloads, by key and then by registration. -/
def all (table : FunctionTable) : List FunctionDecl := table.groups.values.flatten

/-- The overloads bound to a struct or group. -/
def boundTo (table : FunctionTable) (name : String) : List FunctionDecl :=
  table.all.filter (·.isBoundTo name)

/-- The number of overloads. -/
def size (table : FunctionTable) : Nat := table.all.length

/-- Whether no overload was ever added. -/
def isEmpty (table : FunctionTable) : Bool := table.groups.isEmpty

end FunctionTable

end DeclCheck
