import DeclCheck.Ty.Basic

/-!
# The subtype lattice

A rooted forest of type identities. Every node but the root has one parent, inserted before it. A type
may stand at several nodes, once for each group it is bound into, and everything here is decided on
heads: a search from a type starts at all nodes that share its head.

`Lattice.distance` counts parent hops. The search advances by *rounds*: each round replaces a frontier
of types by their parents, one for each head, and it keeps no account of the heads that it has met before.
So where hops lead round a cycle and never to the ancestor, the search goes on for ever.

Among resolved heads the first round that meets the ancestor ends a shortest path. With unresolved names
agreement is not transitive: of two types that agree with one another only the first stays in the
frontier, the ancestor may stand above the other, and where heads lie in cycles the search may go round
them many times before it meets the ancestor.
-/

namespace DeclCheck

/-- A type in the lattice, and the position of its parent. -/
structure LatticeNode where
  ty : Ty
  parent : Option Nat
  deriving Repr

/-- **The subtype lattice**: its nodes in order of insertion, the root first. -/
structure Lattice where
  nodes : List LatticeNode
  deriving Repr

/-- A list of types with one more at its end, unless a type of the same head is there. -/
def addHead (types : List Ty) (ty : Ty) : List Ty :=
  if types.any (·.sameHead ty) then types else types ++ [ty]

/-- The types of a list, one for each head, in order of first occurrence. -/
def distinctHeads (types : List Ty) : List Ty := types.foldl addHead []

namespace Lattice

/-- The lattice of a root alone. -/
def ofRoot (root : Ty) : Lattice := ⟨[⟨root, none⟩]⟩

/-- The types at the nodes, in order of insertion. -/
def types (lattice : Lattice) : List Ty := lattice.nodes.map (·.ty)

/-- The number of nodes. -/
def size (lattice : Lattice) : Nat := lattice.nodes.length

/-- Whether a node has the head of the type. -/
def contains (lattice : Lattice) (ty : Ty) : Bool := lattice.nodes.any (·.ty.sameHead ty)

/-- The first type in the lattice with a name. -/
def find? (lattice : Lattice) (name : String) : Option Ty :=
  lattice.types.find? (·.name? == some name)

/-- **Attach a type under the first node that has the parent's head.** There is no result when no node
has. The attached type is not nullable. -/
def insert? (lattice : Lattice) (child parent : Ty) : Option Lattice :=
  (lattice.nodes.findIdx? (·.ty.sameHead parent)).map fun position =>
    ⟨lattice.nodes ++ [⟨child.withNullable false, some position⟩]⟩

/-- Attach a type where its parent is known to be present. -/
def insert (lattice : Lattice) (child parent : Ty) : Lattice :=
  (lattice.insert? child parent).getD lattice

/-- The type at a node's parent. -/
def parentOf (lattice : Lattice) (node : LatticeNode) : Option Ty :=
  node.parent.bind fun position => (lattice.nodes[position]?).map (·.ty)

/-- The parents of every node with the type's head, one for each head. -/
def parents (lattice : Lattice) (ty : Ty) : List Ty :=
  distinctHeads ((lattice.nodes.filter (·.ty.sameHead ty)).filterMap lattice.parentOf)

/-- The search of `distance`: go up from a frontier that lies the given number of hops above the start,
round by round, until a parent has the ancestor's head or nothing is left. A search that never ends has
no result. -/
def search (lattice : Lattice) (ancestor : Ty) (frontier : List Ty) (hops : Nat) :
    Option (Option Nat) :=
  let above := frontier.flatMap lattice.parents
  if above.isEmpty then some none
  else if above.any (·.sameHead ancestor) then some (some (hops + 1))
  else lattice |>.search ancestor (distinctHeads above) (hops + 1)
partial_fixpoint

/-- **The search with a limit.** There is no answer as long as it has not stopped within the rounds. -/
def climb (lattice : Lattice) (ancestor : Ty) : Nat → List Ty → Nat → Option (Option Nat)
  | 0, _, _ => none
  | rounds + 1, frontier, hops =>
    let above := frontier.flatMap lattice.parents
    if above.isEmpty then some none
    else if above.any (·.sameHead ancestor) then some (some (hops + 1))
    else lattice.climb ancestor rounds (distinctHeads above) (hops + 1)

/-- **The number of parent hops from a type up to an ancestor.** Equal types are no hop apart; there is
no distance to what the search never meets, and no end where the search has none. As many rounds as there
are nodes are counted, so that these distances can be evaluated; from then on there is no limit. -/
def distance (lattice : Lattice) (child ancestor : Ty) : Option Nat :=
  if child.equals ancestor then some 0
  else
    match lattice.climb ancestor lattice.size [child] 0 with
    | some outcome => outcome
    | none => (lattice.search ancestor [child] 0).join

/-- Builtins directly under the root, beside the numbers. -/
def plainBuiltins : List Builtin := [.string, .date, .list, .table, .tuple, .struct, .enum]

/-- **The builtin hierarchy that every check starts from.** Integers are numbers; all other builtins
stand directly under `Any`. -/
def initial : Lattice :=
  let numbers :=
    ((ofRoot Ty.any).insert (Ty.builtin .number) Ty.any).insert
      (Ty.builtin .integer) (Ty.builtin .number)
  plainBuiltins.foldl (fun lattice kind => lattice.insert (Ty.builtin kind) Ty.any) numbers

end Lattice

end DeclCheck
