import DeclCheck.Conformity
import DeclCheck.Problem
import DeclCheck.Symbols.Functions
import DeclCheck.Ty.Substitution

/-!
# Overload resolution

A call is bound to one of the overloads of its key. An overload whose parameter types equal the
arguments' types wins outright. Otherwise every candidate is *assessed*: a generic one is specialised to
the arguments first, then the costs of all positions are added up, unless some position disqualifies the
candidate. The cheapest candidate wins, the earliest among equals. A specialisation that wins joins the
function table, so that the same call finds it as an exact match the next time.
-/

namespace DeclCheck

namespace FunctionDecl

/-- Whether the parameter types equal the argument types. -/
def matchesExactly (decl : FunctionDecl) (actuals : List Ty) : Bool :=
  Ty.allEqual decl.paramTypes actuals

end FunctionDecl

namespace Overloading

/-- What the arguments of a call say about the placeholders of a function. Parameters are read from
the last to the first, so that the first one to mention a placeholder decides. -/
def bindings (decl : FunctionDecl) (actuals : List Ty) : Bindings :=
  (decl.paramTypes.zip actuals).reverse.foldl
    (fun bindings pair => pair.1.bind bindings pair.2) .empty

/-- Whether a generic parameter is restricted to a group that its bound type is no member of. -/
def violates (lattice : Lattice) (bindings : Bindings) (generic : GenericParam) : Bool :=
  match generic.constraint, bindings.find? generic.name.name with
  | some constraint, some bound => (lattice.distance bound constraint).isNone
  | _, _ => false

/-- The position of the first parameter that mentions a placeholder. -/
def mentionPosition (decl : FunctionDecl) (name : String) : Nat :=
  (decl.paramTypes.findIdx? (fun ty => name ∈ ty.genericNames)).getD 0

/-- A function with its placeholders replaced. Bound generic parameters are gone. -/
def substituted (decl : FunctionDecl) (bindings : Bindings) : FunctionDecl :=
  { decl with
    params := decl.params.map fun param => { param with ty := param.ty.substitute bindings }
    returnType := decl.returnType.substitute bindings
    generics := decl.generics.filter fun generic => !bindings.contains generic.name.name }

/-- **Specialise a generic function to the arguments of a call.** It fails, with the position of the
parameter at fault, when an argument violates the restriction of a placeholder. -/
def specialise (lattice : Lattice) (decl : FunctionDecl) (actuals : List Ty) :
    Except Nat FunctionDecl :=
  let bindings := bindings decl actuals
  match decl.generics.find? (violates lattice bindings) with
  | some generic => .error (mentionPosition decl generic.name.name)
  | none => .ok (substituted decl bindings)

/-- The sum of the costs of all positions from the given one on, or the first position that
disqualifies. -/
def totalCost (lattice : Lattice) : Nat → List Ty → List Ty → Except Nat Nat
  | position, declared :: rest, actual :: actuals =>
    let cost := lattice.cost actual declared
    if Lattice.unrelatedCost ≤ cost then .error position
    else (totalCost lattice (position + 1) rest actuals).map (cost + ·)
  | _, _, _ => .ok 0

/-- An assessed candidate. -/
structure Bid where
  cost : Nat
  decl : FunctionDecl
  /-- Whether the candidate had to be specialised. -/
  specialised : Bool
  deriving Repr

/-- **Assess one candidate**: its bid, or the position that disqualifies it. -/
def assess (lattice : Lattice) (actuals : List Ty) (candidate : FunctionDecl) : Except Nat Bid := do
  let decl ← if candidate.isGeneric then specialise lattice candidate actuals else .ok candidate
  let cost ← totalCost lattice 0 decl.paramTypes actuals
  return ⟨cost, decl, candidate.isGeneric⟩

/-- The bids among the outcomes of several assessments. -/
def bids : List (Except Nat Bid) → List Bid
  | [] => []
  | .ok bid :: rest => bid :: bids rest
  | .error _ :: rest => bids rest

/-- The disqualifying positions among the outcomes of several assessments. -/
def failures : List (Except Nat Bid) → List Nat
  | [] => []
  | .ok _ :: rest => failures rest
  | .error position :: rest => position :: failures rest

/-- The cheapest bid, the earliest among equals. -/
def cheapest : List Bid → Option Bid
  | [] => none
  | bid :: rest =>
    match cheapest rest with
    | none => some bid
    | some other => if other.cost < bid.cost then some other else some bid

/-- A list of types with one more at its end, unless an equal type that is shown in the same way is
there. -/
def addShown (types : List Ty) (ty : Ty) : List Ty :=
  if types.any (fun other => other.equals ty && other.shown == ty.shown) then types
  else types ++ [ty]

/-- What the candidates declare at a position, each type once. -/
def declaredAt (candidates : List FunctionDecl) (position : Nat) : List Ty :=
  (candidates.filterMap (·.paramTypes[position]?)).foldl addShown []

/-- The report of a call that no candidate accepts. -/
def noConforming (candidates : List FunctionDecl) (signature : String) (actuals : List Ty)
    (position : Nat) : Problem :=
  .noConformingOverload signature (position + 1) ((actuals[position]?).getD Ty.void)
    (declaredAt candidates position)

/-- **Bind a call to an overload.** The answer is the winner, specialised if it was generic, and the
function table with that specialisation. `signature` is how the call looks in reports. -/
def resolve (lattice : Lattice) (functions : FunctionTable) (key : FunctionKey) (signature : String)
    (actuals : List Ty) (location : Location) : Except Error (FunctionDecl × FunctionTable) :=
  let candidates := functions.overloads key
  if candidates.isEmpty then refuse (.unknownFunction signature) location
  else
    match candidates.find? (·.matchesExactly actuals) with
    | some decl => .ok (decl, functions)
    | none =>
      let outcomes := candidates.map (assess lattice actuals)
      match cheapest (bids outcomes) with
      | some bid =>
        .ok (bid.decl, if bid.specialised then functions.insert bid.decl else functions)
      | none =>
        match (failures outcomes).min? with
        | some position => refuse (noConforming candidates signature actuals position) location
        | none => .error (.internal ("no candidate of " ++ key.shown ++ " was scored"))

end Overloading

end DeclCheck
