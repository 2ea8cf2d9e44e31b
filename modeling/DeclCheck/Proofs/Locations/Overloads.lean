import DeclCheck.Overloading
import DeclCheck.Proofs.Locations.Types
import DeclCheck.Proofs.Symbols.Functions

/-!
# Overloads without locations and bodies

The function table keeps each function with its body, but binding a call reads signatures only. So a table is known,
as far as calls are concerned, by its *outline*: its overloads without bodies and written nowhere. A call is bound in
the outline of a table as in the table.
-/

namespace DeclCheck

/-! ## Errors -/

/-- The problem with the types in it written nowhere. -/
def Problem.unplaced : Problem → Problem
  | .boundToNonGroup child parent => .boundToNonGroup child.unplaced parent.unplaced
  | .nilAssigned name expected => .nilAssigned name expected.unplaced
  | .variableMismatch name expected actual => .variableMismatch name expected.unplaced actual.unplaced
  | .memberMismatch member expected actual => .memberMismatch member expected.unplaced actual.unplaced
  | .returnMismatch expected actual => .returnMismatch expected.unplaced actual.unplaced
  | .notIterable actual => .notIterable actual.unplaced
  | .mixedList position expected actual => .mixedList position expected.unplaced actual.unplaced
  | .memberOfNonStruct actual => .memberOfNonStruct actual.unplaced
  | .noConformingOverload signature position actual candidates =>
    .noConformingOverload signature position actual.unplaced (candidates.map Ty.unplaced)
  | .valueDropped ty => .valueDropped ty.unplaced
  | problem => problem

/-- **The error without its place.** -/
def Error.unplaced : Error → Error
  | .found problem _ => .found problem.unplaced .nowhere
  | .internal message => .internal message

/-- What forgetting places makes of an outcome: its error is written nowhere, and its value is changed. -/
def unplacing {α β : Type} (change : α → β) : Except Error α → Except Error β
  | .ok value => .ok (change value)
  | .error error => .error error.unplaced

section

variable {α β γ δ : Type} {change : α → β}

/-- A value that is returned is changed. -/
@[simp] theorem unplacing_ok (value : α) : unplacing change (.ok value) = .ok (change value) := rfl

/-- The same for a value that is merely given. -/
@[simp] theorem unplacing_pure (value : α) : unplacing change (pure value) = pure (change value) := rfl

/-- A refusal keeps its problem and loses its place. -/
@[simp] theorem unplacing_refuse (problem : Problem) (location : Location) :
    unplacing change (refuse problem location) = refuse problem.unplaced .nowhere := rfl

/-- Two decisions in a row. -/
theorem unplacing_bind {after : γ → δ} {first : Except Error α} {firstImage : Except Error β}
    {next : α → Except Error γ} {nextImage : β → Except Error δ} (one : firstImage = unplacing change first)
    (two : ∀ value, nextImage (change value) = unplacing after (next value)) :
    (firstImage >>= nextImage) = unplacing after (first >>= next) := by
  rw [one]
  cases first with
  | error error => rfl
  | ok value => exact two value

/-- One decision for each item of a list. -/
theorem unplacing_mapM (change : α → β) (after : γ → δ) {step : α → Except Error γ} {image : β → Except Error δ}
    (each : ∀ item, image (change item) = unplacing after (step item)) (items : List α) :
    (items.map change).mapM image = unplacing (List.map after) (items.mapM step) := by
  induction items with
  | nil => rfl
  | cons item rest ih =>
    rw [List.map_cons, List.mapM_cons, List.mapM_cons]
    exact unplacing_bind (each item) fun value => unplacing_bind ih fun others => rfl

end

/-! ## Signatures -/

/-- The name written nowhere. -/
def Ident.unplaced (ident : Ident) : Ident := ⟨ident.name, .nowhere⟩

/-- A name is not where it was written. -/
@[simp] theorem Ident.name_unplaced (ident : Ident) : ident.unplaced.name = ident.name := rfl

/-- The parameter written nowhere. -/
def Param.unplaced (param : Param) : Param := { param with name := param.name.unplaced, ty := param.ty.unplaced }

/-- The generic parameter written nowhere. -/
def GenericParam.unplaced (generic : GenericParam) : GenericParam :=
  ⟨generic.name.unplaced, generic.constraint.map Ty.unplaced⟩

/-- A signature keeps its words. -/
@[simp] theorem Signature.tokens_unplaced (signature : Signature) :
    Signature.tokens (signature.map Ident.unplaced) = signature.tokens := by
  simp only [tokens, List.map_map]
  rfl

/-- It is shown as before. -/
@[simp] theorem Signature.shown_unplaced (signature : Signature) (affix : Affix) :
    Signature.shown (signature.map Ident.unplaced) affix = signature.shown affix := by
  simp only [shown, tokens_unplaced]

/-- No place of a signature is left. -/
@[simp] theorem Signature.location_unplaced (signature : Signature) :
    Signature.location (signature.map Ident.unplaced) = .nowhere := by
  cases signature <;> rfl

/-- So calls and functions keep their keys. -/
@[simp] theorem FunctionKey.ofSignature_unplaced (signature : Signature) (arity : Nat) :
    FunctionKey.ofSignature (signature.map Ident.unplaced) arity = .ofSignature signature arity := by
  simp only [ofSignature, Signature.tokens_unplaced]

namespace FunctionDecl

/-- The function written nowhere, with the given statements for its body. -/
def unplacedWith (body : List Stmt) (decl : FunctionDecl) : FunctionDecl where
  signature := decl.signature.map Ident.unplaced
  affix := decl.affix
  returnType := decl.returnType.unplaced
  params := decl.params.map Param.unplaced
  body := body
  generics := decl.generics.map GenericParam.unplaced
  origin := decl.origin
  location := .nowhere

/-- **The function without its body and the places it was written at.** -/
def outline (decl : FunctionDecl) : FunctionDecl := decl.unplacedWith []

variable (body : List Stmt) (decl : FunctionDecl)

/-- Whatever becomes of the body, a function keeps its key. -/
@[simp] theorem key_unplacedWith : (decl.unplacedWith body).key = decl.key := by
  simp only [key, unplacedWith, List.length_map, FunctionKey.ofSignature_unplaced]

/-- The types of its parameters lose their places. -/
@[simp] theorem paramTypes_unplacedWith : (decl.unplacedWith body).paramTypes = decl.paramTypes.map Ty.unplaced := by
  simp only [paramTypes, unplacedWith, List.map_map]
  rfl

/-- It keeps the names of its generic parameters. -/
@[simp] theorem genericNames_unplacedWith : (decl.unplacedWith body).genericNames = decl.genericNames := by
  simp only [genericNames, unplacedWith, List.map_map]
  rfl

/-- It is generic if it was. -/
@[simp] theorem isGeneric_unplacedWith : (decl.unplacedWith body).isGeneric = decl.isGeneric := by
  simp only [isGeneric, unplacedWith, List.any_map, Function.comp_def, Param.unplaced, Ty.containsGeneric_unplaced]

/-- The outline of a function has its key. -/
@[simp] theorem key_outline : decl.outline.key = decl.key := key_unplacedWith [] decl

/-- It has the types of the parameters, without places. -/
@[simp] theorem paramTypes_outline : decl.outline.paramTypes = decl.paramTypes.map Ty.unplaced :=
  paramTypes_unplacedWith [] decl

/-- It is generic if the function is. -/
@[simp] theorem isGeneric_outline : decl.outline.isGeneric = decl.isGeneric := isGeneric_unplacedWith [] decl

/-- Functions are the same overload exactly if their outlines are. -/
@[simp] theorem sameOverload_outline (other : FunctionDecl) :
    decl.outline.sameOverload other.outline = decl.sameOverload other := by
  simp only [sameOverload, key_outline, paramTypes_outline, Ty.allEqual_map_unplaced]

/-- Arguments match the outline exactly if they match the function exactly. -/
@[simp] theorem matchesExactly_outline (actuals : List Ty) :
    decl.outline.matchesExactly (actuals.map Ty.unplaced) = decl.matchesExactly actuals := by
  simp only [matchesExactly, paramTypes_outline, Ty.allEqual_map_unplaced]

end FunctionDecl

/-! ## The function table -/

namespace FunctionTable

/-- **The outlines of all overloads.** -/
def outline (functions : FunctionTable) : FunctionTable :=
  ⟨functions.groups.mapValues (List.map FunctionDecl.outline)⟩

variable (functions : FunctionTable)

/-- The outline of a table lists the outlines of the same overloads. -/
@[simp] theorem overloads_outline (key : FunctionKey) :
    functions.outline.overloads key = (functions.overloads key).map FunctionDecl.outline := by
  simp only [overloads, outline, Dict.find?_mapValues]
  cases functions.groups.find? key <;> rfl

/-- An overload joins the outline of a table as it joins the table, whatever its body. -/
@[simp] theorem insert_outline (decl : FunctionDecl) :
    functions.outline.insert decl.outline = (functions.insert decl).outline := by
  simp only [insert_eq, overloads_outline, FunctionDecl.key_outline, List.any_map, Function.comp_def,
    FunctionDecl.sameOverload_outline]
  split
  · rfl
  · have grown := functions.groups.insert_mapValues (List.map FunctionDecl.outline) decl.key
      (functions.overloads decl.key ++ [decl])
    rw [List.map_append, List.map_singleton] at grown
    exact congrArg mk grown

end FunctionTable

/-! ## Binding a call -/

namespace Overloading

/-- Arguments bind the placeholders of an outline to the same types. -/
theorem bindings_outline (decl : FunctionDecl) (actuals : List Ty) :
    bindings decl.outline (actuals.map Ty.unplaced) = (bindings decl actuals).mapValues Ty.unplaced := by
  rw [bindings, bindings, FunctionDecl.paramTypes_outline, List.zip_map, ← List.map_reverse]
  refine foldl_image (Prod.map Ty.unplaced Ty.unplaced) (Dict.mapValues Ty.unplaced) (fun bound pair => ?_) _ Dict.empty
  exact Ty.bind_unplaced pair.1 bound pair.2

/-- A restriction is violated wherever it was written. -/
theorem violates_unplaced (lattice : Lattice) (bound : Bindings) (generic : GenericParam) :
    violates lattice.unplaced (bound.mapValues Ty.unplaced) generic.unplaced = violates lattice bound generic := by
  simp only [violates, GenericParam.unplaced, Ident.unplaced, Dict.find?_mapValues]
  cases generic.constraint with
  | none => rfl
  | some constraint =>
    cases bound.find? generic.name.name with
    | none => rfl
    | some ty => simp only [Option.map_some, Lattice.distance_unplaced]

/-- A placeholder is first mentioned at the same position. -/
theorem mentionPosition_outline (decl : FunctionDecl) (name : String) :
    mentionPosition decl.outline name = mentionPosition decl name := by
  simp only [mentionPosition, FunctionDecl.paramTypes_outline, List.findIdx?_map, Function.comp_def,
    Ty.genericNames_unplaced]

/-- Substitution in the outline makes the outline of what it makes in the function. -/
theorem substituted_outline (decl : FunctionDecl) (bound : Bindings) :
    substituted decl.outline (bound.mapValues Ty.unplaced) = (substituted decl bound).outline := by
  have params : (decl.params.map Param.unplaced).map
      (fun param => { param with ty := param.ty.substitute (bound.mapValues Ty.unplaced) }) =
        (decl.params.map fun param => { param with ty := param.ty.substitute bound }).map Param.unplaced := by
    simp only [List.map_map, Function.comp_def, Param.unplaced, Ty.substitute_unplaced]
  have generics : (decl.generics.map GenericParam.unplaced).filter
      (fun generic => !(bound.mapValues Ty.unplaced).contains generic.name.name) =
        (decl.generics.filter fun generic => !bound.contains generic.name.name).map GenericParam.unplaced := by
    simp only [List.filter_map, Function.comp_def, Dict.contains_mapValues]
    rfl
  simp only [substituted, FunctionDecl.outline, FunctionDecl.unplacedWith, params, generics, Ty.substitute_unplaced]

/-- **Specialising commutes with outlines**, and it fails at the same position. -/
theorem specialise_outline (lattice : Lattice) (decl : FunctionDecl) (actuals : List Ty) :
    specialise lattice.unplaced decl.outline (actuals.map Ty.unplaced) =
      (specialise lattice decl actuals).map FunctionDecl.outline := by
  have generics : decl.outline.generics = decl.generics.map GenericParam.unplaced := rfl
  simp only [specialise, bindings_outline, generics, List.find?_map, Function.comp_def, violates_unplaced]
  cases decl.generics.find? (violates lattice (bindings decl actuals)) with
  | none => exact congrArg Except.ok (substituted_outline decl _)
  | some generic => exact congrArg Except.error (mentionPosition_outline decl _)

/-- The arguments of a call cost as much without places, and the same one is refused. -/
theorem totalCost_unplaced (lattice : Lattice) (position : Nat) (params actuals : List Ty) :
    totalCost lattice.unplaced position (params.map Ty.unplaced) (actuals.map Ty.unplaced) =
      totalCost lattice position params actuals := by
  induction params generalizing position actuals with
  | nil => cases actuals <;> rfl
  | cons declared rest ih =>
    cases actuals with
    | nil => rfl
    | cons actual actuals => simp only [List.map_cons, totalCost, Lattice.cost_unplaced, ih]

/-- The bid with the outline of its function. -/
def Bid.outline (bid : Bid) : Bid := { bid with decl := bid.decl.outline }

/-- **A candidate is assessed by its outline alone.** -/
theorem assess_outline (lattice : Lattice) (actuals : List Ty) (candidate : FunctionDecl) :
    assess lattice.unplaced (actuals.map Ty.unplaced) candidate.outline =
      (assess lattice actuals candidate).map Bid.outline := by
  have cost (decl : FunctionDecl) : totalCost lattice.unplaced 0 decl.outline.paramTypes (actuals.map Ty.unplaced) =
      totalCost lattice 0 decl.paramTypes actuals := by
    rw [FunctionDecl.paramTypes_outline, totalCost_unplaced]
  simp only [assess, FunctionDecl.isGeneric_outline, specialise_outline]
  split
  · cases specialise lattice candidate actuals with
    | error position => rfl
    | ok decl =>
      simp only [Except.map, bind, Except.bind, cost]
      cases totalCost lattice 0 decl.paramTypes actuals <;> rfl
  · simp only [bind, Except.bind, cost]
    cases totalCost lattice 0 candidate.paramTypes actuals <;> rfl

/-- The bids of outlines are the outlines of the bids. -/
theorem bids_outline (outcomes : List (Except Nat Bid)) :
    bids (outcomes.map (Except.map Bid.outline)) = (bids outcomes).map Bid.outline := by
  induction outcomes with
  | nil => rfl
  | cons outcome rest ih =>
    cases outcome with
    | error position => simpa only [List.map_cons, Except.map, bids] using ih
    | ok bid => simp only [List.map_cons, Except.map, bids, ih]

/-- The failures are the same. -/
theorem failures_outline (outcomes : List (Except Nat Bid)) :
    failures (outcomes.map (Except.map Bid.outline)) = failures outcomes := by
  induction outcomes with
  | nil => rfl
  | cons outcome rest ih =>
    cases outcome with
    | error position => simp only [List.map_cons, Except.map, failures, ih]
    | ok bid => simpa only [List.map_cons, Except.map, failures] using ih

/-- So is the cheapest bid, by position and cost. -/
theorem cheapest_outline (offers : List Bid) :
    cheapest (offers.map Bid.outline) = (cheapest offers).map Bid.outline := by
  induction offers with
  | nil => rfl
  | cons bid rest ih =>
    simp only [List.map_cons, cheapest, ih]
    cases cheapest rest with
    | none => rfl
    | some other =>
      simp only [Option.map_some]
      by_cases lower : other.cost < bid.cost
      · rw [if_pos lower]
        exact if_pos lower
      · rw [if_neg lower]
        exact if_neg lower

/-- A type is shown already or not wherever it was written. -/
theorem addShown_unplaced (types : List Ty) (ty : Ty) :
    addShown (types.map Ty.unplaced) ty.unplaced = (addShown types ty).map Ty.unplaced := by
  simp only [addShown, List.any_map, Function.comp_def, Ty.equals_unplaced, Ty.shown_unplaced]
  split <;> simp

/-- The types declared at a position lose their places. -/
theorem declaredAt_outline (candidates : List FunctionDecl) (position : Nat) :
    declaredAt (candidates.map FunctionDecl.outline) position = (declaredAt candidates position).map Ty.unplaced := by
  have listed : (candidates.map FunctionDecl.outline).filterMap (·.paramTypes[position]?) =
      (candidates.filterMap (·.paramTypes[position]?)).map Ty.unplaced := by
    simp only [List.filterMap_map, List.map_filterMap, Function.comp_def, FunctionDecl.paramTypes_outline,
      List.getElem?_map]
  rw [declaredAt, declaredAt, listed]
  exact foldl_image Ty.unplaced (List.map Ty.unplaced) addShown_unplaced _ []

/-- A refusal for lack of a conforming function names the same types. -/
theorem noConforming_outline (candidates : List FunctionDecl) (signature : String) (actuals : List Ty)
    (position : Nat) :
    noConforming (candidates.map FunctionDecl.outline) signature (actuals.map Ty.unplaced) position =
      (noConforming candidates signature actuals position).unplaced := by
  simp only [noConforming, Problem.unplaced, declaredAt_outline, List.getElem?_map]
  cases actuals[position]? <;> rfl

/-- **A call is bound in the outline of a table as in the table.** -/
theorem resolve_outline (lattice : Lattice) (functions : FunctionTable) (key : FunctionKey) (signature : String)
    (actuals : List Ty) (location : Location) :
    resolve lattice.unplaced functions.outline key signature (actuals.map Ty.unplaced) .nowhere =
      unplacing (fun found => (found.1.outline, found.2.outline))
        (resolve lattice functions key signature actuals location) := by
  have outcomes : ((functions.overloads key).map FunctionDecl.outline).map
      (assess lattice.unplaced (actuals.map Ty.unplaced)) =
        ((functions.overloads key).map (assess lattice actuals)).map (Except.map Bid.outline) := by
    simp only [List.map_map, Function.comp_def, assess_outline]
  simp only [resolve, FunctionTable.overloads_outline, List.isEmpty_map, List.find?_map, Function.comp_def,
    FunctionDecl.matchesExactly_outline, outcomes, bids_outline, failures_outline, cheapest_outline]
  split
  · rfl
  · cases (functions.overloads key).find? (·.matchesExactly actuals) with
    | some decl => rfl
    | none =>
      cases cheapest (bids ((functions.overloads key).map (assess lattice actuals))) with
      | some bid =>
        simp only [Option.map_some, Option.map_none, unplacing_ok, Bid.outline, FunctionTable.insert_outline]
        split <;> rfl
      | none =>
        cases (failures ((functions.overloads key).map (assess lattice actuals))).min? with
        | some position => simp only [Option.map_none, noConforming_outline, unplacing_refuse]
        | none => rfl

end Overloading

end DeclCheck
