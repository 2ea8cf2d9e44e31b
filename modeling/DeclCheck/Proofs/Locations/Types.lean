import DeclCheck.Conformity
import DeclCheck.Proofs.Dict
import DeclCheck.Proofs.Lattice.Search
import DeclCheck.Ty.Substitution

/-!
# Types without their locations

To say that two things are equal up to locations is to say that they become equal when every location in them is
forgotten. What the checker does with types never looks at where they were written: each of its functions, given a
type without locations, answers as it does for the type, and what it makes of the type has no locations either.
-/

namespace DeclCheck

/-! ## Forgetting locations -/

/-- The shape written nowhere. -/
def Atom.unplaced : Atom → Atom
  | .generic name _ => .generic name .nowhere
  | .void => .void
  | .enum name => .enum name
  | .group name => .group name

/-- The constructor written nowhere. -/
def Ctor.unplaced : Ctor → Ctor
  | .unresolved name _ => .unresolved name .nowhere
  | .builtin kind => .builtin kind
  | .struct name => .struct name

/-- A head has no location, so forgetting that of a shape leaves the head. -/
@[simp] theorem Atom.head_unplaced (shape : Atom) : shape.unplaced.head = shape.head := by cases shape <;> rfl

/-- Nor does it change the head of a constructor. -/
@[simp] theorem Ctor.head_unplaced (ctor : Ctor) : ctor.unplaced.head = ctor.head := by cases ctor <;> rfl

mutual

/-- **The type without the places it was written at.** -/
def Ty.unplaced : Ty → Ty
  | .atom shape nullable => .atom shape.unplaced nullable
  | .app ctor args nullable => .app ctor.unplaced (Ty.allUnplaced args) nullable

/-- Several types without their places. -/
def Ty.allUnplaced : List Ty → List Ty
  | [] => []
  | ty :: rest => ty.unplaced :: Ty.allUnplaced rest

end

/-- Of two missing locations the first is taken, and is missing. -/
@[simp] theorem Location.orElse_nowhere : Location.nowhere.orElse .nowhere = .nowhere := rfl

namespace Ty

/-- Several types lose their places one by one. -/
@[simp] theorem allUnplaced_eq_map (types : List Ty) : allUnplaced types = types.map unplaced := by
  induction types with
  | nil => rfl
  | cons ty rest ih => rw [allUnplaced, ih, List.map_cons]

/-! ## Parts -/

/-- The head of a type is not where it was written. -/
@[simp] theorem head_unplaced (ty : Ty) : ty.unplaced.head = ty.head := by
  cases ty <;> simp only [unplaced, head, Atom.head_unplaced, Ctor.head_unplaced]

/-- The arguments lose their places with the type. -/
@[simp] theorem args_unplaced (ty : Ty) : ty.unplaced.args = ty.args.map unplaced := by
  cases ty <;> simp only [unplaced, args, allUnplaced_eq_map, List.map_nil]

/-- Whether a type admits `nil` does not depend on its place. -/
@[simp] theorem nullable_unplaced (ty : Ty) : ty.unplaced.nullable = ty.nullable := by cases ty <;> rfl

/-- Forgetting places commutes with changing nullability. -/
@[simp] theorem withNullable_unplaced (ty : Ty) (nullable : Bool) :
    ty.unplaced.withNullable nullable = (ty.withNullable nullable).unplaced := by
  cases ty <;> rfl

/-- No place is left at the head of a type. -/
@[simp] theorem location_unplaced (ty : Ty) : ty.unplaced.location = .nowhere := by
  cases ty with
  | atom shape nullable => cases shape <;> rfl
  | app ctor args nullable => cases ctor <;> rfl

/-- The name of a type is not where it was written. -/
@[simp] theorem name?_unplaced (ty : Ty) : ty.unplaced.name? = ty.name? := by simp only [name?, head_unplaced]

/-- Whether a type is `Void` does not depend on its place. -/
@[simp] theorem isVoid_unplaced (ty : Ty) : ty.unplaced.isVoid = ty.isVoid := by simp only [isVoid, head_unplaced]

/-- Nor does whether it is the type of `nil`. -/
@[simp] theorem isNil_unplaced (ty : Ty) : ty.unplaced.isNil = ty.isNil := by simp only [isNil, head_unplaced]

/-- Nor does whether it is `Any`. -/
@[simp] theorem isAny_unplaced (ty : Ty) : ty.unplaced.isAny = ty.isAny := by simp only [isAny, head_unplaced]

/-- Nor does whether two types share a head. -/
@[simp] theorem sameHead_unplaced (first second : Ty) :
    first.unplaced.sameHead second.unplaced = first.sameHead second := by
  simp only [sameHead, head_unplaced]

/-! ## Traversals -/

mutual

/-- **Equality of types does not look at places**, at any depth. -/
@[simp] theorem equals_unplaced : ∀ first second : Ty, first.unplaced.equals second.unplaced = first.equals second
  | .atom shape _, second => by
    rw [unplaced, equals, equals, Atom.head_unplaced, head_unplaced, args_unplaced, List.isEmpty_map]
  | .app ctor args _, second => by
    rw [unplaced, equals, equals, Ctor.head_unplaced, head_unplaced, args_unplaced, allEqual_unplaced args]

/-- Nor does the equality of lists of types. -/
theorem allEqual_unplaced : ∀ types others : List Ty,
    allEqual (allUnplaced types) (others.map unplaced) = allEqual types others
  | [], [] => rfl
  | [], _ :: _ => rfl
  | _ :: _, [] => rfl
  | ty :: rest, other :: others => by
    rw [allUnplaced, List.map_cons, allEqual, allEqual, equals_unplaced ty, allEqual_unplaced rest]

end

/-- The same for lists that lose their places by `map`. -/
@[simp] theorem allEqual_map_unplaced (types others : List Ty) :
    allEqual (types.map unplaced) (others.map unplaced) = allEqual types others := by
  rw [← allUnplaced_eq_map, allEqual_unplaced]

mutual

/-- A type is shown without its places. -/
@[simp] theorem shown_unplaced : ∀ ty : Ty, ty.unplaced.shown = ty.shown
  | .atom shape _ => by rw [unplaced, shown, shown, Atom.head_unplaced]
  | .app ctor args _ => by rw [unplaced, shown, shown, Ctor.head_unplaced, allShown_unplaced args]

/-- So are several types. -/
theorem allShown_unplaced : ∀ types : List Ty, allShown (allUnplaced types) = allShown types
  | [] => rfl
  | ty :: rest => by rw [allUnplaced, allShown, allShown, shown_unplaced ty, allShown_unplaced rest]

end

mutual

/-- A type keeps its placeholders. -/
@[simp] theorem containsGeneric_unplaced : ∀ ty : Ty, ty.unplaced.containsGeneric = ty.containsGeneric
  | .atom .void _ => rfl
  | .atom (.generic _ _) _ => rfl
  | .atom (.enum _) _ => rfl
  | .atom (.group _) _ => rfl
  | .app _ args _ => by rw [unplaced, containsGeneric, containsGeneric, anyContainsGeneric_unplaced args]

/-- Several types keep theirs. -/
theorem anyContainsGeneric_unplaced : ∀ types : List Ty,
    anyContainsGeneric (allUnplaced types) = anyContainsGeneric types
  | [] => rfl
  | ty :: rest => by
    rw [allUnplaced, anyContainsGeneric, anyContainsGeneric, containsGeneric_unplaced ty,
      anyContainsGeneric_unplaced rest]

end

mutual

/-- Collecting the names of placeholders does not look at places. -/
theorem addGenericNames_unplaced : ∀ (ty : Ty) (names : List String),
    ty.unplaced.addGenericNames names = ty.addGenericNames names
  | .atom .void _, _ => rfl
  | .atom (.generic _ _) _, _ => rfl
  | .atom (.enum _) _, _ => rfl
  | .atom (.group _) _, _ => rfl
  | .app _ args _, names => by rw [unplaced, addGenericNames, addGenericNames, addAllGenericNames_unplaced args]

/-- Nor does collecting them from several types. -/
theorem addAllGenericNames_unplaced : ∀ (types : List Ty) (names : List String),
    addAllGenericNames names (allUnplaced types) = addAllGenericNames names types
  | [], _ => rfl
  | ty :: rest, names => by
    rw [allUnplaced, addAllGenericNames, addAllGenericNames, addGenericNames_unplaced ty,
      addAllGenericNames_unplaced rest]

end

/-- **A type keeps the names of its placeholders**, in their order. -/
@[simp] theorem genericNames_unplaced (ty : Ty) : ty.unplaced.genericNames = ty.genericNames :=
  addGenericNames_unplaced ty []

end Ty

/-! ## The lattice -/

/-- The node with its type written nowhere. -/
def LatticeNode.unplaced (node : LatticeNode) : LatticeNode := ⟨node.ty.unplaced, node.parent⟩

/-- The lattice without the places of its types. -/
def Lattice.unplaced (lattice : Lattice) : Lattice := ⟨lattice.nodes.map LatticeNode.unplaced⟩

/-- A fold over images is the image of the fold, if each of its steps is. -/
theorem foldl_image {α β γ δ : Type} (image : α → β) (change : γ → δ) {step : γ → α → γ} {stepImage : δ → β → δ}
    (each : ∀ value item, stepImage (change value) (image item) = change (step value item)) (items : List α)
    (value : γ) : (items.map image).foldl stepImage (change value) = change (items.foldl step value) := by
  rw [List.foldl_map]
  exact List.foldl_hom change each

/-- A head is new among others whether or not their places are known. -/
theorem addHead_unplaced (types : List Ty) (ty : Ty) :
    addHead (types.map Ty.unplaced) ty.unplaced = (addHead types ty).map Ty.unplaced := by
  simp only [addHead, List.any_map, Function.comp_def, Ty.sameHead_unplaced]
  split <;> simp

/-- So the same heads are left out as repeated. -/
theorem distinctHeads_unplaced (types : List Ty) :
    distinctHeads (types.map Ty.unplaced) = (distinctHeads types).map Ty.unplaced :=
  foldl_image Ty.unplaced (List.map Ty.unplaced) addHead_unplaced types []

namespace Lattice

variable (lattice : Lattice)

/-- The types of a lattice lose their places one by one. -/
@[simp] theorem types_unplaced : lattice.unplaced.types = lattice.types.map Ty.unplaced := by
  simp only [types, unplaced, List.map_map]
  rfl

/-- A lattice knows the same heads without places. -/
@[simp] theorem contains_unplaced (ty : Ty) : lattice.unplaced.contains ty.unplaced = lattice.contains ty := by
  simp only [contains, unplaced, List.any_map]
  simp only [Function.comp_def, LatticeNode.unplaced, Ty.sameHead_unplaced]

/-- It finds the same types by name. -/
@[simp] theorem find?_unplaced (name : String) :
    lattice.unplaced.find? name = (lattice.find? name).map Ty.unplaced := by
  simp only [find?, types_unplaced, List.find?_map, Function.comp_def, Ty.name?_unplaced]

/-- A type is attached at the same position. -/
@[simp] theorem insert?_unplaced (child parent : Ty) :
    lattice.unplaced.insert? child.unplaced parent.unplaced = (lattice.insert? child parent).map unplaced := by
  simp only [insert?, unplaced, List.findIdx?_map, Function.comp_def, LatticeNode.unplaced, Ty.sameHead_unplaced,
    Option.map_map]
  simp [LatticeNode.unplaced]

/-- The same where the parent is known to be there. -/
theorem insert_unplaced (child parent : Ty) :
    lattice.unplaced.insert child.unplaced parent.unplaced = (lattice.insert child parent).unplaced := by
  simp only [insert, insert?_unplaced]
  cases lattice.insert? child parent <;> rfl

/-- A node has the same parent. -/
theorem parentOf_unplaced (node : LatticeNode) :
    lattice.unplaced.parentOf node.unplaced = (lattice.parentOf node).map Ty.unplaced := by
  cases parent : node.parent with
  | none => simp [parentOf, LatticeNode.unplaced, parent]
  | some position =>
    simp only [parentOf, LatticeNode.unplaced, parent, unplaced, Option.bind_some, List.getElem?_map, Option.map_map]
    rfl

/-- A type has the same parents. -/
theorem parents_unplaced (ty : Ty) :
    lattice.unplaced.parents ty.unplaced = (lattice.parents ty).map Ty.unplaced := by
  rw [parents, parents, ← distinctHeads_unplaced, List.map_filterMap]
  simp only [unplaced, List.filter_map, List.filterMap_map, Function.comp_def, LatticeNode.unplaced,
    Ty.sameHead_unplaced]
  congr 2
  funext node
  exact parentOf_unplaced lattice node

/-- Round by round the search goes up the same ways. -/
theorem climb_unplaced (ancestor : Ty) (rounds : Nat) (frontier : List Ty) (hops : Nat) :
    lattice.unplaced.climb ancestor.unplaced rounds (frontier.map Ty.unplaced) hops =
      lattice.climb ancestor rounds frontier hops := by
  induction rounds generalizing frontier hops with
  | zero => rfl
  | succ rounds ih =>
    have above : (frontier.map Ty.unplaced).flatMap lattice.unplaced.parents =
        (frontier.flatMap lattice.parents).map Ty.unplaced := by
      simp only [List.flatMap_map, List.map_flatMap, parents_unplaced]
    rw [climb, climb]
    simp only [above, distinctHeads_unplaced, List.isEmpty_map, List.any_map, Function.comp_def,
      Ty.sameHead_unplaced, ih]

/-- **Distances do not depend on where types were written.** -/
@[simp] theorem distance_unplaced (child ancestor : Ty) :
    lattice.unplaced.distance child.unplaced ancestor.unplaced = lattice.distance child ancestor := by
  have search : lattice.unplaced.search ancestor.unplaced [child.unplaced] 0 = lattice.search ancestor [child] 0 :=
    search_congr fun rounds => climb_unplaced lattice ancestor rounds [child] 0
  rw [distance_eq, distance_eq, Ty.equals_unplaced, search]

/-- Types meet at `nil` wherever they were written. -/
theorem meetsAtNil_unplaced (actual expected : Ty) :
    meetsAtNil actual.unplaced expected.unplaced = meetsAtNil actual expected := by
  simp only [meetsAtNil, Ty.isNil_unplaced, Ty.nullable_unplaced]

/-- **Subtyping does not look at places.** -/
@[simp] theorem isSubtype_unplaced (actual expected : Ty) :
    lattice.unplaced.isSubtype actual.unplaced expected.unplaced = lattice.isSubtype actual expected := by
  simp only [isSubtype, Ty.equals_unplaced, Ty.isAny_unplaced, meetsAtNil_unplaced, distance_unplaced]

/-- **Nor do the costs of arguments.** -/
@[simp] theorem cost_unplaced (actual declared : Ty) :
    lattice.unplaced.cost actual.unplaced declared.unplaced = lattice.cost actual declared := by
  simp only [cost, Ty.equals_unplaced, Ty.isAny_unplaced, meetsAtNil_unplaced, distance_unplaced]

end Lattice

/-! ## Binding and replacing placeholders -/

namespace Ty

mutual

/-- **Placeholders are bound to the same types**, which lose their places with the rest. -/
@[simp] theorem bind_unplaced : ∀ (declared : Ty) (bindings : Bindings) (actual : Ty),
    declared.unplaced.bind (bindings.mapValues unplaced) actual.unplaced =
      (declared.bind bindings actual).mapValues unplaced
  | .atom (.generic name _) _, bindings, actual => by
    simp only [unplaced, Atom.unplaced, bind, withNullable_unplaced, Dict.insert_mapValues]
  | .atom .void _, _, _ => rfl
  | .atom (.enum _) _, _, _ => rfl
  | .atom (.group _) _, _, _ => rfl
  | .app _ args _, bindings, actual => by
    rw [unplaced, bind, bind, args_unplaced, bindAll_unplaced args]

/-- The same for the types of several arguments. -/
theorem bindAll_unplaced : ∀ (declared : List Ty) (bindings : Bindings) (actuals : List Ty),
    bindAll (bindings.mapValues unplaced) (allUnplaced declared) (actuals.map unplaced) =
      (bindAll bindings declared actuals).mapValues unplaced
  | [], _, [] => rfl
  | [], _, _ :: _ => rfl
  | _ :: _, _, [] => rfl
  | ty :: rest, bindings, actual :: actuals => by
    rw [allUnplaced, List.map_cons, bindAll, bindAll, bind_unplaced ty, bindAll_unplaced rest]

end

mutual

/-- **Substitution makes the same types**, without places if the bindings have none. -/
@[simp] theorem substitute_unplaced (bindings : Bindings) : ∀ ty : Ty,
    ty.unplaced.substitute (bindings.mapValues unplaced) = (ty.substitute bindings).unplaced
  | .atom (.generic name _) nullable => by
    simp only [unplaced, Atom.unplaced, substitute, Dict.find?_mapValues]
    cases bindings.find? name with
    | none => rfl
    | some bound => simp only [Option.map_some, withNullable_unplaced, nullable_unplaced]
  | .atom .void _ => rfl
  | .atom (.enum _) _ => rfl
  | .atom (.group _) _ => rfl
  | .app ctor args nullable => by
    rw [unplaced, substitute, substitute, unplaced, substituteAll_unplaced bindings args]

/-- The same in lists of types. -/
theorem substituteAll_unplaced (bindings : Bindings) : ∀ types : List Ty,
    substituteAll (bindings.mapValues unplaced) (allUnplaced types) = allUnplaced (substituteAll bindings types)
  | [] => rfl
  | ty :: rest => by
    rw [allUnplaced, substituteAll, substituteAll, allUnplaced, substitute_unplaced bindings ty,
      substituteAll_unplaced bindings rest]

end

end Ty

end DeclCheck
