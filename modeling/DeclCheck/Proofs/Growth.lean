import DeclCheck.Proofs.Annotation.Acceptance

/-!
# The tables only grow

Whatever a unit does, accepted or not, the tables before it are contained in the tables after it. For the
function table this follows from insertion at the end of groups. The lattice only gains nodes at its end.
Structs are the delicate part: the third pass replaces entries without looking at what it replaces. It is the
first pass that makes this harmless: it refuses every unit that declares a struct whose name is known already,
so only entries of the unit itself are replaced.

It is not established that old questions keep their answers, since they see what was added as well. Of names this is
shown in `Proofs.Naming.Stability`, of calls in `Proofs.Overloading.Persistence`, as far as it is true.
-/

namespace DeclCheck

/-- **Whether the type tables have grown from others**: the lattice by nodes at its end, and the structs and
enums by new names. -/
structure TypeTable.Extends (before after : TypeTable) : Prop where
  nodes : before.lattice.nodes <+: after.lattice.nodes
  structs : ∀ ⦃name decl⦄, before.structs.find? name = some decl → after.structs.find? name = some decl
  enums : ∀ ⦃name decl⦄, before.enums.find? name = some decl → after.enums.find? name = some decl

/-- **Whether a function table has grown from another**: each group by overloads at its end. -/
def FunctionTable.Extends (before after : FunctionTable) : Prop :=
  ∀ key, before.overloads key <+: after.overloads key

/-- **Whether tables have grown from others.** -/
structure Symbols.Extends (before after : Symbols) : Prop where
  types : before.types.Extends after.types
  functions : before.functions.Extends after.functions

/-! ## Growth by one entry -/

/-- An attachment adds a node at the end. -/
theorem Lattice.insert?_grows {lattice after : Lattice} {child parent : Ty}
    (inserted : lattice.insert? child parent = some after) : lattice.nodes <+: after.nodes := by
  obtain ⟨position, -, rfl⟩ := Option.map_eq_some_iff.mp inserted
  exact List.prefix_append _ _

/-- So the lattice grows, or stays as it is. -/
theorem Lattice.insert_grows (lattice : Lattice) (child parent : Ty) :
    lattice.nodes <+: (lattice.insert child parent).nodes := by
  unfold Lattice.insert
  cases inserted : lattice.insert? child parent with
  | none => exact List.prefix_rfl
  | some after => exact insert?_grows inserted

namespace Dict

variable {κ : Type u} {α : Type v} [DecidableEq κ] {dict : Dict κ α} {key other : κ} {value new : α}

/-- What is there is not under a key that is absent. -/
theorem ne_of_absent (absent : dict.find? key = none) (found : dict.find? other = some value) :
    other ≠ key := by
  rintro rfl
  rw [absent] at found
  cases found

/-- An entry under a new name leaves all others as they are. -/
theorem find?_insert_of_absent [Ord κ] (absent : dict.find? key = none)
    (found : dict.find? other = some value) : (dict.insert key new).find? other = some value := by
  rw [find?_insert_of_ne dict new (ne_of_absent absent found), found]

end Dict

namespace TypeTable

variable {start types after : TypeTable}

theorem Extends.refl (types : TypeTable) : types.Extends types :=
  ⟨List.prefix_rfl, fun _ _ found => found, fun _ _ found => found⟩

/-- Growth adds up. -/
theorem Extends.trans {between : TypeTable} (first : start.Extends between)
    (second : between.Extends after) : start.Extends after where
  nodes := first.nodes.trans second.nodes
  structs := fun _ _ found => second.structs (first.structs found)
  enums := fun _ _ found => second.enums (first.enums found)

/-- A name that is unknown later was unknown before. -/
theorem Extends.find?_eq_none (grown : start.Extends types) {name : String}
    (absent : types.structs.find? name = none) : start.structs.find? name = none := by
  cases found : start.structs.find? name with
  | none => rfl
  | some decl =>
    rw [grown.structs found] at absent
    cases absent

/-- Registering a struct adds it, for its name was unknown. -/
theorem extends_registerStruct {decl : StructDecl} (registered : types.registerStruct decl = .ok after) :
    types.Extends after := by
  obtain ⟨absent, rfl⟩ := registerStruct_eq_ok registered
  refine ⟨Lattice.insert_grows _ _ _, ?_, fun _ _ found => found⟩
  intro name other found
  exact Dict.find?_insert_of_absent absent found

/-- The same for an enum. -/
theorem extends_registerEnum {decl : EnumDecl} (registered : types.registerEnum decl = .ok after) :
    types.Extends after := by
  obtain ⟨absent, rfl⟩ := registerEnum_eq_ok registered
  refine ⟨Lattice.insert_grows _ _ _, fun _ _ found => found, ?_⟩
  intro name other found
  exact Dict.find?_insert_of_absent absent found

/-- A group enters the lattice only. -/
theorem extends_registerGroup {decl : GroupDecl} (registered : types.registerGroup decl = .ok after) :
    types.Extends after := by
  obtain rfl := registerGroup_eq_ok registered
  exact ⟨Lattice.insert_grows _ _ _, fun _ _ found => found, fun _ _ found => found⟩

/-- Replacing a struct hides nothing of tables that do not know its name. -/
theorem Extends.updateStruct (grown : start.Extends types) {decl : StructDecl}
    (absent : start.structs.find? decl.name.name = none) : start.Extends (types.updateStruct decl) := by
  refine ⟨grown.nodes, ?_, grown.enums⟩
  intro name other found
  simp only [TypeTable.updateStruct]
  rw [Dict.find?_insert_of_ne _ _ (Dict.ne_of_absent absent found)]
  exact grown.structs found

end TypeTable

namespace FunctionTable

theorem Extends.refl (functions : FunctionTable) : functions.Extends functions :=
  fun _ => List.prefix_rfl

/-- A function joins its group at the end. -/
theorem Extends.insert {start functions : FunctionTable} (grown : start.Extends functions)
    (decl : FunctionDecl) : start.Extends (functions.insert decl) := by
  intro key
  rw [overloads_insert]
  split
  · exact (grown key).trans (List.prefix_append _ _)
  · exact grown key

/-- A call that is bound lets the table grow. -/
theorem Extends.keptByCalls (start : FunctionTable) (lattice : Lattice) :
    Check.KeptByCalls lattice start.Extends := by
  intro functions key signature actuals location decl after grown bound
  rcases Overloading.resolve_listed_or_specialised bound with ⟨-, rfl⟩ | ⟨candidate, -, -, -, rfl⟩
  · exact grown
  · exact grown.insert decl

end FunctionTable

theorem Symbols.Extends.refl (symbols : Symbols) : symbols.Extends symbols :=
  ⟨.refl _, .refl _⟩

/-- Growth of all tables adds up. -/
theorem Symbols.Extends.trans {start between after : Symbols} (first : start.Extends between)
    (second : between.Extends after) : start.Extends after :=
  ⟨first.types.trans second.types, fun key => (first.functions key).trans (second.functions key)⟩

/-! ## The passes -/

namespace Analysis

/-- All registrations let the tables grow. -/
theorem namesKeep_extends (start : TypeTable) (decls : List Decl) : NamesKeep start.Extends decls where
  registerStruct _ grown registered := grown.trans (TypeTable.extends_registerStruct registered)
  registerEnum _ grown registered := grown.trans (TypeTable.extends_registerEnum registered)
  registerGroup _ grown registered := grown.trans (TypeTable.extends_registerGroup registered)

/-- A unit whose names are registered declares no struct that was known before. -/
theorem find?_eq_none_of_registered {decls : List Decl} {before after : Analysis}
    (reached : decls.forM registerName before = .ok () after) :
    ∀ decl, .struct decl ∈ decls → before.symbols.types.structs.find? decl.name.name = none := by
  induction decls generalizing before with
  | nil =>
    intro decl mem
    cases mem
  | cons first rest ih =>
    obtain ⟨_, between, registered, later⟩ := step_bind_eq_ok.mp reached
    intro decl mem
    rcases List.mem_cons.mp mem with rfl | last
    · rw [registerName] at registered
      exact (TypeTable.registerStruct_eq_ok (onTypes_map_eq_ok registered)).1
    · have names := namesKeep_extends before.symbols.types (first :: rest)
      have grown : KnowsTypes before.symbols.types.Extends between :=
        (keepsTypes_registerName names List.mem_cons_self).of_eq_ok (.refl _) registered
      exact grown.find?_eq_none (ih later decl last)

/-- A group binding enters the lattice only. -/
theorem extends_bindTypes {binding bound : GroupBinding} {types after : TypeTable}
    (reached : bindTypes binding types = .ok (bound, after)) : types.Extends after := by
  obtain ⟨child, name, nullable, lattice, -, -, inserted, -, rfl⟩ := bindTypes_inserted reached
  exact ⟨Lattice.insert?_grows inserted, fun _ _ found => found, fun _ _ found => found⟩

/-- **What a unit does to the type tables lets them grow.** -/
theorem typesKeep_extends (start : TypeTable) (decls : List Decl) :
    TypesKeep start.Extends decls where
  toNamesKeep := namesKeep_extends start decls
  bindTypes _ grown reached := grown.trans (extends_bindTypes reached)
  updateStruct := by
    intro before after early registered decl resolved types mem grown resolving
    obtain ⟨same, -⟩ := TypeTable.resolved_resolveStruct resolving
    refine grown.updateStruct ?_
    rw [same]
    exact early.find?_eq_none (find?_eq_none_of_registered registered decl mem)

end Analysis

/-! ## Sessions -/

namespace Session

/-- The tables after a unit have grown from those before it. -/
theorem symbols_extends_addUnit (session : Session) (unit : SourceUnit) :
    session.symbols.Extends (session.addUnit unit).2.symbols := by
  rw [symbols_addUnit]
  constructor
  · have keep := Analysis.typesKeep_extends session.symbols.types unit.withOrigins.declarations
    exact Analysis.keepsTypes_declarations keep (.start session.symbols) (.refl session.symbols.types)
  · have kept := Analysis.keeps_declarations (FunctionTable.Extends.keptByCalls session.symbols.functions)
      (fun functions decl grown => grown.insert decl) unit.withOrigins.declarations
    exact kept (.start session.symbols) (FunctionTable.Extends.refl session.symbols.functions)

/-- **The tables only grow.** From any session and by any unit, accepted or not, all that the tables hold
stays in them: the nodes of the lattice and the overloads of each key in front, the structs and enums under
their names. A file counts as checked exactly if its unit is accepted. -/
theorem addUnit_extends (session : Session) (unit : SourceUnit) :
    session.symbols.Extends (session.addUnit unit).2.symbols ∧
      (session.addUnit unit).2.checked =
        if (session.addUnit unit).1.isOk then session.checked ++ [unit.filename] else session.checked := by
  refine ⟨symbols_extends_addUnit session unit, ?_⟩
  cases checked : Analysis.declarations unit.withOrigins.declarations (.start session.symbols) with
  | error error analysis => simp [addUnit, checked, Except.isOk, Except.toBool]
  | ok declarations analysis =>
    have file : unit.withOrigins.filename = unit.filename := rfl
    simp [addUnit, checked, Except.isOk, Except.toBool, file]

end Session

end DeclCheck
