import DeclCheck.Proofs.Lattice.Rooted
import DeclCheck.Proofs.Ty.Placeholders

/-!
# The lattice as a catalogue of names

A name is looked up in the lattice before all other tables, and of several types with one name the first decides. In
every state of a session this look-up alone is enough: each builtin and each struct and enum of the tables stands at
some node, so whatever the other tables know by a name, the lattice knows something by it too. And all that stands
there under a name is what a name can mean.
-/

namespace DeclCheck

/-- Whether the head is what a name can mean, or `Void`. -/
def Head.isMeant : Head → Bool
  | generic _ | unresolved _ => false
  | _ => true

/-- A head that has a name and is no placeholder is meant by it. -/
theorem Head.exists_meaning {head : Head} (meant : head.isMeant = true) {name : String}
    (named : head.name? = some name) : ∃ meaning, Meaning.ofHead? head = some meaning := by
  cases head with
  | void => cases named
  | generic | unresolved => cases meant
  | builtin | struct | enum | group => exact ⟨_, rfl⟩

/-- What can be meant is resolved. -/
theorem Head.isResolved_of_isMeant {head : Head} (meant : head.isMeant = true) : head.isResolved = true := by
  cases head with
  | unresolved => cases meant
  | void | generic | builtin | struct | enum | group => rfl

/-- The head of the type that a declaration enters into the lattice. -/
def Decl.head? : Decl → Option Head
  | .struct decl => some (.struct decl.name.name)
  | .enum decl => some (.enum decl.name.name)
  | .group decl => some (.group decl.name.name)
  | .function _ | .binding _ | .importing _ | .exampleBlock _ => none

/-- After an entry only its key is new. -/
theorem Dict.contains_insert {κ : Type u} {α : Type v} [DecidableEq κ] [Ord κ] {dict : Dict κ α} {key other : κ}
    {value : α} (listed : (dict.insert key value).contains other = true) :
    dict.contains other = true ∨ other = key := by
  by_cases same : other = key
  · exact Or.inr same
  · rw [contains, find?_insert_of_ne dict value same] at listed
    exact Or.inl listed

namespace TypeTable

/-- **Whether the lattice knows every name that the tables know**: all builtins, and the structs and enums, each as
what it is. -/
structure Catalogued (types : TypeTable) : Prop where
  builtins : ∀ kind, .builtin kind ∈ types.lattice.types.map Ty.head
  structs : ∀ {name}, types.structs.contains name = true → .struct name ∈ types.lattice.types.map Ty.head
  enums : ∀ {name}, types.enums.contains name = true → .enum name ∈ types.lattice.types.map Ty.head
  meant : ∀ head ∈ types.lattice.types.map Ty.head, head.isMeant = true

variable {types after : TypeTable}

/-- A catalogued lattice has resolved types. -/
theorem Catalogued.resolved (catalogued : types.Catalogued) : types.lattice.Resolved :=
  fun _ mem => Head.isResolved_of_isMeant (catalogued.meant _ (List.mem_map_of_mem mem))

/-- As the tables grow, types join the lattice after all others. -/
theorem Extends.heads (grown : types.Extends after) :
    types.lattice.types.map Ty.head <+: after.lattice.types.map Ty.head :=
  (grown.nodes.map LatticeNode.ty).map Ty.head

/-! ## One more type -/

/-- Under a builtin a type is always attached. -/
theorem Catalogued.heads_insert (catalogued : types.Catalogued) (child : Ty) (kind : Builtin) :
    (types.lattice.insert child (.builtin kind)).types.map Ty.head =
      types.lattice.types.map Ty.head ++ [child.head] := by
  have present : types.lattice.contains (.builtin kind) = true :=
    (Lattice.contains_iff catalogued.resolved rfl).mpr (catalogued.builtins kind)
  rw [← Lattice.isSome_insert? types.lattice child] at present
  obtain ⟨lattice, inserted⟩ := Option.isSome_iff_exists.mp present
  rw [Lattice.insert_of_insert?_eq_some inserted, Lattice.types_insert? inserted]
  simp

/-- **A table with one more head is catalogued**, if only that head is new to its tables. -/
theorem Catalogued.of_heads (catalogued : types.Catalogued) {head : Head}
    (heads : after.lattice.types.map Ty.head = types.lattice.types.map Ty.head ++ [head])
    (meant : head.isMeant = true)
    (structs : ∀ {name}, after.structs.contains name = true →
      types.structs.contains name = true ∨ head = .struct name)
    (enums : ∀ {name}, after.enums.contains name = true →
      types.enums.contains name = true ∨ head = .enum name) : after.Catalogued := by
  constructor
  · intro kind
    rw [heads]
    exact List.mem_append_left _ (catalogued.builtins kind)
  · intro name listed
    rw [heads, List.mem_append, List.mem_singleton]
    exact (structs listed).imp catalogued.structs Eq.symm
  · intro name listed
    rw [heads, List.mem_append, List.mem_singleton]
    exact (enums listed).imp catalogued.enums Eq.symm
  · intro other mem
    rw [heads, List.mem_append, List.mem_singleton] at mem
    rcases mem with old | rfl
    · exact catalogued.meant other old
    · exact meant

/-- A registered struct is the last head of the lattice. -/
theorem Catalogued.registerStruct (catalogued : types.Catalogued) {decl : StructDecl}
    (registered : types.registerStruct decl = .ok after) :
    after.Catalogued ∧
      after.lattice.types.map Ty.head = types.lattice.types.map Ty.head ++ [.struct decl.name.name] := by
  obtain ⟨-, rfl⟩ := registerStruct_eq_ok registered
  have heads := catalogued.heads_insert (.struct decl.name.name (decl.genericNames.map Ty.generic)) .struct
  refine ⟨catalogued.of_heads heads rfl (fun listed => ?_) Or.inl, heads⟩
  exact (Dict.contains_insert listed).imp_right fun same => congrArg Head.struct same.symm

/-- So is a registered enum. -/
theorem Catalogued.registerEnum (catalogued : types.Catalogued) {decl : EnumDecl}
    (registered : types.registerEnum decl = .ok after) :
    after.Catalogued ∧
      after.lattice.types.map Ty.head = types.lattice.types.map Ty.head ++ [.enum decl.name.name] := by
  obtain ⟨-, rfl⟩ := registerEnum_eq_ok registered
  have heads := catalogued.heads_insert (.enum decl.name.name) .enum
  refine ⟨catalogued.of_heads heads rfl Or.inl (fun listed => ?_), heads⟩
  exact (Dict.contains_insert listed).imp_right fun same => congrArg Head.enum same.symm

/-- So is a registered group. -/
theorem Catalogued.registerGroup (catalogued : types.Catalogued) {decl : GroupDecl}
    (registered : types.registerGroup decl = .ok after) :
    after.Catalogued ∧
      after.lattice.types.map Ty.head = types.lattice.types.map Ty.head ++ [.group decl.name.name] := by
  obtain rfl := registerGroup_eq_ok registered
  have heads := catalogued.heads_insert (.group decl.name.name) .any
  exact ⟨catalogued.of_heads heads rfl Or.inl Or.inl, heads⟩

/-- Outside of any generic declaration a type is resolved to what a name can mean, or to `Void`. -/
theorem isMeant_of_resolve {written ty : Ty} (resolved : types.resolve [] written = .ok ty) :
    ty.head.isMeant = true := by
  have named := within_of_resolve written resolved
  have whole := isResolved_of_resolve written resolved
  cases ty with
  | atom shape nullable =>
    cases shape with
    | generic name location => exact absurd (named name (Ty.mem_genericNames_generic.mpr rfl)) List.not_mem_nil
    | void | enum | group => rfl
  | app ctor args nullable =>
    cases ctor with
    | unresolved => cases whole
    | builtin | struct => rfl

/-- A group binding repeats a head that is known. -/
theorem Catalogued.bindTypes (catalogued : types.Catalogued) {binding bound : GroupBinding}
    (reached : Analysis.bindTypes binding types = .ok (bound, after)) : after.Catalogued := by
  obtain ⟨child, name, nullable, lattice, resolved, -, inserted, -, rfl⟩ := Analysis.bindTypes_inserted reached
  have heads : lattice.types.map Ty.head = types.lattice.types.map Ty.head ++ [child.head] := by
    rw [Lattice.types_insert? inserted]
    simp
  exact catalogued.of_heads heads (isMeant_of_resolve resolved) Or.inl Or.inl

/-- A struct that is replaced is known already. -/
theorem Catalogued.updateStruct (catalogued : types.Catalogued) {decl : StructDecl}
    (known : .struct decl.name.name ∈ types.lattice.types.map Ty.head) : (types.updateStruct decl).Catalogued := by
  refine ⟨catalogued.builtins, fun listed => ?_, catalogued.enums, catalogued.meant⟩
  rcases Dict.contains_insert listed with old | rfl
  · exact catalogued.structs old
  · exact known

/-- The tables that every check starts from are catalogued. -/
theorem catalogued_initial : TypeTable.initial.Catalogued where
  builtins kind := by cases kind <;> decide
  structs listed := by cases listed
  enums {name} listed := by
    have all : ∀ key ∈ TypeTable.initial.enums.keys, .enum key ∈ TypeTable.initial.lattice.types.map Ty.head := by
      decide
    obtain ⟨decl, found⟩ := Option.isSome_iff_exists.mp listed
    exact all name (List.mem_map.mpr ⟨_, Dict.mem_of_find?_eq_some found, rfl⟩)
  meant := by decide

end TypeTable

/-! ## The passes -/

namespace Analysis

variable {before after : Analysis}

/-- All registrations keep tables catalogued. -/
theorem namesKeep_catalogued (decls : List Decl) : NamesKeep TypeTable.Catalogued decls where
  registerStruct _ catalogued registered := (catalogued.registerStruct registered).1
  registerEnum _ catalogued registered := (catalogued.registerEnum registered).1
  registerGroup _ catalogued registered := (catalogued.registerGroup registered).1

/-- **A declaration adds its own head to the lattice**, if it has one. -/
theorem heads_registerName {decl : Decl} (catalogued : before.symbols.types.Catalogued)
    (registered : registerName decl before = .ok () after) :
    after.symbols.types.lattice.types.map Ty.head =
      before.symbols.types.lattice.types.map Ty.head ++ decl.head?.toList := by
  cases decl with
  | struct decl =>
    rw [registerName] at registered
    exact (catalogued.registerStruct (onTypes_map_eq_ok registered)).2
  | enum decl =>
    rw [registerName] at registered
    exact (catalogued.registerEnum (onTypes_map_eq_ok registered)).2
  | group decl =>
    rw [registerName] at registered
    exact (catalogued.registerGroup (onTypes_map_eq_ok registered)).2
  | function | binding | importing | exampleBlock =>
    cases registered
    simp [Decl.head?]

/-- **The first pass enters the declared types one after another**, and nothing else. -/
theorem heads_forM_registerName {decls : List Decl} (catalogued : before.symbols.types.Catalogued)
    (registered : decls.forM registerName before = .ok () after) :
    after.symbols.types.lattice.types.map Ty.head =
      before.symbols.types.lattice.types.map Ty.head ++ decls.filterMap Decl.head? := by
  induction decls generalizing before with
  | nil =>
    cases registered
    simp
  | cons decl rest ih =>
    obtain ⟨_, between, stepped, later⟩ := step_bind_eq_ok.mp registered
    have kept : KnowsTypes TypeTable.Catalogued between :=
      (keepsTypes_registerName (namesKeep_catalogued [decl]) List.mem_cons_self).of_eq_ok catalogued stepped
    rw [ih kept later, heads_registerName catalogued stepped, List.append_assoc]
    cases head : decl.head? <;> simp [head]

/-- Whether the lattice knows the structs of declarations. -/
def KnowsStructs (decls : List Decl) (types : TypeTable) : Prop :=
  ∀ decl, .struct decl ∈ decls → .struct decl.name.name ∈ types.lattice.types.map Ty.head

/-- **Everything that declarations do to the type tables keeps them catalogued.** -/
theorem keepsTypes_catalogued (decls : List Decl) :
    Keeps (KnowsTypes TypeTable.Catalogued) (declarations decls) := by
  refine keepsTypes_declarations_of_registered (fun types => types.Catalogued ∧ KnowsStructs decls types)
    (namesKeep_catalogued decls) ?_ ?_ And.left
  · intro before after catalogued registered
    have kept := Keeps.forM_of_mem fun _ mem => keepsTypes_registerName (namesKeep_catalogued decls) mem
    refine ⟨kept.of_eq_ok catalogued registered, fun decl mem => ?_⟩
    rw [heads_forM_registerName catalogued registered]
    exact List.mem_append_right _ (List.mem_filterMap.mpr ⟨_, mem, rfl⟩)
  · constructor
    · intro binding bound types after _ held reached
      refine ⟨held.1.bindTypes reached, fun decl mem => ?_⟩
      exact (extends_bindTypes reached).heads.subset (held.2 decl mem)
    · intro decl resolved types mem held resolving
      obtain ⟨same, -⟩ := TypeTable.resolved_resolveStruct resolving
      exact ⟨held.1.updateStruct (same ▸ held.2 decl mem), held.2⟩

end Analysis

/-- **In every state of a session the lattice knows every name.** -/
theorem Session.Reachable.catalogued {session : Session} (reachable : session.Reachable) :
    session.symbols.types.Catalogued := by
  induction reachable with
  | initial => exact TypeTable.catalogued_initial
  | add _ unit ih =>
    rw [symbols_addUnit]
    exact Analysis.keepsTypes_catalogued _ _ ih

end DeclCheck
