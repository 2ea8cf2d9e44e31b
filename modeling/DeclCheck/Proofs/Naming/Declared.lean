import DeclCheck.Proofs.Naming.Entries
import DeclCheck.Proofs.Naming.Stability
import DeclCheck.Proofs.Typing.Soundness

/-!
# What a declared name means

A declaration enters its type into the lattice after all types that were there before it. Written anywhere, its name
means the first type of that name, so it means the declaration unless a builtin, or a struct, enum or group declared
before, has the name. Nothing forbids this across kinds: a name may not be declared twice as a struct, as an enum or as
a group, and that is all that is checked. Constructors are looked up among the structs or among the enums alone. They
always mean the declaration, so under a name that is taken they make values of another type than the name means.

Rejected units are left out: their names may mean something afterwards or not, as far as the check came.
-/

namespace DeclCheck

/-- Whether a type is the one of a head without arguments. -/
structure Ty.IsBare (ty : Ty) (head : Head) (nullable : Bool) : Prop where
  head : ty.head = head
  args : ty.args = []
  nullable : ty.nullable = nullable

theorem Meaning.isBare_applied {head : Head} {meaning : Meaning} (meant : Meaning.ofHead? head = some meaning)
    (nullable : Bool) : (meaning.applied [] nullable).IsBare head nullable := by
  cases head with
  | void | generic | unresolved => cases meant
  | builtin | struct | enum | group =>
    cases meant
    exact ⟨rfl, rfl, rfl⟩

/-- The first head of a name. -/
def Head.firstNamed? (heads : List Head) (name : String) : Option Head := heads.find? (·.name? == some name)

/-- **Whether the constructors of a declared name mean the declaration.** A struct stands in its table as it was
declared, with its members resolved; a literal that is begun with its name is a literal of that struct and a value of
its type. An enum stands in its table with its cases, and each case is a value of that enum. -/
def Decl.IsConstructed (types : TypeTable) : Decl → Prop
  | .struct decl =>
    ∃ resolved, types.structs.find? decl.name.name = some resolved ∧ types.IsResolvedFrom resolved decl ∧
      (∀ {generics ctor location literal}, ctor.name? = some decl.name.name →
        Literal.start ⟨types, generics⟩ ctor location = .ok literal → literal.decl = resolved) ∧
      ∀ {env visible before location ctor members ty filled after}, ctor.name? = some decl.name.name →
        KindWalk env visible before location (.object ctor members) ty filled after →
        ty.head = .struct decl.name.name
  | .enum decl =>
    (∃ entry, types.enums.find? decl.name.name = some entry ∧ entry.cases = decl.cases) ∧
      ∀ case ∈ decl.cases, ∀ generics location,
        enumCaseType ⟨types, generics⟩ (some ⟨decl.name.name, location⟩) case = .ok (.enum decl.name.name)
  | _ => True

/-- A literal is a value of the struct that it names. -/
theorem KindWalk.head_object {env : Env} {visible : List LocalVariable} {before after : FunctionTable}
    {location : Location} {ctor ty : Ty} {members : List (MemberValue Expr)} {filled : ExprKind} {name : String}
    (named : ctor.name? = some name)
    (walked : KindWalk env visible before location (.object ctor members) ty filled after) :
    ty.head = .struct name := by
  cases walked with
  | object started walked finished =>
    obtain ⟨same, -⟩ := walked.decl_eq
    obtain ⟨args, -, rfl⟩ := Literal.finish_eq_ok finished
    rw [same, Literal.name_start started, named]
    rfl

namespace TypeTable

variable {types : TypeTable}

/-- A name means the first type of that name in the lattice. -/
theorem meaning?_of_firstNamed? {name : String} {head : Head}
    (first : Head.firstNamed? (types.lattice.types.map Ty.head) name = some head) :
    types.meaning? name = Meaning.ofHead? head := by
  rw [Head.firstNamed?, List.find?_map] at first
  obtain ⟨found, located, rfl⟩ := Option.map_eq_some_iff.mp first
  have same : types.lattice.find? name = some found := located
  simp only [meaning?, same]

/-- **A name is resolved to the first type of that name**, in tables whose lattice knows every name. -/
theorem Catalogued.resolve_firstNamed? (catalogued : types.Catalogued) {name : String} {head : Head}
    (first : Head.firstNamed? (types.lattice.types.map Ty.head) name = some head) (location : Location)
    (nullable : Bool) :
    ∃ ty, types.resolve [] (.app (.unresolved name location) [] nullable) = .ok ty ∧ ty.IsBare head nullable := by
  have named : head.name? = some name := by simpa using List.find?_some first
  have meant := catalogued.meant head (List.mem_of_find?_eq_some first)
  obtain ⟨meaning, stands⟩ := Head.exists_meaning meant named
  have means : types.meaning? name = some meaning := (meaning?_of_firstNamed? first).trans stands
  exact ⟨_, resolve_of_meaning means List.not_mem_nil location nullable, Meaning.isBare_applied stands nullable⟩

end TypeTable

/-! ## Constructors -/

namespace Decl

/-- Whatever stands in the tables can be constructed. -/
theorem IsEntered.isConstructed {types : TypeTable} {decl : Decl} (entered : decl.IsEntered types) :
    decl.IsConstructed types := by
  cases decl with
  | struct decl =>
    obtain ⟨resolved, found, resolving⟩ := entered
    refine ⟨resolved, found, TypeTable.isResolvedFrom_of_resolveStruct resolving, ?_, KindWalk.head_object⟩
    intro generics ctor location literal named started
    have there := (Literal.start_eq_ok started).1
    rw [Literal.name_start started, named] at there
    exact Option.some_inj.mp (there.symm.trans found)
  | enum decl =>
    have found : types.enums.find? decl.name.name = some decl := entered
    refine ⟨⟨decl, found, rfl⟩, ?_⟩
    intro case listed generics location
    have has : decl.hasCase case.name = true := List.any_eq_true.mpr ⟨case, listed, beq_self_eq_true _⟩
    simp only [enumCaseType, found, has, if_true]
  | function | group | binding | importing | exampleBlock => trivial

/-- Constructors do not ask where a declaration came from. -/
theorem isConstructed_of_withOrigin {types : TypeTable} {origin : String} {decl : Decl}
    (built : (decl.withOrigin origin).IsConstructed types) : decl.IsConstructed types := by
  cases decl with
  | struct decl =>
    obtain ⟨resolved, found, made, started, walked⟩ := built
    exact ⟨resolved, found, ⟨made.name, made.generics, made.location, made.members⟩, started, walked⟩
  | enum | function | group | binding | importing | exampleBlock => exact built

theorem head?_withOrigin (origin : String) (decl : Decl) : (decl.withOrigin origin).head? = decl.head? := by
  cases decl <;> rfl

end Decl

/-! ## Sessions -/

theorem SourceUnit.filterMap_head?_withOrigins (unit : SourceUnit) :
    unit.withOrigins.declarations.filterMap Decl.head? = unit.declarations.filterMap Decl.head? := by
  rw [withOrigins, List.filterMap_map]
  refine List.filterMap_congr fun decl _ => ?_
  simp only [Function.comp_apply]
  split
  · exact Decl.head?_withOrigin _ _
  · rfl

theorem SourceUnit.isConstructed_withOrigins {unit : SourceUnit} {types : TypeTable}
    (entered : ∀ decl ∈ unit.withOrigins.declarations, decl.IsEntered types) :
    ∀ decl ∈ unit.declarations, decl.IsConstructed types := by
  intro decl mem
  have built := (entered _ (List.mem_map_of_mem mem)).isConstructed
  split at built
  · exact Decl.isConstructed_of_withOrigin built
  · exact built

namespace Session

/-- **A declared name means the first type of that name.** After an accepted unit, the bare name of a struct, enum or
group that it declares is resolved to the first type of that name among those known before the unit, those declared
earlier in the unit, and the declared one. So it means the declaration unless another type of the name comes before it.
Constructors of the name mean the declaration in any case. -/
theorem addUnit_means {session after : Session} {unit annotated : SourceUnit} (reachable : session.Reachable)
    (accepted : session.addUnit unit = (.ok annotated, after)) {earlier later : List Decl} {decl : Decl}
    (placed : unit.declarations = earlier ++ decl :: later) {head : Head} (declared : decl.head? = some head)
    {name : String} (named : head.name? = some name) :
    let known := session.symbols.types.lattice.types.map Ty.head ++ earlier.filterMap Decl.head?
    (∀ location nullable, ∃ ty,
        after.symbols.types.resolve [] (.app (.unresolved name location) [] nullable) = .ok ty ∧
          ty.IsBare ((Head.firstNamed? known name).getD head) nullable) ∧
      decl.IsConstructed after.symbols.types := by
  intro known
  obtain ⟨analysis, checked, symbols⟩ := addUnit_eq_ok accepted
  obtain ⟨grown, entered⟩ := Analysis.declared_of_declarations reachable.catalogued checked
  have catalogued : after.symbols.types.Catalogued := by
    have still := (Reachable.add reachable unit).catalogued
    rw [accepted] at still
    exact still
  rw [← symbols] at grown entered
  rw [SourceUnit.filterMap_head?_withOrigins, placed] at grown
  constructor
  · have upTo : known ++ [head] <+: after.symbols.types.lattice.types.map Ty.head := by
      refine List.IsPrefix.trans ⟨later.filterMap Decl.head?, ?_⟩ grown
      simp [known, declared, Analysis.start]
    have first : Head.firstNamed? (known ++ [head]) name = some ((Head.firstNamed? known name).getD head) := by
      rw [Head.firstNamed?, List.find?_append, ← Head.firstNamed?]
      cases Head.firstNamed? known name with
      | some other => rfl
      | none => simp [named]
    exact catalogued.resolve_firstNamed? (upTo.find?_eq_some first)
  · refine SourceUnit.isConstructed_withOrigins entered decl ?_
    rw [placed]
    exact List.mem_append_right _ List.mem_cons_self

/-- A struct with the name of a builtin. -/
def numberStruct : StructDecl :=
  ⟨⟨"Number", .nowhere⟩, [⟨⟨"tone", .nowhere⟩, Ty.written "Tone" []⟩], [], "", .nowhere⟩

/-- An enum with the name of a group. -/
def toneEnum : EnumDecl := ⟨⟨"Tone", .nowhere⟩, [⟨"low", .nowhere⟩, ⟨"high", .nowhere⟩], "", .nowhere⟩

/-- A group with the name of an enum. -/
def toneGroup : GroupDecl := ⟨⟨"Tone", .nowhere⟩, "", .nowhere⟩

/-- A unit whose names are all taken twice. -/
def namesakesUnit : SourceUnit := ⟨"namesakes.pine", "", [.struct numberStruct, .enum toneEnum, .group toneGroup]⟩

/-- The name of the struct means the builtin, and that of the group the enum; their constructors mean the declarations.
-/
theorem namesakesUnit_means :
    ∃ annotated after, initial.addUnit namesakesUnit = (.ok annotated, after) ∧
      (∃ ty, after.symbols.types.resolve [] (Ty.written "Number" []) = .ok ty ∧
        ty.IsBare (.builtin .number) false) ∧
      (∃ ty, after.symbols.types.resolve [] (.app (.unresolved "Tone" .nowhere) [] true) = .ok ty ∧
        ty.IsBare (.enum "Tone") true) ∧
      (Decl.struct numberStruct).IsConstructed after.symbols.types ∧
      (Decl.enum toneEnum).IsConstructed after.symbols.types := by
  obtain ⟨annotated, after, accepted⟩ : ∃ annotated after, initial.addUnit namesakesUnit = (.ok annotated, after) :=
    ⟨_, _, rfl⟩
  have first : namesakesUnit.declarations = [] ++ .struct numberStruct :: [.enum toneEnum, .group toneGroup] := rfl
  have second : namesakesUnit.declarations = [.struct numberStruct] ++ .enum toneEnum :: [.group toneGroup] := rfl
  have third : namesakesUnit.declarations = [.struct numberStruct, .enum toneEnum] ++ .group toneGroup :: [] := rfl
  have number := addUnit_means .initial accepted first rfl rfl
  have enum := addUnit_means .initial accepted second rfl rfl
  have group := addUnit_means .initial accepted third rfl rfl
  exact ⟨annotated, after, accepted, number.1 .nowhere false, group.1 .nowhere true, number.2, enum.2⟩

/-- **A declared name need not mean its declaration**: a struct may be named `Number`, and its name still means the
builtin. -/
theorem exists_name_taken :
    ∃ unit annotated after decl, initial.addUnit unit = (.ok annotated, after) ∧ .struct decl ∈ unit.declarations ∧
      after.symbols.types.structs.contains decl.name.name = true ∧
      after.symbols.types.resolve [] (.app (.unresolved decl.name.name .nowhere) [] false) = .ok (.builtin .number) :=
  ⟨namesakesUnit, _, _, numberStruct, rfl, List.mem_cons_self, rfl, rfl⟩

end Session

end DeclCheck
