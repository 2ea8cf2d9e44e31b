import DeclCheck.Proofs.Naming.Catalogue
import DeclCheck.Proofs.Resolution.Spelling

/-!
# Tables that agree with the lattice

The struct table, the enum table and the lattice are filled side by side, and a check that fails leaves each of them as
far as it came. In every state of a session that was given written units they still agree: a struct or an enum is in
its table just if the lattice has a node for it. For a node is attached when a name is registered, which enters the
name as well, or when a type is bound into a group, and that type was resolved from a name that the tables knew.

Nothing is far from the root either. Whatever types are bound into a group, the group itself stands directly under the
root, since it was registered there, and bindings that go round in circles take no way up from it.

Not established is that the entries of the tables are resolved. After a rejected unit the members of a struct may stand
there as they were written.
-/

namespace DeclCheck

/-! ## The order of the nodes -/

namespace Lattice

variable {lattice after : Lattice} {child parent : Ty}

/-- **Whether the root comes first, and every other node after its parent.** -/
structure Ordered (lattice : Lattice) : Prop where
  root : lattice.nodes[0]? = some ⟨.any, none⟩
  parents : ∀ position node, lattice.nodes[position + 1]? = some node →
    ∃ parent ≤ position, node.parent = some parent

theorem Ordered.insert? (ordered : lattice.Ordered) (inserted : lattice.insert? child parent = some after) :
    after.Ordered := by
  obtain ⟨target, found, rfl⟩ := Option.map_eq_some_iff.mp inserted
  obtain ⟨inside, -⟩ := List.findIdx?_eq_some_iff_getElem.mp found
  have some : 0 < lattice.nodes.length := Nat.zero_lt_of_lt inside
  constructor
  · rw [List.getElem?_append_left some]
    exact ordered.root
  · intro position node there
    by_cases old : position + 1 < lattice.nodes.length
    · rw [List.getElem?_append_left old] at there
      exact ordered.parents position node there
    · rw [List.getElem?_append_right (Nat.le_of_not_lt old)] at there
      cases List.mem_singleton.mp (List.mem_of_getElem? there)
      exact ⟨target, by omega, rfl⟩

theorem Ordered.insert (ordered : lattice.Ordered) (child parent : Ty) : (lattice.insert child parent).Ordered := by
  cases inserted : lattice.insert? child parent with
  | none =>
    rw [insert_of_insert?_eq_none inserted]
    exact ordered
  | some after =>
    rw [insert_of_insert?_eq_some inserted]
    exact ordered.insert? inserted

/-- A node after the first has a hop to one before it. -/
theorem Ordered.exists_hop_before (ordered : lattice.Ordered) (resolved : lattice.Resolved) {position : Nat}
    {node : LatticeNode} (there : lattice.nodes[position + 1]? = some node) :
    ∃ before ≤ position, ∃ parent, lattice.nodes[before]? = some parent ∧
      lattice.Hop node.ty.head parent.ty.head := by
  obtain ⟨before, order, points⟩ := ordered.parents position node there
  have inside : before < lattice.nodes.length := by
    have last := (List.getElem?_eq_some_iff.mp there).1
    omega
  have listed := List.mem_of_getElem? there
  have own : node.ty.head.agrees node.ty.head = true := by
    have head := resolved _ (List.mem_map_of_mem listed)
    exact (Head.agrees_iff head head).mpr rfl
  have found := List.getElem?_eq_getElem inside
  refine ⟨before, order, lattice.nodes[before], found, node, listed, own, lattice.nodes[before].ty, ?_, rfl⟩
  simp only [parentOf, points, Option.bind_some, found, Option.map_some]

/-- Every type in the lattice but the root has a hop to somewhere. -/
theorem Ordered.exists_hop (ordered : lattice.Ordered) (resolved : lattice.Resolved) {ty : Ty}
    (mem : ty ∈ lattice.types) : ty = .any ∨ ∃ high, lattice.Hop ty.head high := by
  obtain ⟨node, listed, rfl⟩ := List.mem_map.mp mem
  obtain ⟨position, there⟩ := List.mem_iff_getElem?.mp listed
  cases position with
  | zero =>
    rw [ordered.root] at there
    cases there
    exact Or.inl rfl
  | succ position =>
    obtain ⟨_, -, parent, -, hop⟩ := ordered.exists_hop_before resolved there
    exact Or.inr ⟨_, hop⟩

/-- **From every type in the lattice the root is at most two hops away.** -/
theorem Ordered.exists_distance (ordered : lattice.Ordered) (rooted : lattice.Rooted) {ty : Ty}
    (mem : ty ∈ lattice.types) : ∃ length ≤ 2, lattice.distance ty .any = some length := by
  rcases ordered.exists_hop rooted.resolved mem with rfl | ⟨high, hop⟩
  · exact ⟨0, Nat.zero_le 2, (distance_eq_zero_iff rooted.resolved .any .any).mpr rfl⟩
  · have first : Walk lattice.Hop 1 ty.head high := .step (.refl _) hop
    rcases rooted.parents _ _ hop with rfl | near
    · obtain ⟨length, bound, found⟩ := exists_distance_le rooted.resolved
        (show 1 ∈ lattice.meetings ty .any from ⟨Nat.one_pos, _, first, rfl⟩)
      exact ⟨length, by omega, found⟩
    · exact exists_distance_le rooted.resolved ⟨Nat.two_pos, _, .step first near, rfl⟩

end Lattice

/-! ## What the lattice has, the tables list -/

namespace TypeTable

variable {types after : TypeTable}

/-- Whether the tables list the struct or the enum of a head, if it is the head of one. -/
def Lists (types : TypeTable) : Head → Prop
  | .struct name => types.structs.contains name = true
  | .enum name => types.enums.contains name = true
  | _ => True

/-- **Whether the tables list all structs and enums of the lattice.** -/
def Listed (types : TypeTable) : Prop := ∀ head ∈ types.lattice.types.map Ty.head, types.Lists head

theorem Extends.lists (grown : types.Extends after) (head : Head) (lists : types.Lists head) : after.Lists head := by
  cases head with
  | struct name =>
    obtain ⟨decl, found⟩ := Option.isSome_iff_exists.mp lists
    exact Option.isSome_iff_exists.mpr ⟨decl, grown.structs found⟩
  | enum name =>
    obtain ⟨decl, found⟩ := Option.isSome_iff_exists.mp lists
    exact Option.isSome_iff_exists.mpr ⟨decl, grown.enums found⟩
  | void | generic | group | unresolved | builtin => trivial

/-- A written name means a struct or an enum only if the tables list it. -/
theorem Listed.of_meaning (listed : types.Listed) {name : String} {meaning : Meaning}
    (meant : types.meaning? name = some meaning) (args : List Ty) (nullable : Bool) :
    types.Lists (meaning.applied args nullable).head := by
  unfold meaning? at meant
  split at meant
  · rename_i found located
    rw [Meaning.head_applied meant]
    exact listed _ (List.mem_map_of_mem (List.mem_of_find?_eq_some located))
  · split at meant
    · rename_i known
      cases meant
      exact known
    · split at meant
      · rename_i known
        cases meant
        exact known
      · obtain ⟨kind, -, rfl⟩ := Option.map_eq_some_iff.mp meant
        trivial

/-- A written type is resolved to a struct or an enum only if the tables list it. -/
theorem Listed.of_resolve (listed : types.Listed) {generics : List String} {written ty : Ty}
    (form : written.isWritten = true) (resolved : types.resolve generics written = .ok ty) : types.Lists ty.head := by
  cases written with
  | atom shape nullable =>
    cases shape with
    | void =>
      cases resolved
      trivial
    | generic | enum | group => cases form
  | app ctor args nullable =>
    cases ctor with
    | unresolved name location =>
      rw [resolve] at resolved
      split at resolved
      · cases resolved
        trivial
      · obtain ⟨found, -, next⟩ := bind_eq_ok.mp resolved
        split at next
        · cases next
        · rename_i meaning meant
          obtain ⟨_, -, made⟩ := bind_eq_ok.mp next
          cases made
          exact listed.of_meaning meant _ _
    | builtin | struct => cases form

/-- One more node keeps the tables in step if they list it. -/
theorem Listed.grow (listed : types.Listed) (grown : types.Extends after) (child : Ty)
    (heads : ∀ ty ∈ after.lattice.types, ty ∈ types.lattice.types ∨ ty = child.withNullable false)
    (lists : after.Lists child.head) : after.Listed := by
  intro head mem
  obtain ⟨ty, there, rfl⟩ := List.mem_map.mp mem
  rcases heads ty there with old | rfl
  · exact grown.lists _ (listed _ (List.mem_map_of_mem old))
  · rw [Ty.head_withNullable]
    exact lists

theorem ordered_initial : TypeTable.initial.lattice.Ordered where
  root := rfl
  parents := by
    have all : ∀ position < TypeTable.initial.lattice.nodes.length,
        ∀ node ∈ TypeTable.initial.lattice.nodes[position + 1]?, ∃ parent ≤ position, node.parent = some parent := by
      decide
    intro position node there
    have last := (List.getElem?_eq_some_iff.mp there).1
    exact all position (by omega) node there

theorem listed_initial : TypeTable.initial.Listed := by
  have all : ∀ head ∈ TypeTable.initial.lattice.types.map Ty.head,
      head ∈ TypeTable.initial.enums.keys.map Head.enum ∨ head ∈ Builtin.all.map Head.builtin := by decide
  intro head mem
  rcases all head mem with known | known
  · obtain ⟨name, listed, rfl⟩ := List.mem_map.mp known
    have each : ∀ name ∈ TypeTable.initial.enums.keys, TypeTable.initial.enums.contains name = true := by decide
    exact each name listed
  · obtain ⟨kind, -, rfl⟩ := List.mem_map.mp known
    trivial

/-- **Whether the tables and the lattice agree**: on the structs, on the enums, on what comes after what, and on how
far the root is. -/
structure Coherent (types : TypeTable) : Prop where
  structs : ∀ name, types.structs.contains name = true ↔ ∃ node ∈ types.lattice.nodes, node.ty.head = .struct name
  enums : ∀ name, types.enums.contains name = true ↔ ∃ node ∈ types.lattice.nodes, node.ty.head = .enum name
  ordered : types.lattice.Ordered
  near : ∀ ty ∈ types.lattice.types, ∃ length ≤ 2, types.lattice.distance ty .any = some length

theorem mem_heads_iff {lattice : Lattice} {head : Head} :
    head ∈ lattice.types.map Ty.head ↔ ∃ node ∈ lattice.nodes, node.ty.head = head := by
  simp only [Lattice.types, List.map_map, List.mem_map, Function.comp_apply]

end TypeTable

/-! ## Sessions -/

/-- **What written declarations do to the tables keeps the nodes in order and all of them listed.** -/
theorem Analysis.typesKeep_listed {decls : List Decl} (written : ∀ decl ∈ decls, decl.isWritten = true) :
    TypesKeep (fun types => types.lattice.Ordered ∧ types.Listed) decls where
  registerStruct := by
    rintro decl types after - ⟨ordered, listed⟩ registered
    have grown := TypeTable.extends_registerStruct registered
    obtain ⟨-, rfl⟩ := TypeTable.registerStruct_eq_ok registered
    refine ⟨ordered.insert _ _, listed.grow grown _ Lattice.types_insert_subset ?_⟩
    simp [Ty.struct, Ty.head, Ctor.head, TypeTable.Lists, Dict.contains]
  registerEnum := by
    rintro decl types after - ⟨ordered, listed⟩ registered
    have grown := TypeTable.extends_registerEnum registered
    obtain ⟨-, rfl⟩ := TypeTable.registerEnum_eq_ok registered
    refine ⟨ordered.insert _ _, listed.grow grown _ Lattice.types_insert_subset ?_⟩
    simp [Ty.enum, Ty.head, Atom.head, TypeTable.Lists, Dict.contains]
  registerGroup := by
    rintro decl types after - ⟨ordered, listed⟩ registered
    have grown := TypeTable.extends_registerGroup registered
    obtain rfl := TypeTable.registerGroup_eq_ok registered
    exact ⟨ordered.insert _ _, listed.grow grown _ Lattice.types_insert_subset trivial⟩
  bindTypes := by
    rintro binding bound types after mem ⟨ordered, listed⟩ reached
    have grown := extends_bindTypes reached
    obtain ⟨child, name, nullable, lattice, resolved, -, inserted, -, rfl⟩ := bindTypes_inserted reached
    have form : binding.child.isWritten = true := by
      have both := written _ mem
      simp only [Decl.isWritten, Bool.and_eq_true] at both
      exact both.1
    refine ⟨ordered.insert? inserted, listed.grow grown child (fun ty there => ?_) ?_⟩
    · rw [Lattice.types_insert? inserted] at there
      exact (List.mem_append.mp there).imp_right List.mem_singleton.mp
    · exact grown.lists _ (listed.of_resolve form resolved)
  updateStruct := by
    rintro - - - - decl resolved types - ⟨ordered, listed⟩ -
    refine ⟨ordered, fun head mem => ?_⟩
    have lists := listed head mem
    cases head with
    | struct name =>
      simp only [TypeTable.Lists, TypeTable.updateStruct, Dict.contains, Dict.find?_insert]
      split
      · rfl
      · exact lists
    | void | generic | group | unresolved | builtin | enum => exact lists

namespace Session

theorem Written.reachable {session : Session} (written : session.Written) : session.Reachable := by
  induction written with
  | initial => exact .initial
  | add _ unit ih => exact .add ih _

/-- **The tables of a session agree with one another** in every state that written units lead to, accepted or not: a
name is in the struct table just if the lattice has a node of that struct, and in the enum table just if it has a node
of that enum; the root comes first and every other node after its parent; and from each type in the lattice the root
is at most two hops away. -/
theorem Written.coherent {session : Session} (written : session.Written) : session.symbols.types.Coherent := by
  obtain ⟨ordered, listed⟩ := written.types ⟨TypeTable.ordered_initial, TypeTable.listed_initial⟩
    fun _ => Analysis.typesKeep_listed
  have catalogued := written.reachable.catalogued
  refine ⟨fun name => ?_, fun name => ?_, ordered, fun ty mem => ordered.exists_distance written.rooted mem⟩
  · rw [← TypeTable.mem_heads_iff]
    exact ⟨catalogued.structs, listed (.struct name)⟩
  · rw [← TypeTable.mem_heads_iff]
    exact ⟨catalogued.enums, listed (.enum name)⟩

/-- Two groups that are bound into each other, with `Any` in the one and `Void` in the other, a struct and an enum of
one name, and a binding into the struct, which is refused. -/
def tangledUnit : SourceUnit where
  filename := "tangled.pine"
  content := ""
  declarations :=
    [.group ⟨⟨"Odd", .nowhere⟩, "", .nowhere⟩,
      .group ⟨⟨"Even", .nowhere⟩, "", .nowhere⟩,
      .struct ⟨⟨"Box", .nowhere⟩, [], [], "", .nowhere⟩,
      .enum ⟨⟨"Box", .nowhere⟩, [⟨"empty", .nowhere⟩], "", .nowhere⟩,
      .binding ⟨Ty.written "Odd" [], Ty.written "Even" [], "", .nowhere⟩,
      .binding ⟨Ty.written "Even" [], Ty.written "Odd" [], "", .nowhere⟩,
      .binding ⟨Ty.written "Any" [], Ty.written "Odd" [], "", .nowhere⟩,
      .binding ⟨.void, Ty.written "Even" [], "", .nowhere⟩,
      .binding ⟨Ty.written "Odd" [], Ty.written "Box" [], "", .nowhere⟩]

/-- The refused binding leaves the tables as far as they had come, and in agreement. -/
theorem tangledUnit_coherent :
    let session := (initial.addUnit tangledUnit).2
    (initial.addUnit tangledUnit).1.toBool = false ∧ session.symbols.types.lattice.size = 20 ∧ session.Written ∧
      session.symbols.types.Coherent := by
  have written : (initial.addUnit tangledUnit).2.Written := .add .initial rfl
  exact ⟨by decide +kernel, by decide +kernel, written, written.coherent⟩

end Session

end DeclCheck
