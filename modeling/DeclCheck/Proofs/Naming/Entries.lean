import DeclCheck.Proofs.Naming.Catalogue
import Mathlib.Data.List.Forall2

/-!
# What a unit leaves in the tables

The first pass enters every struct and enum of a unit as it is declared, and nothing takes an entry away. The third pass
replaces each struct by its resolved form, one after another, so the members of one struct are resolved while some of
the others are resolved already and some are not. This makes no difference: resolution asks a struct for the number of
its placeholders only, and that stays as it was declared. At the end, therefore, each struct stands in its table with
the members that the tables at the end make of those written.

Nothing is said about units that are rejected. They leave what was entered before the error.
-/

namespace DeclCheck

/-- A list is made item by item, each result from the item at its place. -/
theorem mapM_eq_ok_iff_forall₂ {ε α β : Type} {step : α → Except ε β} {items : List α} {results : List β} :
    items.mapM step = .ok results ↔ List.Forall₂ (fun result item => step item = .ok result) results items := by
  induction items generalizing results with
  | nil =>
    rw [List.forall₂_nil_right_iff]
    exact ⟨fun reached => by cases reached; rfl, fun none => by rw [none]; rfl⟩
  | cons item rest ih =>
    rw [List.mapM_cons]
    constructor
    · intro reached
      obtain ⟨first, stepped, later⟩ := bind_eq_ok.mp reached
      obtain ⟨others, steppedRest, done⟩ := bind_eq_ok.mp later
      cases done
      exact .cons stepped (ih.mp steppedRest)
    · intro made
      cases made with
      | cons stepped others => exact bind_eq_ok.mpr ⟨_, stepped, bind_eq_ok.mpr ⟨_, ih.mpr others, rfl⟩⟩

namespace TypeTable

variable {types between after : TypeTable} {generics : List String}

/-! ## Tables that read alike -/

/-- **Whether written types read alike in two tables**: every name has the same meaning, and every struct takes as many
arguments. -/
structure ReadsAlike (types after : TypeTable) : Prop where
  meaning : ∀ name, after.meaning? name = types.meaning? name
  arguments : ∀ ty location, after.checkTypeArguments ty location = types.checkTypeArguments ty location

namespace ReadsAlike

theorem refl (types : TypeTable) : types.ReadsAlike types := ⟨fun _ => rfl, fun _ _ => rfl⟩

/-- Tables that read alike do so both ways. -/
theorem symm (alike : types.ReadsAlike after) : after.ReadsAlike types :=
  ⟨fun name => (alike.meaning name).symm, fun ty location => (alike.arguments ty location).symm⟩

/-- Tables that read as a third one read alike. -/
theorem trans (first : types.ReadsAlike between) (second : between.ReadsAlike after) : types.ReadsAlike after where
  meaning name := (second.meaning name).trans (first.meaning name)
  arguments ty location := (second.arguments ty location).trans (first.arguments ty location)

/-- A struct that is replaced under its name, with as many placeholders, changes nothing for written types. -/
theorem updateStruct {old decl : StructDecl} (found : types.structs.find? decl.name.name = some old)
    (same : decl.generics = old.generics) : types.ReadsAlike (types.updateStruct decl) where
  meaning name := by
    have listed : (types.structs.insert decl.name.name decl).contains name = types.structs.contains name := by
      rw [Dict.contains, Dict.contains, Dict.find?_insert]
      split
      next own => rw [own, found]; rfl
      next => rfl
    simp only [meaning?, TypeTable.updateStruct, listed]
  arguments ty location := by
    unfold checkTypeArguments
    split
    next name args nullable =>
      simp only [TypeTable.updateStruct, Dict.find?_insert]
      by_cases own : name = decl.name.name
      · rw [if_pos own, own, found]
        simp only [same]
      · rw [if_neg own]
    next => rfl

mutual

/-- **A written type that one table resolves is resolved alike by the other.** -/
theorem resolve (alike : types.ReadsAlike after) :
    ∀ (written : Ty) {ty : Ty}, types.resolve generics written = .ok ty → after.resolve generics written = .ok ty
  | .atom (.generic name location) nullable, ty, resolved => by
    rw [TypeTable.resolve] at resolved ⊢
    split at resolved
    next own =>
      rw [if_pos own]
      exact resolved
    next => cases resolved
  | .atom .void _, _, resolved => resolved
  | .atom (.enum _) _, _, resolved => resolved
  | .atom (.group _) _, _, resolved => resolved
  | .app (.unresolved name location) args nullable, ty, resolved => by
    rw [TypeTable.resolve] at resolved ⊢
    split at resolved
    next own =>
      rw [if_pos own]
      exact resolved
    next own =>
      rw [if_neg own, alike.meaning]
      obtain ⟨found, resolving, next⟩ := bind_eq_ok.mp resolved
      refine bind_eq_ok.mpr ⟨found, alike.resolveAll args resolving, ?_⟩
      cases meant : types.meaning? name with
      | none =>
        rw [meant] at next
        cases next
      | some meaning =>
        rw [meant] at next
        dsimp only at next ⊢
        rw [alike.arguments]
        exact next
  | .app (.builtin kind) args nullable, ty, resolved => by
    obtain ⟨found, resolving, made⟩ := bind_eq_ok.mp resolved
    exact bind_eq_ok.mpr ⟨found, alike.resolveAll args resolving, made⟩
  | .app (.struct name) args nullable, ty, resolved => by
    obtain ⟨found, resolving, made⟩ := bind_eq_ok.mp resolved
    exact bind_eq_ok.mpr ⟨found, alike.resolveAll args resolving, made⟩

/-- The same for several types. -/
theorem resolveAll (alike : types.ReadsAlike after) : ∀ (written : List Ty) {found : List Ty},
    types.resolveAll generics written = .ok found → after.resolveAll generics written = .ok found
  | [], _, resolved => resolved
  | ty :: rest, _, resolved => by
    obtain ⟨first, resolving, next⟩ := bind_eq_ok.mp resolved
    obtain ⟨others, resolvingRest, made⟩ := bind_eq_ok.mp next
    refine bind_eq_ok.mpr ⟨first, alike.resolve ty resolving, ?_⟩
    exact bind_eq_ok.mpr ⟨others, alike.resolveAll rest resolvingRest, made⟩

end

/-- **A struct that one table resolves is resolved alike by the other.** -/
theorem resolveStruct (alike : types.ReadsAlike after) {decl resolved : StructDecl}
    (resolving : types.resolveStruct decl = .ok resolved) : after.resolveStruct decl = .ok resolved := by
  obtain ⟨members, each, made⟩ := bind_eq_ok.mp resolving
  refine bind_eq_ok.mpr ⟨members, ?_, made⟩
  refine mapM_eq_ok_iff_forall₂.mpr ((mapM_eq_ok_iff_forall₂.mp each).imp fun member source stepped => ?_)
  obtain ⟨ty, found, made⟩ := bind_eq_ok.mp stepped
  exact bind_eq_ok.mpr ⟨ty, alike.resolve source.ty found, made⟩

end ReadsAlike

/-! ## Resolved structs -/

/-- **Whether a struct is a declared one with its members resolved**, each in its place. -/
structure IsResolvedFrom (types : TypeTable) (resolved decl : StructDecl) : Prop where
  name : resolved.name = decl.name
  generics : resolved.generics = decl.generics
  location : resolved.location = decl.location
  members : List.Forall₂ (fun member source =>
    member.name = source.name ∧ types.resolve decl.genericNames source.ty = .ok member.ty) resolved.members decl.members

/-- Resolution makes the declared struct with its members resolved. -/
theorem isResolvedFrom_of_resolveStruct {decl resolved : StructDecl}
    (resolving : types.resolveStruct decl = .ok resolved) : types.IsResolvedFrom resolved decl := by
  obtain ⟨members, each, made⟩ := bind_eq_ok.mp resolving
  cases made
  refine ⟨rfl, rfl, rfl, (mapM_eq_ok_iff_forall₂.mp each).imp fun member source stepped => ?_⟩
  obtain ⟨ty, found, made⟩ := bind_eq_ok.mp stepped
  cases made
  exact ⟨rfl, found⟩

end TypeTable

/-! ## Entries of declarations -/

namespace Decl

/-- Whether a declared struct or enum stands in its table as it is declared. -/
def IsRegistered (types : TypeTable) : Decl → Prop
  | .struct decl => types.structs.find? decl.name.name = some decl
  | .enum decl => types.enums.find? decl.name.name = some decl
  | _ => True

/-- **Whether a declared struct or enum stands in its table**, a struct with its members resolved. -/
def IsEntered (types : TypeTable) : Decl → Prop
  | .struct decl => ∃ resolved, types.structs.find? decl.name.name = some resolved ∧
      types.resolveStruct decl = .ok resolved
  | .enum decl => types.enums.find? decl.name.name = some decl
  | _ => True

/-- What is registered stays so while the tables grow. -/
theorem IsRegistered.extends {types after : TypeTable} {decl : Decl} (registered : decl.IsRegistered types)
    (grown : types.Extends after) : decl.IsRegistered after := by
  cases decl with
  | struct decl => exact grown.structs registered
  | enum decl => exact grown.enums registered
  | function | group | binding | importing | exampleBlock => trivial

end Decl

namespace Analysis

variable {before after : Analysis}

/-- The first pass enters what it registers. -/
theorem isRegistered_registerName {decl : Decl} (registered : registerName decl before = .ok () after) :
    decl.IsRegistered after.symbols.types := by
  cases decl with
  | struct decl =>
    rw [registerName] at registered
    have made := (TypeTable.registerStruct_eq_ok (onTypes_map_eq_ok registered)).2
    rw [made]
    exact Dict.find?_insert_self _ _ _
  | enum decl =>
    rw [registerName] at registered
    have made := (TypeTable.registerEnum_eq_ok (onTypes_map_eq_ok registered)).2
    rw [made]
    exact Dict.find?_insert_self _ _ _
  | function | group | binding | importing | exampleBlock => trivial

/-- The first pass enters every declared struct and enum. -/
theorem isRegistered_forM_registerName {decls : List Decl}
    (registered : decls.forM registerName before = .ok () after) :
    ∀ decl ∈ decls, decl.IsRegistered after.symbols.types := by
  induction decls generalizing before with
  | nil =>
    intro decl mem
    cases mem
  | cons first rest ih =>
    obtain ⟨_, between, stepped, later⟩ := step_bind_eq_ok.mp registered
    intro decl mem
    rcases List.mem_cons.mp mem with rfl | last
    · have kept := Keeps.forM_of_mem fun _ mem =>
        keepsTypes_registerName (namesKeep_extends between.symbols.types rest) mem
      have grown : between.symbols.types.Extends after.symbols.types := kept.of_eq_ok (.refl _) later
      exact (isRegistered_registerName stepped).extends grown
    · exact ih later decl last

/-! ## The third pass -/

/-- **What the third pass has done** when some declarations are left: written types read as at its start, and each
declared struct stands in its table, resolved as at the start unless it is among those left. -/
structure Resolving (start : TypeTable) (decls left : List Decl) (types : TypeTable) : Prop where
  lattice : types.lattice = start.lattice
  enums : types.enums = start.enums
  alike : start.ReadsAlike types
  entries : ∀ decl, .struct decl ∈ decls → ∃ entry, types.structs.find? decl.name.name = some entry ∧
    (start.resolveStruct decl = .ok entry ∨ entry = decl ∧ .struct decl ∈ left)

section

variable {start types : TypeTable} {decls left : List Decl}

/-- A struct is resolved as at the start, and replaced. Where two declarations had one name, they would be the same. -/
theorem Resolving.updateStruct {own resolved : StructDecl}
    (registered : ∀ decl, .struct decl ∈ decls → start.structs.find? decl.name.name = some decl)
    (mem : .struct own ∈ decls) (before : Resolving start decls (.struct own :: left) types)
    (resolving : types.resolveStruct own = .ok resolved) :
    Resolving start decls left (types.updateStruct resolved) := by
  have early : start.resolveStruct own = .ok resolved := before.alike.symm.resolveStruct resolving
  have made := TypeTable.isResolvedFrom_of_resolveStruct early
  refine ⟨before.lattice, before.enums, ?_, ?_⟩
  · obtain ⟨entry, found, form⟩ := before.entries own mem
    have same : entry.generics = own.generics := by
      rcases form with earlier | ⟨rfl, -⟩
      · exact (TypeTable.isResolvedFrom_of_resolveStruct earlier).generics
      · rfl
    rw [← made.name] at found
    exact before.alike.trans (.updateStruct found (made.generics.trans same.symm))
  · intro decl listed
    by_cases same : decl.name.name = own.name.name
    · have equal : decl = own := by
        have one := registered decl listed
        rw [same, registered own mem] at one
        exact (Option.some.inj one).symm
      subst equal
      refine ⟨resolved, ?_, Or.inl early⟩
      rw [← made.name]
      exact Dict.find?_insert_self _ _ _
    · obtain ⟨entry, found, form⟩ := before.entries decl listed
      refine ⟨entry, ?_, form.imp_right fun ⟨own, waits⟩ => ⟨own, ?_⟩⟩
      · rw [← made.name] at same
        exact (Dict.find?_insert_of_ne _ _ same).trans found
      · rcases List.mem_cons.mp waits with first | later
        · cases first
          exact absurd rfl same
        · exact later

/-- A declaration that is no struct is passed by. -/
theorem Resolving.skip {item : Decl} (other : ∀ decl, item ≠ .struct decl)
    (before : Resolving start decls (item :: left) types) : Resolving start decls left types := by
  refine ⟨before.lattice, before.enums, before.alike, fun decl listed => ?_⟩
  obtain ⟨entry, found, form⟩ := before.entries decl listed
  refine ⟨entry, found, form.imp_right fun ⟨own, waits⟩ => ⟨own, ?_⟩⟩
  exact (List.mem_cons.mp waits).resolve_left fun first => other decl first.symm

end

/-- **The third pass leaves every struct resolved**, and written types read as before it. -/
theorem resolving_mapM_resolveMembers {decls results : List Decl}
    (registered : ∀ decl, .struct decl ∈ decls → before.symbols.types.structs.find? decl.name.name = some decl)
    (reached : decls.mapM resolveMembers before = .ok results after) :
    Resolving before.symbols.types decls [] after.symbols.types := by
  have start : Resolving before.symbols.types decls decls before.symbols.types :=
    ⟨rfl, rfl, .refl _, fun decl listed => ⟨decl, registered decl listed, Or.inr ⟨rfl, listed⟩⟩⟩
  -- the items left are among the declarations, so each struct that is met is one that was registered
  have along : ([] ⊆ decls ∧ Resolving before.symbols.types decls [] after.symbols.types) ∧
      ∀ result ∈ results, True := by
    refine mapM_along (fun left analysis => left ⊆ decls ∧ Resolving before.symbols.types decls left
      analysis.symbols.types) ?_ ⟨fun _ mem => mem, start⟩ reached
    intro item left between next result held stepped
    refine ⟨⟨fun decl mem => held.1 (List.mem_cons_of_mem _ mem), ?_⟩, trivial⟩
    cases item with
    | struct own =>
      rw [resolveMembers] at stepped
      obtain ⟨types, made, rfl⟩ := onTypes_eq_ok stepped
      obtain ⟨resolved, resolving, made⟩ := bind_eq_ok.mp made
      cases made
      exact held.2.updateStruct registered (held.1 List.mem_cons_self) resolving
    | enum | group | function | binding | exampleBlock | importing =>
      cases stepped
      refine held.2.skip ?_
      intro decl same
      cases same
  exact along.1.2

/-! ## Units -/

/-- The struct that a declaration declares. -/
def struct? : Decl → Option StructDecl
  | .struct decl => some decl
  | _ => none

/-- The structs of declarations are those that were declared. -/
theorem mem_map_struct? {decls : List Decl} {decl : StructDecl} :
    some decl ∈ decls.map struct? ↔ .struct decl ∈ decls := by
  constructor
  · intro mem
    obtain ⟨item, listed, found⟩ := List.mem_map.mp mem
    cases item with
    | struct own =>
      cases found
      exact listed
    | enum | group | function | binding | exampleBlock | importing => cases found
  · exact List.mem_map_of_mem

/-- The second pass leaves structs as they are. -/
theorem mem_of_mapM_bindGroup {decls groups : List Decl} (reached : decls.mapM bindGroup before = .ok groups after)
    (decl : StructDecl) : .struct decl ∈ groups ↔ .struct decl ∈ decls := by
  have same : groups.map struct? = decls.map struct? := by
    refine map_eq_of_mapM (fun item {start next result} stepped => ?_) reached
    cases item with
    | binding binding =>
      obtain ⟨bound, between, -, made⟩ := step_bind_eq_ok.mp stepped
      cases made
      rfl
    | struct | enum | group | function | exampleBlock | importing =>
      cases stepped
      rfl
  rw [← mem_map_struct?, same, mem_map_struct?]

/-- **What an accepted unit leaves in the type tables**: the types that it declares, in the lattice after those that
were there before and in the order of their declarations; and each struct and enum in its table. -/
theorem declared_of_declarations {decls result : List Decl} (catalogued : before.symbols.types.Catalogued)
    (reached : declarations decls before = .ok result after) :
    before.symbols.types.lattice.types.map Ty.head ++ decls.filterMap Decl.head? <+:
        after.symbols.types.lattice.types.map Ty.head ∧
      ∀ decl ∈ decls, decl.IsEntered after.symbols.types := by
  obtain ⟨named, bound, resolved, closed, groups, structs, signatures, registered, binding, resolving, -, collecting,
    checking⟩ := declarations_eq_ok reached
  have binds : Keeps (KnowsTypes named.symbols.types.Extends) (decls.mapM bindGroup) :=
    Keeps.mapM_of_mem fun _ mem =>
      keepsTypes_bindGroup (fun _ grown reached => grown.trans (extends_bindTypes reached)) mem
  have grown : named.symbols.types.Extends bound.symbols.types := binds.of_eq_ok (.refl _) binding
  have known : ∀ decl ∈ decls, decl.IsRegistered bound.symbols.types := fun decl mem =>
    (isRegistered_forM_registerName registered decl mem).extends grown
  have third : Resolving bound.symbols.types groups [] resolved.symbols.types :=
    resolving_mapM_resolveMembers (fun decl mem => known _ ((mem_of_mapM_bindGroup binding decl).mp mem)) resolving
  -- the last two passes leave the type tables as they are
  have kept : Keeps (KnowsTypes (· = resolved.symbols.types)) (structs.mapM collect) := Keeps.mapM keepsTypes_collect _
  have left : Keeps (KnowsTypes (· = resolved.symbols.types)) (signatures.mapM checkBody) :=
    Keeps.mapM keepsTypes_checkBody _
  have last : after.symbols.types = resolved.symbols.types := left.of_eq_ok (kept.of_eq_ok rfl collecting) checking
  rw [last]
  constructor
  · rw [← heads_forM_registerName catalogued registered, third.lattice]
    exact (grown.nodes.map LatticeNode.ty).map Ty.head
  · intro decl mem
    have entry := known decl mem
    cases decl with
    | struct decl =>
      obtain ⟨entry, found, form⟩ := third.entries decl ((mem_of_mapM_bindGroup binding decl).mpr mem)
      have early : bound.symbols.types.resolveStruct decl = .ok entry := form.resolve_right fun left => nomatch left.2
      exact ⟨entry, found, third.alike.resolveStruct early⟩
    | enum decl =>
      show resolved.symbols.types.enums.find? decl.name.name = some decl
      rw [third.enums]
      exact entry
    | function | group | binding | importing | exampleBlock => trivial

end Analysis

end DeclCheck
