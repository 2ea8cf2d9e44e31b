import DeclCheck.Proofs.Ensures
import DeclCheck.Proofs.Overloading.History
import DeclCheck.Proofs.Passes
import DeclCheck.Proofs.Places.Trees

/-!
# Where decisions refuse

Every decision of the checker that fails names a place it was given: that of the written name it cannot resolve, of
the identifier it rejects, or of the expression whose type is wrong. Types from the tables bring places of other files
with them, and none of these is ever named. A decision is given places that satisfy some property, so its error has a
place that satisfies it; all that the property is about is left open.
-/

namespace DeclCheck

/-- Whether an error reports a problem of the unit, at a place with a property. -/
def Error.FoundWhere (there : Location → Prop) : Error → Prop
  | .found _ location => there location
  | .internal _ => False

/-- Whether an error that has a place has one with a property. -/
def Error.PlacedWhere (there : Location → Prop) : Error → Prop
  | .found _ location => there location
  | .internal _ => True

variable {there : Location → Prop} {α : Type}

/-- An error that was found somewhere is placed there. -/
theorem ErrorsIn.placed {outcome : Except Error α} (errors : ErrorsIn (Error.FoundWhere there) outcome) :
    ErrorsIn (Error.PlacedWhere there) outcome :=
  errors.mono fun error found => by
    cases error with
    | found problem location => exact found
    | internal message => trivial

/-- A refusal is found where it is said to be. -/
theorem errorsIn_refuse (problem : Problem) {location : Location} (here : there location) :
    ErrorsIn (Error.FoundWhere there) (refuse problem location : Except Error α) :=
  ErrorsIn.error here

/-- Of two locations the first that is known is taken, so it is where both are. -/
theorem there_orElse {location fallback : Location} (own : location.isNowhere = false → there location)
    (other : there fallback) : there (location.orElse fallback) := by
  unfold Location.orElse
  split
  · exact other
  · rename_i somewhere
    exact own (Bool.eq_false_iff.mpr somewhere)

/-! ## Written types -/

namespace Ty

/-- The place of a type is one of its places, if it has one at all. -/
theorem location_mem_places {ty : Ty} (real : ty.location.isNowhere = false) : ty.location ∈ ty.places := by
  cases ty with
  | atom shape nullable =>
    cases shape with
    | generic name location => exact List.mem_singleton.mpr rfl
    | void | enum | group => cases real
  | app ctor args nullable =>
    cases ctor with
    | unresolved name location => exact List.mem_cons_self
    | builtin | struct => cases real

/-- The places of the arguments are places of the type. -/
theorem places_args_subset (ty : Ty) : ∀ place ∈ allPlaces ty.args, place ∈ ty.places := by
  intro place mem
  cases ty with
  | atom shape nullable => cases mem
  | app ctor args nullable =>
    cases ctor with
    | unresolved name location => exact List.mem_cons_of_mem _ mem
    | builtin | struct => exact mem

/-- A type is placed at its own name, or where it is used. -/
theorem there_location_orElse {ty : Ty} {fallback : Location} (spelled : ∀ place ∈ ty.places, there place)
    (here : there fallback) : there (ty.location.orElse fallback) :=
  there_orElse (fun real => spelled _ (location_mem_places real)) here

end Ty

/-- What a name means brings no place with it: only arguments have places. -/
theorem Meaning.places_applied (meaning : Meaning) (args : List Ty) (nullable : Bool) :
    ∀ place ∈ (meaning.applied args nullable).places, place ∈ Ty.allPlaces args := by
  cases meaning with
  | builtin | struct => exact fun _ mem => mem
  | enum | group => exact fun _ mem => nomatch mem

namespace TypeTable

variable (types : TypeTable) (generics : List String)

/-- A wrong number of arguments is reported where it is asked about. -/
theorem errorsIn_checkTypeArguments (ty : Ty) {location : Location} (here : there location) :
    ErrorsIn (Error.FoundWhere there) (types.checkTypeArguments ty location) := by
  unfold checkTypeArguments
  split
  · split
    · exact ErrorsIn.ok _
    · split
      · exact ErrorsIn.ok _
      · exact errorsIn_refuse _ here
  · exact ErrorsIn.ok _

mutual

/-- **A type that is not resolved is refused at one of its places.** -/
theorem errorsIn_resolve : ∀ written : Ty, (∀ place ∈ written.places, there place) →
    ErrorsIn (Error.FoundWhere there) (types.resolve generics written)
  | .atom (.generic name location) nullable, spelled => by
    rw [resolve]
    split
    · exact ErrorsIn.ok _
    · exact errorsIn_refuse _ (spelled location List.mem_cons_self)
  | .atom .void _, _ => ErrorsIn.ok _
  | .atom (.enum _) _, _ => ErrorsIn.ok _
  | .atom (.group _) _, _ => ErrorsIn.ok _
  | .app (.unresolved name location) args nullable, spelled => by
    simp only [Ty.places, List.forall_mem_cons] at spelled
    rw [resolve]
    split
    · exact ErrorsIn.ok _
    · refine ErrorsIn.bind (errorsIn_resolveAll args spelled.2) fun found _ => ?_
      split
      · exact errorsIn_refuse _ spelled.1
      · exact ErrorsIn.bind (errorsIn_checkTypeArguments types _ spelled.1) fun _ _ => ErrorsIn.ok _
  | .app (.builtin _) args _, spelled =>
    ErrorsIn.bind (errorsIn_resolveAll args spelled) fun _ _ => ErrorsIn.ok _
  | .app (.struct _) args _, spelled =>
    ErrorsIn.bind (errorsIn_resolveAll args spelled) fun _ _ => ErrorsIn.ok _

/-- An error in one of several types is found at a place of these types. -/
theorem errorsIn_resolveAll : ∀ written : List Ty, (∀ place ∈ Ty.allPlaces written, there place) →
    ErrorsIn (Error.FoundWhere there) (types.resolveAll generics written)
  | [], _ => ErrorsIn.ok _
  | ty :: rest, spelled => by
    simp only [Ty.allPlaces, List.forall_mem_append] at spelled
    rw [resolveAll]
    refine ErrorsIn.bind (errorsIn_resolve ty spelled.1) fun _ _ => ?_
    exact ErrorsIn.bind (errorsIn_resolveAll rest spelled.2) fun _ _ => ErrorsIn.ok _

end

variable {types generics}

mutual

/-- **A resolved type has places of the written one only.** -/
theorem places_resolve : ∀ (written : Ty) {found : Ty}, types.resolve generics written = .ok found →
    ∀ place ∈ found.places, place ∈ written.places
  | .atom (.generic name location) nullable, found, resolved => by
    rw [resolve] at resolved
    split at resolved
    · cases resolved
      exact fun _ mem => mem
    · cases resolved
  | .atom .void _, _, resolved => by cases resolved; exact fun _ mem => mem
  | .atom (.enum _) _, _, resolved => by cases resolved; exact fun _ mem => mem
  | .atom (.group _) _, _, resolved => by cases resolved; exact fun _ mem => mem
  | .app (.unresolved name location) args nullable, found, resolved => by
    rw [resolve] at resolved
    split at resolved
    · cases resolved
      intro place mem
      obtain rfl := List.mem_singleton.mp mem
      exact List.mem_cons_self
    · obtain ⟨args, resolvedArgs, next⟩ := bind_eq_ok.mp resolved
      split at next
      · cases next
      · rename_i meaning meant
        obtain ⟨-, -, made⟩ := bind_eq_ok.mp next
        cases made
        intro place mem
        have inArgs := meaning.places_applied args nullable place mem
        exact List.mem_cons_of_mem _ (places_resolveAll _ resolvedArgs place inArgs)
  | .app (.builtin _) args _, _, resolved => by
    obtain ⟨args, resolvedArgs, made⟩ := bind_eq_ok.mp resolved
    cases made
    exact places_resolveAll _ resolvedArgs
  | .app (.struct _) args _, _, resolved => by
    obtain ⟨args, resolvedArgs, made⟩ := bind_eq_ok.mp resolved
    cases made
    exact places_resolveAll _ resolvedArgs

/-- Resolving several types adds no places to them. -/
theorem places_resolveAll : ∀ (written : List Ty) {found : List Ty}, types.resolveAll generics written = .ok found →
    ∀ place ∈ Ty.allPlaces found, place ∈ Ty.allPlaces written
  | [], _, resolved => by cases resolved; exact fun _ mem => mem
  | ty :: rest, _, resolved => by
    obtain ⟨first, resolvedFirst, next⟩ := bind_eq_ok.mp resolved
    obtain ⟨others, resolvedRest, made⟩ := bind_eq_ok.mp next
    cases made
    intro place mem
    rcases List.mem_append.mp mem with inFirst | inRest
    · exact List.mem_append_left _ (places_resolve ty resolvedFirst place inFirst)
    · exact List.mem_append_right _ (places_resolveAll rest resolvedRest place inRest)

end

/-! ## Tables -/

variable (types)

/-- A struct is refused at its name. -/
theorem errorsIn_registerStruct {decl : StructDecl} (here : there decl.name.location) :
    ErrorsIn (Error.FoundWhere there) (types.registerStruct decl) := by
  unfold TypeTable.registerStruct
  dsimp only
  split
  · exact errorsIn_refuse _ here
  · exact ErrorsIn.ok _

/-- An enum is refused at its name. -/
theorem errorsIn_registerEnum {decl : EnumDecl} (here : there decl.name.location) :
    ErrorsIn (Error.FoundWhere there) (types.registerEnum decl) := by
  unfold TypeTable.registerEnum
  dsimp only
  split
  · exact errorsIn_refuse _ here
  · exact ErrorsIn.ok _

/-- A group is refused at its name. -/
theorem errorsIn_registerGroup {decl : GroupDecl} (here : there decl.name.location) :
    ErrorsIn (Error.FoundWhere there) (types.registerGroup decl) := by
  unfold TypeTable.registerGroup
  dsimp only
  split
  · exact errorsIn_refuse _ here
  · exact ErrorsIn.ok _

/-- The members of a struct are refused at their types. -/
theorem errorsIn_resolveStruct {decl : StructDecl}
    (spelled : ∀ member ∈ decl.members, ∀ place ∈ member.ty.places, there place) :
    ErrorsIn (Error.FoundWhere there) (types.resolveStruct decl) := by
  refine ErrorsIn.bind (ErrorsIn.mapM fun member mem => ?_) fun _ _ => ErrorsIn.ok _
  exact ErrorsIn.bind (errorsIn_resolve types _ member.ty (spelled member mem)) fun _ _ => ErrorsIn.ok _

end TypeTable

/-- A group binding is refused at one of its types or where it stands. -/
theorem Analysis.errorsIn_bindTypes_placed {binding : GroupBinding} (here : there binding.location)
    (child : ∀ place ∈ binding.child.places, there place) (parent : ∀ place ∈ binding.parent.places, there place)
    (types : TypeTable) : ErrorsIn (Error.PlacedWhere there) (bindTypes binding types) := by
  refine ErrorsIn.bind (TypeTable.errorsIn_resolve types [] _ child).placed fun child _ => ?_
  refine ErrorsIn.bind (TypeTable.errorsIn_resolve types [] _ parent).placed fun parent _ => ?_
  split
  · split
    · exact ErrorsIn.ok _
    · exact ErrorsIn.error trivial
  · exact (errorsIn_refuse _ here).placed

/-! ## Signatures and calls -/

namespace FunctionDecl

variable {types : TypeTable} {decl : FunctionDecl}

/-- A generic parameter that a parameter introduces stands where the parameter does. -/
theorem mem_closedGenerics {generic : GenericParam} (mem : generic ∈ closedGenerics types decl) :
    generic ∈ decl.generics ∨
      ∃ param ∈ decl.params, generic.name.location = param.name.location ∧ generic.constraint = none := by
  obtain ⟨implicit, same, added⟩ := closedGenerics_eq_append types decl
  rw [same, List.mem_append] at mem
  refine mem.imp_right fun new => ?_
  obtain ⟨unrestricted, param, listed, stands⟩ := added generic new
  exact ⟨param, listed, stands, unrestricted⟩

/-- The places of the closed generic parameters are places of the function. -/
theorem places_closedGenerics (types : TypeTable) (spelled : ∀ place ∈ decl.places, there place) :
    ∀ generic ∈ closedGenerics types decl, ∀ place ∈ generic.places, there place := by
  simp only [places, List.cons_append, List.forall_mem_cons, List.forall_mem_append, List.forall_mem_flatMap] at spelled
  obtain ⟨-, ⟨⟨⟨-, generics⟩, params⟩, -⟩, -⟩ := spelled
  intro generic mem place inside
  rcases mem_closedGenerics mem with given | ⟨param, listed, stands, unrestricted⟩
  · exact generics generic given place inside
  · simp only [GenericParam.places, unrestricted, stands, Ty.optionalPlaces, Option.map_none, Option.getD_none,
      List.mem_singleton] at inside
    subst inside
    exact params param listed _ List.mem_cons_self

/-- **A signature that does not close is refused at a place of the function.** -/
theorem errorsIn_close (types : TypeTable) (spelled : ∀ place ∈ decl.places, there place) :
    ErrorsIn (Error.FoundWhere there) (decl.close types) := by
  have restrictions := places_closedGenerics types spelled
  simp only [places, List.cons_append, List.forall_mem_cons, List.forall_mem_append, List.forall_mem_flatMap] at spelled
  obtain ⟨here, ⟨⟨-, params⟩, returned⟩, -⟩ := spelled
  refine ErrorsIn.bind (ErrorsIn.mapM fun generic mem => ?_) fun generics _ => ?_
  · unfold resolveConstraint
    split
    · exact ErrorsIn.ok _
    · rename_i written restricted
      refine ErrorsIn.bind (TypeTable.errorsIn_resolve types _ _ fun place inside => ?_) fun _ _ => ErrorsIn.ok _
      refine restrictions generic mem place (List.mem_cons_of_mem _ ?_)
      rw [restricted]
      exact inside
  refine ErrorsIn.bind (ErrorsIn.mapM fun param mem => ?_) fun params _ => ?_
  · have spelled : ∀ place ∈ param.ty.places, there place :=
      fun place inside => params param mem place (List.mem_cons_of_mem _ inside)
    exact ErrorsIn.bind (TypeTable.errorsIn_resolve types _ _ spelled) fun _ _ => ErrorsIn.ok _
  refine ErrorsIn.bind (TypeTable.errorsIn_resolve types _ _ returned) fun returnType resolved => ?_
  dsimp only
  split
  · exact ErrorsIn.ok _
  · refine errorsIn_refuse _ (Ty.there_location_orElse (fun place inside => ?_) here)
    exact returned place (TypeTable.places_resolve _ resolved place inside)

end FunctionDecl

/-- **A call that cannot be bound is refused where it stands**: there is an overload, or a position that disqualifies
one. -/
theorem Overloading.errorsIn_resolve (lattice : Lattice) (functions : FunctionTable) (key : FunctionKey)
    (signature : String) (actuals : List Ty) {location : Location} (here : there location) :
    ErrorsIn (Error.FoundWhere there) (resolve lattice functions key signature actuals location) := by
  unfold resolve
  dsimp only
  split
  · exact errorsIn_refuse _ here
  · rename_i listed
    split
    · exact ErrorsIn.ok _
    · split
      · exact ErrorsIn.ok _
      · rename_i best
        obtain ⟨position, failed⟩ := exists_failure
          (fun empty => listed (List.isEmpty_iff.mpr (List.map_eq_nil_iff.mp empty))) (cheapest_eq_none.mp best)
        rw [failed]
        exact errorsIn_refuse _ here

/-! ## Expressions -/

section

variable {env : Env} {location : Location}

namespace Literal

/-- A literal is refused at its constructor, or where it stands. -/
theorem errorsIn_start {ctor : Ty} (spelled : ∀ place ∈ ctor.places, there place) (here : there location) :
    ErrorsIn (Error.FoundWhere there) (start env ctor location) := by
  have stands : there (ctor.location.orElse location) := Ty.there_location_orElse spelled here
  unfold start
  dsimp only
  split
  · exact errorsIn_refuse _ stands
  · split
    · exact errorsIn_refuse _ stands
    · have args : ∀ place ∈ Ty.allPlaces ctor.args, there place :=
        fun place inside => spelled place (ctor.places_args_subset place inside)
      exact ErrorsIn.bind (TypeTable.errorsIn_resolveAll _ _ _ args) fun _ _ => ErrorsIn.ok _

/-- A member is refused at its name. -/
theorem errorsIn_claim (literal : Literal) {member : Ident} (here : there member.location) :
    ErrorsIn (Error.FoundWhere there) (literal.claim member) := by
  unfold claim
  split
  · exact errorsIn_refuse _ here
  · split
    · exact errorsIn_refuse _ here
    · exact ErrorsIn.ok _

/-- A value of a member is refused where it stands. -/
theorem errorsIn_accept (literal : Literal) (declared : Member) (actual : Ty) (here : there location) :
    ErrorsIn (Error.FoundWhere there) (literal.accept env declared actual location) := by
  unfold accept
  dsimp only
  generalize (if literal.explicit = true then literal.bindings else _) = bindings
  split
  · exact ErrorsIn.ok _
  · exact errorsIn_refuse _ here

/-- Placeholders that no member has bound are reported where the literal stands. -/
theorem errorsIn_boundArgs (bindings : Bindings) (here : there location) (names : List String) :
    ErrorsIn (Error.FoundWhere there) (boundArgs bindings location names) := by
  induction names with
  | nil => exact ErrorsIn.ok _
  | cons name rest ih =>
    unfold boundArgs
    split
    · exact errorsIn_refuse _ here
    · exact ErrorsIn.bind ih fun _ _ => ErrorsIn.ok _

/-- So is whatever a literal lacks. -/
theorem errorsIn_finish (literal : Literal) (here : there location) :
    ErrorsIn (Error.FoundWhere there) (literal.finish location) := by
  unfold finish
  dsimp only
  split
  · exact ErrorsIn.bind (errorsIn_boundArgs _ here _) fun _ _ => ErrorsIn.ok _
  · exact errorsIn_refuse _ here

end Literal

/-- An access is refused at the member's name, or where the subject stands. -/
theorem errorsIn_memberType_placed (subject : Ty) {key : Ident} (here : there location) (named : there key.location) :
    ErrorsIn (Error.PlacedWhere there) (memberType env subject location key) := by
  unfold memberType
  split
  · split
    · exact ErrorsIn.error trivial
    · split
      · exact (errorsIn_refuse _ named).placed
      · exact ErrorsIn.ok _
  · exact (errorsIn_refuse _ here).placed

/-- A case is refused at its name, or at the name of the enum. -/
theorem errorsIn_enumCaseType {enumName : Option Ident} {case : Ident} (here : there case.location)
    (named : ∀ name, enumName = some name → there name.location) :
    ErrorsIn (Error.FoundWhere there) (enumCaseType env enumName case) := by
  unfold enumCaseType
  split
  · split
    · exact errorsIn_refuse _ (named _ rfl)
    · split
      · exact ErrorsIn.ok _
      · exact errorsIn_refuse _ here
  · split
    · exact errorsIn_refuse _ here
    · exact ErrorsIn.ok _

/-! ## Statements -/

namespace Check

/-- An element of another type is refused where it stands. -/
theorem errorsIn_commonType (expected : Option Ty) (position : Nat) (actual : Ty) (here : there location) :
    ErrorsIn (Error.FoundWhere there) (commonType expected position actual location) := by
  unfold commonType
  split
  · exact ErrorsIn.ok _
  · split
    · exact ErrorsIn.ok _
    · exact errorsIn_refuse _ here

/-- So is a value that may not be assigned. -/
theorem errorsIn_assignable (name : String) (expected actual : Ty) (here : there location) :
    ErrorsIn (Error.FoundWhere there) (assignable env name expected actual location) := by
  unfold assignable
  split
  · split
    · exact ErrorsIn.ok _
    · exact errorsIn_refuse _ here
  · split
    · exact ErrorsIn.ok _
    · exact errorsIn_refuse _ here

/-- The type of a declaration is refused at one of its places, and its value where it stands. -/
theorem errorsIn_declaredType {target : Variable} (value : Ty)
    (spelled : ∀ place ∈ Ty.optionalPlaces target.declaredType, there place) (here : there location) :
    ErrorsIn (Error.FoundWhere there) (declaredType env target value location) := by
  unfold declaredType
  split
  · exact ErrorsIn.ok _
  · rename_i written given
    rw [given] at spelled
    refine ErrorsIn.bind (TypeTable.errorsIn_resolve _ _ _ spelled) fun declared _ => ?_
    exact ErrorsIn.bind (errorsIn_assignable _ _ _ here) fun _ _ => ErrorsIn.ok _

/-- A reassignment is refused at the target or where the value stands. -/
theorem errorsIn_rebindable {target : Ident} (existing : Option LocalVariable) (value : Ty)
    (named : there target.location) (here : there location) :
    ErrorsIn (Error.FoundWhere there) (rebindable env target existing value location) := by
  unfold rebindable
  split
  · exact errorsIn_refuse _ named
  · split
    · exact errorsIn_refuse _ named
    · split
      · exact errorsIn_refuse _ here
      · exact ErrorsIn.bind (errorsIn_assignable _ _ _ here) fun _ _ => ErrorsIn.ok _

/-- What cannot be iterated is refused where it stands. -/
theorem errorsIn_elementType (iterable : Ty) (here : there location) :
    ErrorsIn (Error.FoundWhere there) (elementType iterable location) := by
  unfold elementType
  split
  · exact ErrorsIn.ok _
  · exact errorsIn_refuse _ here

end Check

/-- A name that is taken is refused where it is declared anew. -/
theorem Scopes.errorsIn_define (scopes : Scopes) {var : LocalVariable} (here : there var.location) :
    ErrorsIn (Error.FoundWhere there) (scopes.define var) := by
  unfold Scopes.define
  split
  · exact errorsIn_refuse _ here
  · exact ErrorsIn.ok _

end

/-- A returned value of another type is refused where it is returned. -/
theorem Analysis.errorsIn_checkReturns (expected : Ty) {returns : List (Ty × Location)}
    (noted : ∀ entry ∈ returns, there entry.2) :
    ErrorsIn (Error.FoundWhere there) (checkReturns expected returns) := by
  induction returns with
  | nil => exact ErrorsIn.ok _
  | cons first rest ih =>
    unfold checkReturns
    split
    · exact ih fun entry mem => noted entry (List.mem_cons_of_mem _ mem)
    · exact errorsIn_refuse _ (noted first List.mem_cons_self)

/-- A step on the type tables ensures what it ensures of the tables and of its result. -/
theorem Analysis.ensures_onTypes {property : Analysis → Prop} {good : α → Prop} {allowed : Error → Prop}
    {step : TypeTable → Except Error (α × TypeTable)}
    (keeps : ∀ {before value types}, property before → step before.symbols.types = .ok (value, types) →
      property { before with symbols := { before.symbols with types } } ∧ good value)
    (errors : ∀ types, ErrorsIn allowed (step types)) : Ensures property good allowed (onTypes step) where
  ok holds reached := by
    obtain ⟨types, stepped, rfl⟩ := onTypes_eq_ok reached
    exact keeps holds stepped
  error {before _ _} holds reached := by
    rw [onTypes_apply] at reached
    cases stepped : step before.symbols.types with
    | ok found => rw [stepped] at reached; cases reached
    | error error =>
      rw [stepped] at reached
      cases reached
      exact ⟨holds, errors _ _ stepped⟩

end DeclCheck
