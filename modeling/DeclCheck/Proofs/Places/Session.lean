import DeclCheck.Proofs.Places.Walk
import DeclCheck.Proofs.Session

/-!
# Errors point into the unit

Each pass refuses a declaration at one of its places and leaves no new place in it, so the error of a rejected unit
stands in that unit: not in the files whose declarations fill the tables, and not nowhere. The only condition is that
the unit itself names real places.

Of several faults in a unit one is reported. Which one, and that its place is the best to show, is not said.
-/

namespace DeclCheck

variable {there : Location → Prop}

/-! ## What the passes leave -/

/-- Resolving the members of a struct adds no places. -/
theorem StructDecl.places_resolveStruct {types : TypeTable} {decl resolved : StructDecl}
    (spelled : ∀ place ∈ decl.places, there place) (resolving : types.resolveStruct decl = .ok resolved) :
    ∀ place ∈ resolved.places, there place := by
  obtain ⟨members, rfl, each⟩ := TypeTable.resolveStruct_eq_ok resolving
  simp only [places, List.cons_append, List.forall_mem_cons, List.forall_mem_append, List.forall_mem_flatMap]
    at spelled ⊢
  obtain ⟨here, named, generics, given⟩ := spelled
  refine ⟨here, named, generics, fun member mem => ?_⟩
  obtain ⟨source, listed, name, found⟩ := each member mem
  have own := given source listed
  simp only [Member.places, List.forall_mem_cons] at own ⊢
  rw [name]
  exact ⟨own.1, fun place inside => own.2 place (TypeTable.places_resolve _ found place inside)⟩

namespace FunctionDecl

variable {types : TypeTable} {decl closed : FunctionDecl}

/-- Nor does resolving a restriction. -/
theorem places_resolveConstraint {generic restricted : GenericParam} (spelled : ∀ place ∈ generic.places, there place)
    (resolving : resolveConstraint types generic = .ok restricted) : ∀ place ∈ restricted.places, there place := by
  unfold resolveConstraint at resolving
  split at resolving
  · cases resolving
    exact spelled
  · rename_i written given
    obtain ⟨constraint, found, made⟩ := bind_eq_ok.mp resolving
    cases made
    simp only [GenericParam.places, List.forall_mem_cons, given] at spelled ⊢
    exact ⟨spelled.1, fun place inside => spelled.2 place (TypeTable.places_resolve _ found place inside)⟩

/-- **A closed function has places of the written one only.** -/
theorem places_close (spelled : ∀ place ∈ decl.places, there place) (closing : decl.close types = .ok closed) :
    ∀ place ∈ closed.places, there place := by
  have introduced := places_closedGenerics types spelled
  obtain ⟨generics, params, returnType, restricted, typed, returned, rfl, -⟩ := close_eq_ok closing
  simp only [places, List.cons_append, List.forall_mem_cons, List.forall_mem_append, List.forall_mem_flatMap]
    at spelled ⊢
  obtain ⟨here, ⟨⟨⟨tokens, -⟩, given⟩, result⟩, body⟩ := spelled
  refine ⟨here, ⟨⟨⟨tokens, ?_⟩, ?_⟩, ?_⟩, body⟩
  · exact forall_of_mapM_eq_ok (fun generic mem _ => places_resolveConstraint (introduced generic mem)) restricted
  · refine forall_of_mapM_eq_ok (fun param mem {_} stepped => ?_) typed
    obtain ⟨ty, found, made⟩ := bind_eq_ok.mp stepped
    cases made
    have own := given param mem
    simp only [Param.places, List.forall_mem_cons] at own ⊢
    exact ⟨own.1, fun place inside => own.2 place (TypeTable.places_resolve _ found place inside)⟩
  · exact fun place inside => result place (TypeTable.places_resolve _ returned place inside)

end FunctionDecl

/-! ## The passes -/

namespace Analysis

/-- **Whether a pass refuses at places with a property**, and has good results only. -/
abbrev Placed {α : Type} (there : Location → Prop) (good : α → Prop) (pass : Pass α) : Prop :=
  Ensures (fun _ => True) good (Error.PlacedWhere there) pass

/-- Errors of the first pass are placed in the declaration. -/
theorem placed_registerName {decl : Decl} (spelled : ∀ place ∈ decl.places, there place) :
    Placed there (fun _ => True) (registerName decl) := by
  have registers : ∀ register : TypeTable → Except Error TypeTable,
      (∀ types, ErrorsIn (Error.FoundWhere there) (register types)) →
      Placed there (fun _ => True) (onTypes fun types => (register types).map (((), ·))) :=
    fun _ errors => ensures_onTypes (fun _ _ => ⟨trivial, trivial⟩) fun types => ((errors types).map _).placed
  cases decl with
  | struct decl =>
    exact registers _ fun types => types.errorsIn_registerStruct (spelled _ (by simp [Decl.places, StructDecl.places]))
  | enum decl => exact registers _ fun types => types.errorsIn_registerEnum (spelled _ (by simp [Decl.places]))
  | group decl => exact registers _ fun types => types.errorsIn_registerGroup (spelled _ (by simp [Decl.places]))
  | function | binding | exampleBlock | importing => exact Ensures.pure trivial

/-- So are those of the second. -/
theorem placed_bindGroup {decl : Decl} (spelled : ∀ place ∈ decl.places, there place) :
    Placed there (fun result => ∀ place ∈ result.places, there place) (bindGroup decl) := by
  cases decl with
  | binding binding =>
    simp only [Decl.places, List.cons_append, List.forall_mem_cons, List.forall_mem_append] at spelled
    obtain ⟨here, child, parent⟩ := spelled
    have binds : Placed there (fun bound => ∀ place ∈ (Decl.binding bound).places, there place)
        (onTypes (bindTypes binding)) := by
      refine ensures_onTypes (fun _ reached => ⟨trivial, ?_⟩) (errorsIn_bindTypes_placed here child parent)
      obtain ⟨_, _, _, _, resolvedChild, resolvedParent, -, rfl, -⟩ := bindTypes_inserted reached
      simp only [Decl.places, List.cons_append, List.forall_mem_cons, List.forall_mem_append]
      exact ⟨here, fun place inside => child place (TypeTable.places_resolve _ resolvedChild place inside),
        fun place inside => parent place (TypeTable.places_resolve _ resolvedParent place inside)⟩
    exact Ensures.bind binds fun _ bound => Ensures.pure bound
  | struct | enum | group | function | exampleBlock | importing => exact Ensures.pure spelled

/-- So are those of the third. -/
theorem placed_resolveMembers {decl : Decl} (spelled : ∀ place ∈ decl.places, there place) :
    Placed there (fun result => ∀ place ∈ result.places, there place) (resolveMembers decl) := by
  cases decl with
  | struct decl =>
    rw [resolveMembers]
    refine ensures_onTypes (fun _ reached => ⟨trivial, ?_⟩) fun types => ?_
    · obtain ⟨resolved, resolving, made⟩ := bind_eq_ok.mp reached
      cases made
      exact StructDecl.places_resolveStruct spelled resolving
    · have members : ∀ member ∈ decl.members, ∀ place ∈ member.ty.places, there place := by
        intro member mem place inside
        refine spelled place (List.mem_append_right _ (List.mem_flatMap.mpr ⟨member, mem, ?_⟩))
        exact List.mem_cons_of_mem _ inside
      exact ErrorsIn.bind (types.errorsIn_resolveStruct members).placed fun _ _ => ErrorsIn.ok _
  | enum | group | function | binding | exampleBlock | importing => exact Ensures.pure spelled

/-- So are those of the fourth. -/
theorem placed_collect {decl : Decl} (spelled : ∀ place ∈ decl.places, there place) :
    Placed there (fun result => ∀ place ∈ result.places, there place) (collect decl) := by
  cases decl with
  | function decl =>
    rw [collect]
    refine Ensures.get_bind fun analysis _ => ?_
    cases closing : decl.close analysis.symbols.types with
    | error error => exact Ensures.throw ((FunctionDecl.errorsIn_close _ spelled).placed error closing)
    | ok closed =>
      refine Ensures.bind (Ensures.set trivial) fun _ _ => ?_
      exact Ensures.pure (FunctionDecl.places_close spelled closing)
  | struct | enum | group | binding | exampleBlock | importing => exact Ensures.pure spelled

/-- A walk places its errors and its returns where its steps do. -/
theorem placed_walk {α : Type} {generics : List String} {body : Env → Check α}
    (placed : ∀ env, Check.Placed there (fun _ => True) (body env)) :
    Placed there (fun walked => ∀ entry ∈ walked.2, there entry.2) (walk generics .empty body) where
  ok _ reached := by
    obtain ⟨state, stepped, noted, -⟩ := walk_eq_ok reached
    rw [noted]
    exact ⟨trivial, ((placed _).ok (fun _ mem => by cases mem) stepped).1⟩
  error {before _ _} _ reached := by
    simp only [walk] at reached
    cases stepped : body ⟨before.symbols.types, generics⟩ ⟨before.symbols.functions, .empty, []⟩ with
    | ok value state => rw [stepped] at reached; cases reached
    | error error state =>
      rw [stepped] at reached
      cases reached
      exact ⟨trivial, ((placed _).error (fun _ mem => by cases mem) stepped).2⟩

/-- A parameter is refused at its name. -/
theorem placed_defineParams {params : List Param} (named : ∀ param ∈ params, there param.name.location) :
    Check.Placed there (fun _ => True) (defineParams params) := by
  induction params with
  | nil => exact Ensures.pure trivial
  | cons param rest ih =>
    refine Ensures.bind (Check.placed_define (named param List.mem_cons_self)) fun _ _ => ?_
    exact ih fun other mem => named other (List.mem_cons_of_mem _ mem)

/-- **Errors of the fifth pass are placed in the declaration.** -/
theorem placed_checkBody (real : Check.Real there) {decl : Decl} (spelled : ∀ place ∈ decl.places, there place) :
    Placed there (fun _ => True) (checkBody decl) := by
  cases decl with
  | function decl =>
    simp only [Decl.places, FunctionDecl.places, List.cons_append, List.forall_mem_cons, List.forall_mem_append,
      List.forall_mem_flatMap] at spelled
    obtain ⟨-, ⟨⟨-, params⟩, -⟩, body⟩ := spelled
    refine Ensures.bind (placed_walk fun env => ?_) fun walked noted => ?_
    · refine Ensures.bind (placed_defineParams fun param mem => ?_) fun _ _ => Check.placed_block real decl.body body
      exact params param mem _ List.mem_cons_self
    · dsimp only
      cases checked : checkReturns decl.returnType walked.2 with
      | ok allowed => exact Ensures.pure trivial
      | error error => exact Ensures.throw ((errorsIn_checkReturns _ noted).placed error checked)
  | exampleBlock decl =>
    simp only [Decl.places, List.forall_mem_cons] at spelled
    refine Ensures.bind (placed_walk fun env => Check.placed_block real decl.body spelled.2) fun _ _ => ?_
    exact Ensures.pure trivial
  | struct | enum | group | binding | importing => exact Ensures.pure trivial

/-- **The check of declarations refuses them at one of their places.** -/
theorem placed_declarations (real : Check.Real there) {decls : List Decl}
    (spelled : ∀ decl ∈ decls, ∀ place ∈ decl.places, there place) :
    Placed there (fun _ => True) (declarations decls) := by
  refine Ensures.bind (Ensures.forM fun decl mem => placed_registerName (spelled decl mem)) fun _ _ => ?_
  refine Ensures.bind (Ensures.mapM fun decl mem => placed_bindGroup (spelled decl mem)) fun groups bound => ?_
  refine Ensures.bind (Ensures.mapM fun decl mem => placed_resolveMembers (bound decl mem)) fun structs left => ?_
  refine Ensures.bind (Ensures.mapM fun decl mem => placed_collect (left decl mem)) fun signatures ready => ?_
  exact (Ensures.mapM fun decl mem => placed_checkBody real (ready decl mem)).mono fun _ _ => trivial

end Analysis

/-! ## Sessions -/

namespace Session

/-- **A diagnostic points into the unit that was rejected.** It carries the name and the text of that unit, and its
place is one that the unit names, whatever the session was given before. -/
theorem addUnit_pointsInto {session after : Session} {unit : SourceUnit} {diagnostic : Diagnostic}
    (real : ∀ place ∈ unit.places, place.isNowhere = false)
    (rejected : session.addUnit unit = (.error diagnostic, after)) :
    diagnostic.file.filename = unit.filename ∧ diagnostic.file.content = unit.content ∧
      (diagnostic.error.isInternal = false →
        ∃ place ∈ unit.places, diagnostic.error.location? = some place ∧ place.isNowhere = false) := by
  have spelled : ∀ decl ∈ unit.withOrigins.declarations, ∀ place ∈ decl.places, place ∈ unit.places := by
    intro decl mem place inside
    rw [← unit.places_withOrigins]
    exact List.mem_flatMap.mpr ⟨decl, mem, inside⟩
  have placed := Analysis.placed_declarations real spelled
  simp only [addUnit] at rejected
  cases checked : Analysis.declarations unit.withOrigins.declarations (.start session.symbols) with
  | ok declarations analysis =>
    rw [checked] at rejected
    cases rejected
  | error error analysis =>
    rw [checked] at rejected
    cases rejected
    refine ⟨rfl, rfl, fun report => ?_⟩
    have points := (placed.error trivial checked).2
    cases error with
    | internal message => cases report
    | found problem location => exact ⟨location, points, rfl, real location points⟩

/-- A unit that declares a struct with a member, far down in its file. -/
def cratesUnit : SourceUnit where
  filename := "crates.pine"
  content := "struct Crate"
  declarations := [.struct {
    name := ⟨"Crate", .onLine 70 8 12⟩
    members := [⟨⟨"weight", .onLine 71 3 8⟩, .app (.unresolved "Integer" (.onLine 71 11 17)) [] false⟩]
    generics := []
    origin := ""
    location := .onLine 70 1 12 }]

/-- A unit that gives the member a text. -/
def shippingUnit : SourceUnit where
  filename := "shipping.pine"
  content := "example"
  declarations := [.exampleBlock {
    body := [.assignment {
      target := ⟨⟨"crate", .onLine 2 7 11⟩, none, false, none⟩
      isDeclaration := true
      value := .mk (.object (.app (.unresolved "Crate" (.onLine 2 15 19)) [] false)
        [⟨⟨"weight", .onLine 2 23 28⟩, .mk (.string "heavy") none (.onLine 2 31 37)⟩]) none (.onLine 2 15 39)
      location := .onLine 2 3 39 }]
    origin := ""
    location := .onLine 1 1 7 }]

/-- The text is refused where the second unit has it, not where the first one declares the member. -/
theorem shippingUnit_pointsInto :
    ∃ diagnostic after, (initial.addUnit cratesUnit).2.addUnit shippingUnit = (.error diagnostic, after) ∧
      diagnostic.error.location? = some (.onLine 2 31 37) ∧ diagnostic.file.filename = "shipping.pine" ∧
      ∃ place ∈ shippingUnit.places, diagnostic.error.location? = some place ∧ place.isNowhere = false := by
  have real : ∀ place ∈ shippingUnit.places, place.isNowhere = false := by decide
  have rejected : ∃ diagnostic after, (initial.addUnit cratesUnit).2.addUnit shippingUnit = (.error diagnostic, after) ∧
      diagnostic.error.location? = some (.onLine 2 31 37) ∧ diagnostic.error.isInternal = false :=
    ⟨_, _, rfl, rfl, rfl⟩
  obtain ⟨diagnostic, after, rejected, stands, report⟩ := rejected
  obtain ⟨named, -, points⟩ := addUnit_pointsInto real rejected
  exact ⟨diagnostic, after, rejected, stands, named, points report⟩

end Session

end DeclCheck
