import DeclCheck.Proofs.Restrictions.Overloads
import DeclCheck.Proofs.Walk.Calls

/-!
# Restrictions in accepted units

A function may restrict a placeholder to the members of a group. Calls that bind the placeholder are held to it. But
a call whose argument is a placeholder too matches the parameter exactly, and nothing is bound: then the restriction
is not looked at, and the placeholder of the caller may be restricted to another group or to none. The main statement
says of every call of an accepted unit how its arguments come to stand where they stand, and that apart from members
and placeholders these are only values of `Nil`, `Any` and unresolved types that have become members.

That every argument is a member of the group is not established, because it is false: the values that are not are named
one by one.
-/

namespace DeclCheck

/-! ## The function table -/

theorem FunctionDecl.MadeFrom.key_eq {function overload : FunctionDecl} (made : overload.MadeFrom [function]) :
    overload.key = function.key := by
  induction made with
  | declared mem => rw [List.mem_singleton.mp mem]
  | specialised _ _ special ih => rw [Overloading.specialise_eq_ok special, Overloading.key_substituted, ih]

/-- **Whether an overload comes from one of some functions and meets its restrictions.** -/
def FunctionDecl.MeetsSource (lattice : Lattice) (declared : List FunctionDecl) (overload : FunctionDecl) : Prop :=
  ∃ function ∈ declared, overload.MadeFrom [function] ∧ function.Meets lattice overload

/-- Whether all overloads do, each listed under its own key. -/
def FunctionTable.MeetsSources (lattice : Lattice) (declared : List FunctionDecl) (functions : FunctionTable) :
    Prop :=
  functions.Keyed ∧ functions.Every fun _ overload => overload.MeetsSource lattice declared

variable {lattice after : Lattice} {declared more : List FunctionDecl} {functions : FunctionTable}

theorem FunctionDecl.MeetsSource.specialise (meant : lattice.Meant) {overload made : FunctionDecl} {actuals : List Ty}
    (source : overload.MeetsSource lattice declared) (isGeneric : overload.isGeneric = true)
    (special : Overloading.specialise lattice overload actuals = .ok made) : made.MeetsSource lattice declared := by
  obtain ⟨function, mem, earlier, meets⟩ := source
  exact ⟨function, mem, .specialised earlier isGeneric special, meets.specialise meant special⟩

namespace FunctionTable

/-- **The winner of a resolution meets the restrictions of its source**, and so do all overloads afterwards. -/
theorem MeetsSources.resolve (meant : lattice.Meant) (meets : functions.MeetsSources lattice declared)
    {key : FunctionKey} {signature : String} {actuals : List Ty} {location : Location} {decl : FunctionDecl}
    {table : FunctionTable}
    (bound : Overloading.resolve lattice functions key signature actuals location = .ok (decl, table)) :
    table.MeetsSources lattice declared ∧ decl.key = key ∧ decl.MeetsSource lattice declared := by
  obtain ⟨keyed, every⟩ := meets
  have after := Overloading.keyed_resolve keyed bound
  rcases Overloading.resolve_listed_or_specialised bound with ⟨listed, rfl⟩ | ⟨generic, listed, isGeneric, special, rfl⟩
  · exact ⟨⟨keyed, every⟩, keyed.of_mem listed, every.of_mem listed⟩
  · have made := (every.of_mem listed).specialise meant isGeneric special
    refine ⟨⟨after, every.insert made⟩, ?_, made⟩
    rw [Overloading.specialise_eq_ok special, Overloading.key_substituted]
    exact keyed.of_mem listed

theorem MeetsSources.keptByCalls (meant : lattice.Meant) (declared : List FunctionDecl) :
    Check.KeptByCalls lattice (MeetsSources lattice declared) :=
  fun _ _ _ _ _ _ _ meets bound => (meets.resolve meant bound).1

/-- Declared functions join as what they are, after the lattice has grown. -/
theorem MeetsSources.foldl_insert (resolved : lattice.Resolved) (resolvedAfter : after.Resolved)
    (grown : lattice.nodes <+: after.nodes) (meets : functions.MeetsSources lattice declared) :
    (more.foldl .insert functions).MeetsSources after (declared ++ more) := by
  obtain ⟨keyed, every⟩ := meets
  have earlier : functions.Every fun _ overload => overload.MeetsSource after (declared ++ more) := by
    intro key group overload mem
    obtain ⟨function, listed, made, meets⟩ := every key group overload mem
    exact ⟨function, List.mem_append_left _ listed, made, meets.of_grown resolved resolvedAfter grown⟩
  refine ⟨Every.foldl_insert keyed fun _ _ => rfl, earlier.foldl_insert fun function mem => ?_⟩
  exact ⟨function, List.mem_append_right _ mem, .declared List.mem_cons_self, .refl after function⟩

end FunctionTable

/-! ## Calls -/

/-- **Whether a bound call keeps to the restrictions of a function that it may be bound to.** Its overload is made from
a function of its key; and wherever the function has a parameter that is a restricted placeholder and nothing else,
the argument there is admitted. -/
def Call.KeepsRestrictions (lattice : Lattice) (declared : List FunctionDecl) (call : Call Expr) : Prop :=
  ∃ function ∈ declared, ∃ (overload : FunctionDecl) (actuals : List Ty),
    function.key = call.key ∧ overload.MadeFrom [function] ∧
    call.resolved = some ⟨overload.paramTypes, overload.returnType⟩ ∧ call.args.map Expr.ty = actuals.map some ∧
    ∀ generic group position, function.Restricts generic group position →
      ∃ param actual, overload.paramTypes[position]? = some param ∧ actuals[position]? = some actual ∧
        lattice.Admits group param actual

theorem Call.BoundFrom.keepsRestrictions (meant : lattice.Meant) {call : Call Expr}
    (bound : call.BoundFrom lattice (FunctionTable.MeetsSources lattice declared)) :
    call.KeepsRestrictions lattice declared := by
  obtain ⟨functions, actuals, location, decl, table, known, typed, resolved, noted⟩ := bound
  obtain ⟨-, own, function, mem, made, meets⟩ := known.resolve meant resolved
  have arity : call.key.arity = actuals.length := by
    have lengths := congrArg List.length typed
    rwa [List.length_map, List.length_map] at lengths
  have conforms := Overloading.resolve_conforms known.1 arity resolved
  refine ⟨function, mem, decl, actuals, made.key_eq.symm.trans own, made, noted, typed, ?_⟩
  intro generic group position restricts
  have inside : ∃ param, decl.paramTypes[position]? = some param ∧ param.nullable = false ∧
      (param.isGeneric = true ∨ lattice.HasMember group param) := by
    rcases meets generic group position restricts with ⟨-, -, location, still⟩ | ⟨ty, there, plain, member⟩
    · exact ⟨_, still, rfl, Or.inl rfl⟩
    · exact ⟨ty, there, plain, Or.inr member⟩
  obtain ⟨param, there, plain, inside⟩ := inside
  obtain ⟨below, found⟩ := List.getElem?_eq_some_iff.mp there
  have same := conforms.length_eq
  refine ⟨param, actuals[position], there, List.getElem?_eq_getElem _, ?_⟩
  refine Lattice.admits_of_isSubtype meant plain inside ?_
  rw [← found]
  exact conforms.get _ below

/-! ## Accepted units -/

/-- The fifth pass binds all calls of a body from tables that calls keep. -/
theorem Analysis.checkBody_bound {known : FunctionTable → Prop} (kept : Check.KeptByCalls lattice known)
    {before after : Analysis} {decl result : Decl} (holds : KnowsAt lattice known before)
    (reached : checkBody decl before = .ok result after) :
    KnowsAt lattice known after ∧ ∀ call ∈ result.calls, call.BoundFrom lattice known := by
  refine ⟨(keeps_checkBody_at kept decl).of_eq_ok holds reached, ?_⟩
  obtain ⟨rfl, holds⟩ := holds
  cases decl with
  | function decl =>
    obtain ⟨body, _, _, _, rfl, walked, -⟩ := checkBody_function_eq_ok reached
    let env : Env := ⟨before.symbols.types, decl.genericNames⟩
    have calls : Check.KeptByCalls env.types.lattice known := kept
    exact walked.bound calls holds
  | exampleBlock decl =>
    obtain ⟨body, _, _, _, rfl, walked, -⟩ := checkBody_example_eq_ok reached
    let env : Env := ⟨before.symbols.types, []⟩
    have calls : Check.KeptByCalls env.types.lattice known := kept
    exact walked.bound calls holds
  | struct | enum | group | binding | importing =>
    cases reached
    intro call mem
    cases mem

namespace Session

/-- **Every call of an accepted unit was bound from a known table**, if what is known holds once the functions of the
unit are entered and calls keep it. -/
theorem bound_addUnit {known : FunctionTable → Prop} {session after : Session} {unit annotated : SourceUnit}
    (accepted : session.addUnit unit = (.ok annotated, after))
    (kept : Check.KeptByCalls after.symbols.types.lattice known)
    (declared : known ((session.entered unit).foldl .insert session.symbols.functions)) :
    ∀ decl ∈ annotated.declarations, ∀ call ∈ decl.calls, call.BoundFrom after.symbols.types.lattice known := by
  obtain ⟨analysis, checked, symbols⟩ := addUnit_eq_ok accepted
  rw [symbols] at kept ⊢
  rw [Analysis.declarations_eq] at checked
  obtain ⟨decls, resolved, typed, next⟩ := step_bind_eq_ok.mp checked
  obtain ⟨signatures, closed, collecting, checking⟩ := step_bind_eq_ok.mp next
  have before : Analysis.Knows (· = session.symbols.functions) (.start session.symbols) := rfl
  have same : resolved.symbols.functions = session.symbols.functions :=
    (Analysis.keeps_typePasses _).of_eq_ok before typed
  have entered := Analysis.functions_mapM_collect decls resolved
  rw [collecting] at entered
  have holds : known closed.symbols.functions := by
    simp only [Session.entered, typed] at declared
    rw [show closed.symbols.functions = _ from entered, same]
    exact declared
  have start : Analysis.KnowsTypes (closed.symbols.types = ·) closed := rfl
  have types : closed.symbols.types = analysis.symbols.types :=
    (Keeps.mapM (fun decl => Analysis.keepsTypes_checkBody decl) signatures).of_eq_ok start checking
  have lattices : closed.symbols.types.lattice = analysis.symbols.types.lattice := by rw [types]
  exact (mapM_eq_ok (fun _ _ {_ _ _} => Analysis.checkBody_bound kept) ⟨lattices, holds⟩ checking).2

/-- What was declared before, and what a unit enters, meets all restrictions when the bodies of the unit are checked. -/
theorem Declared.meetsSources {session : Session} {declared : List FunctionDecl} (history : session.Declared declared) :
    session.symbols.functions.MeetsSources session.symbols.types.lattice declared := by
  induction history with
  | initial => exact ⟨FunctionTable.keyed_empty, FunctionTable.every_empty _⟩
  | @add session declared before unit ih =>
    have reachable := before.reachable
    have later := (Reachable.add reachable unit).meant
    have grown := (symbols_extends_addUnit session unit).types.nodes
    refine keeps_addUnit (FunctionTable.MeetsSources.keptByCalls later _) ?_
    exact ih.foldl_insert reachable.meant.resolved later.resolved grown

/-- **How arguments come to stand where a placeholder is restricted.** Every call of an accepted unit is bound to an
overload that is made from a declared function of its key. Where a parameter of that function is exactly a placeholder
restricted to a group, the argument is of a type with a way up to the group; or the overload still has a placeholder
there and the argument is of one, whatever restricts it; or the overload has a member of the group there to which
values of all kinds conform: `Nil` for a nullable argument, `Any`, or a name that was never resolved. -/
theorem addUnit_keepsRestrictions {session after : Session} {declared : List FunctionDecl}
    (history : session.Declared declared) {unit annotated : SourceUnit}
    (accepted : session.addUnit unit = (.ok annotated, after)) :
    ∀ decl ∈ annotated.declarations, ∀ call ∈ decl.calls,
      call.KeepsRestrictions after.symbols.types.lattice (declared ++ session.entered unit) := by
  have stepped : (session.addUnit unit).2 = after := by rw [accepted]
  have meant := history.reachable.meant
  have later := stepped ▸ (Reachable.add history.reachable unit).meant
  have grown := stepped ▸ (symbols_extends_addUnit session unit).types.nodes
  intro decl mem call inside
  have kept := FunctionTable.MeetsSources.keptByCalls later (declared ++ session.entered unit)
  have bound := bound_addUnit accepted kept
    (history.meetsSources.foldl_insert meant.resolved later.resolved grown) decl mem call inside
  exact bound.keepsRestrictions later

/-! ## A restriction that is not looked at -/

/-- A function of one parameter that returns nothing. -/
private def taking (name param : String) (written : String) (generics : List GenericParam) (body : List Stmt) :
    FunctionDecl where
  signature := [⟨name, .nowhere⟩]
  affix := .after
  returnType := .void
  params := [⟨⟨param, .nowhere⟩, Ty.written written [], false⟩]
  body := body
  generics := generics
  origin := ""
  location := .nowhere

/-- A call of `feed` with a variable. -/
private def feeding (name : String) : Stmt :=
  .call ⟨[⟨"feed", .nowhere⟩], .after, [.mk (.variable ⟨name, .nowhere⟩) none .nowhere], none⟩ .nowhere

/-- A function that takes animals only, and one that calls it with anything. -/
def feedUnit : SourceUnit where
  filename := "feed.pine"
  content := ""
  declarations :=
    [.group ⟨⟨"Animal", .nowhere⟩, "", .nowhere⟩,
      .function (taking "feed" "x" "T"
        [⟨⟨"T", .nowhere⟩, some (Ty.written "Animal" [])⟩] []),
      .function (taking "spoil" "thing" "U" [] [feeding "thing"])]

/-- An animal, and a function that feeds it. -/
def catUnit : SourceUnit where
  filename := "cat.pine"
  content := ""
  declarations :=
    [.struct ⟨⟨"Cat", .nowhere⟩, [], [], "", .nowhere⟩,
      .binding ⟨Ty.written "Cat" [], Ty.written "Animal" [], "", .nowhere⟩,
      .function (taking "keep" "cat" "Cat" [] [feeding "cat"])]

theorem accepts_catUnit :
    ∃ annotated after, (initial.addUnit feedUnit).2.addUnit catUnit = (.ok annotated, after) :=
  exists_accepted (by decide +kernel)

theorem catUnit_keepsRestrictions :
    ∃ annotated after, Declared (initial.addUnit feedUnit).2 ([] ++ initial.entered feedUnit) ∧
      (initial.addUnit feedUnit).2.addUnit catUnit = (.ok annotated, after) ∧
      ∀ decl ∈ annotated.declarations, ∀ call ∈ decl.calls, call.KeepsRestrictions after.symbols.types.lattice
        ([] ++ initial.entered feedUnit ++ (initial.addUnit feedUnit).2.entered catUnit) := by
  obtain ⟨annotated, after, accepted⟩ := accepts_catUnit
  have history : Declared (initial.addUnit feedUnit).2 ([] ++ initial.entered feedUnit) := .add .initial feedUnit
  exact ⟨annotated, after, history, accepted, addUnit_keepsRestrictions history accepted⟩

/-- **An argument may stand where a restriction excludes it.** The thing that `spoil` passes to `feed` is of a
placeholder that nothing restricts. It equals the placeholder of `feed`, so the call is bound to `feed` as it is. -/
theorem exists_argument_unrestricted :
    ∃ annotated after, initial.addUnit feedUnit = (.ok annotated, after) ∧
      ∃ feed spoil generic, .function feed ∈ annotated.declarations ∧ .function spoil ∈ annotated.declarations ∧
        feed.Restricts generic "Animal" 0 ∧ (∀ own ∈ spoil.generics, own.constraint = none) ∧
        ∃ call ∈ Stmt.allCalls spoil.body, ∃ actual, call.key = feed.key ∧
          call.resolved = some ⟨feed.paramTypes, feed.returnType⟩ ∧ call.args.map Expr.ty = [some actual] ∧
          actual.head = .generic "U" ∧ after.symbols.types.lattice.distance actual (.group "Animal") = none := by
  refine ⟨_, _, rfl, _, _, _, List.mem_cons_of_mem _ List.mem_cons_self,
    List.mem_cons_of_mem _ (List.mem_cons_of_mem _ List.mem_cons_self), ⟨List.mem_cons_self, ⟨_, rfl⟩, _, rfl⟩, ?_, _,
    List.mem_cons_self, _, rfl, rfl, rfl, rfl, rfl⟩
  intro own mem
  cases List.mem_singleton.mp mem
  rfl

end Session

end DeclCheck
