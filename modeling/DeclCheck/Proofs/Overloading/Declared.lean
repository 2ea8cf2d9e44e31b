import DeclCheck.Proofs.Overloading.Persistence
import Mathlib.Data.List.Find

/-!
# Declared overloads

What units declare and what calls specialise share the groups of the function table, and neither is entered beside an
equal overload. So the fate of a declaration depends on all that was entered before it. Of what is declared the first
of equal overloads is entered, and calls with its parameter types are bound to it from then on. What calls have
specialised before comes first too: a declaration that equals a specialisation is not entered, and calls with its
parameter types are bound to the specialisation, whatever that returns.

Only calls with the very parameter types of a declaration are looked at. To which overload other arguments lead is a
matter of costs, and not said here.
-/

namespace DeclCheck

/-! ## What a unit enters -/

/-- The function that a declaration declares. -/
def Decl.function? : Decl → Option FunctionDecl
  | .function decl => some decl
  | _ => none

/-- The functions that a unit declares, in order. -/
def SourceUnit.functions (unit : SourceUnit) : List FunctionDecl := unit.declarations.filterMap Decl.function?

namespace FunctionDecl

/-- A function without what it does. -/
def withoutBody (decl : FunctionDecl) : FunctionDecl := { decl with body := [] }

@[simp] theorem key_withoutBody (decl : FunctionDecl) : decl.withoutBody.key = decl.key := rfl

@[simp] theorem paramTypes_withoutBody (decl : FunctionDecl) : decl.withoutBody.paramTypes = decl.paramTypes := rfl

/-- Bodies take no part in what makes two overloads equal. -/
theorem sameOverload_congr {first second one two : FunctionDecl} (left : first.withoutBody = second.withoutBody)
    (right : one.withoutBody = two.withoutBody) : first.sameOverload one = second.sameOverload two := by
  have keys := congrArg FunctionDecl.key left
  have types := congrArg FunctionDecl.paramTypes left
  have otherKeys := congrArg FunctionDecl.key right
  have otherTypes := congrArg FunctionDecl.paramTypes right
  simp only [key_withoutBody, paramTypes_withoutBody] at keys types otherKeys otherTypes
  simp only [sameOverload, keys, types, otherKeys, otherTypes]

end FunctionDecl

namespace Analysis

/-- The passes before the fourth. -/
def typePasses (decls : List Decl) : Pass (List Decl) := do
  decls.forM registerName
  let decls ← decls.mapM bindGroup
  decls.mapM resolveMembers

/-- The functions among declarations with their signatures closed, up to the first that does not close. -/
def closedFunctions (types : TypeTable) : List Decl → List FunctionDecl
  | [] => []
  | .function decl :: rest =>
    match decl.close types with
    | .ok closed => closed :: closedFunctions types rest
    | .error _ => []
  | _ :: rest => closedFunctions types rest

/-- A check is the passes over types, the collection of functions and the check of bodies. -/
theorem declarations_eq (decls : List Decl) :
    declarations decls =
      typePasses decls >>= fun decls => decls.mapM collect >>= fun decls => decls.mapM checkBody := by
  simp only [declarations, typePasses, bind_assoc]

/-- The passes over types do not touch the functions. -/
theorem keeps_typePasses {known : FunctionTable → Prop} (decls : List Decl) :
    Keeps (Knows known) (typePasses decls) := by
  refine Keeps.bind (Keeps.forM keeps_registerName _) fun _ => ?_
  exact Keeps.bind (Keeps.mapM keeps_bindGroup _) fun _ => Keeps.mapM keeps_resolveMembers _

/-- **The fourth pass enters functions in order**, whether it comes to its end or not. -/
theorem functions_mapM_collect (decls : List Decl) (analysis : Analysis) :
    (stateAfter (decls.mapM collect analysis)).symbols.functions =
      (closedFunctions analysis.symbols.types decls).foldl .insert analysis.symbols.functions := by
  induction decls generalizing analysis with
  | nil => rfl
  | cons decl rest ih =>
    rw [List.mapM_cons]
    cases decl with
    | function decl =>
      cases closing : decl.close analysis.symbols.types with
      | error error =>
        rw [stateAfter_bind_of_error (collect_of_close_error closing)]
        simp only [closedFunctions, closing, List.foldl_nil]
      | ok closed =>
        rw [stateAfter_bind_of_ok (collect_of_close closing), stateAfter_bind_pure, ih]
        simp only [closedFunctions, closing, List.foldl_cons]
    | struct | enum | group | binding | exampleBlock | importing =>
      refine Eq.trans ?_ (ih analysis)
      exact congrArg (·.symbols.functions) (stateAfter_bind_pure (rest.mapM collect) (List.cons _) analysis)

/-- The functions that the fourth pass enters are those of its result. -/
theorem closedFunctions_eq_filterMap {decls results : List Decl} {before after : Analysis}
    (reached : decls.mapM collect before = .ok results after) :
    closedFunctions before.symbols.types decls = results.filterMap Decl.function? := by
  induction decls generalizing before results with
  | nil =>
    cases reached
    rfl
  | cons decl rest ih =>
    rw [List.mapM_cons] at reached
    obtain ⟨first, between, stepped, later⟩ := step_bind_eq_ok.mp reached
    obtain ⟨others, ended, steppedRest, made⟩ := step_bind_eq_ok.mp later
    cases made
    cases decl with
    | function decl =>
      obtain ⟨closed, closing, rfl, rfl⟩ := collect_function_eq_ok stepped
      simp only [closedFunctions, closing, List.filterMap_cons, Decl.function?]
      rw [← ih steppedRest]
    | struct | enum | group | binding | exampleBlock | importing =>
      cases stepped
      simpa only [closedFunctions, List.filterMap_cons, Decl.function?] using ih steppedRest

/-- The fifth pass changes bodies only. -/
theorem withoutBody_checkBody {decl result : Decl} {before after : Analysis}
    (reached : checkBody decl before = .ok result after) :
    result.function?.map FunctionDecl.withoutBody = decl.function?.map FunctionDecl.withoutBody := by
  cases decl with
  | function decl =>
    obtain ⟨body, _, _, _, rfl, -⟩ := checkBody_function_eq_ok reached
    rfl
  | exampleBlock decl =>
    obtain ⟨body, _, _, _, rfl, -⟩ := checkBody_example_eq_ok reached
    rfl
  | struct | enum | group | binding | importing =>
    cases reached
    rfl

end Analysis

namespace Session

/-- **The functions that the check of a unit comes to enter**, with their signatures closed. -/
def entered (session : Session) (unit : SourceUnit) : List FunctionDecl :=
  match Analysis.typePasses unit.withOrigins.declarations (.start session.symbols) with
  | .ok decls analysis => Analysis.closedFunctions analysis.symbols.types decls
  | .error _ _ => []

/-- **What the check of a unit does to the function table**: what the unit declares is entered first, and then calls
may add to it, all in the lattice after the unit. -/
theorem keeps_addUnit {known : FunctionTable → Prop} {session : Session} {unit : SourceUnit}
    (calls : Check.KeptByCalls (session.addUnit unit).2.symbols.types.lattice known)
    (declared : known ((session.entered unit).foldl .insert session.symbols.functions)) :
    known (session.addUnit unit).2.symbols.functions := by
  rw [symbols_addUnit, Analysis.declarations_eq] at calls ⊢
  have before : Analysis.Knows (· = session.symbols.functions) (.start session.symbols) := rfl
  have kept := Analysis.keeps_typePasses unit.withOrigins.declarations _ before
  cases typed : Analysis.typePasses unit.withOrigins.declarations (.start session.symbols) with
  | error error analysis =>
    rw [typed] at kept
    rw [stateAfter_bind_of_error typed, show analysis.symbols.functions = session.symbols.functions from kept]
    simpa only [entered, typed, List.foldl_nil] using declared
  | ok decls analysis =>
    rw [typed] at kept
    have same : analysis.symbols.functions = session.symbols.functions := kept
    have collected := Analysis.functions_mapM_collect decls analysis
    simp only [entered, typed, ← same, ← collected] at declared
    rw [stateAfter_bind_of_ok typed] at calls ⊢
    cases collecting : decls.mapM Analysis.collect analysis with
    | error error stopped =>
      rw [collecting] at declared
      rw [stateAfter_bind_of_error collecting]
      exact declared
    | ok signatures reached =>
      rw [collecting] at declared
      rw [stateAfter_bind_of_ok collecting] at calls ⊢
      have types : (stateAfter (signatures.mapM Analysis.checkBody reached)).symbols.types = reached.symbols.types :=
        Keeps.mapM (fun decl => Analysis.keepsTypes_checkBody decl) signatures reached
          (show Analysis.KnowsTypes (· = reached.symbols.types) reached from rfl)
      rw [types] at calls
      exact (Keeps.mapM (Analysis.keeps_checkBody_at calls) signatures reached ⟨rfl, declared⟩).2

/-- The functions of an accepted unit are those that its check entered, with their bodies checked. -/
theorem withoutBody_functions {session after : Session} {unit annotated : SourceUnit}
    (accepted : session.addUnit unit = (.ok annotated, after)) :
    annotated.functions.map FunctionDecl.withoutBody =
      (session.entered unit).map FunctionDecl.withoutBody := by
  obtain ⟨analysis, checked, -⟩ := addUnit_eq_ok accepted
  rw [Analysis.declarations_eq] at checked
  obtain ⟨decls, resolved, typed, next⟩ := step_bind_eq_ok.mp checked
  obtain ⟨signatures, closed, collecting, checking⟩ := step_bind_eq_ok.mp next
  have bodies := map_eq_of_mapM (fun decl {_ _ _} reached => Analysis.withoutBody_checkBody reached) checking
  simp only [entered, typed, Analysis.closedFunctions_eq_filterMap collecting, SourceUnit.functions,
    List.map_filterMap]
  have all := congrArg (List.filterMap id) bodies
  simpa only [List.filterMap_map, Function.comp_def, id] using all

end Session

/-! ## Insertions one after another -/

namespace FunctionTable

variable {functions : FunctionTable}

/-- Entering functions lets a table grow. -/
theorem Extends.foldl_insert (functions : FunctionTable) (decls : List FunctionDecl) :
    functions.Extends (decls.foldl .insert functions) := by
  have all : ∀ {table : FunctionTable}, functions.Extends table → functions.Extends (decls.foldl .insert table) := by
    induction decls with
    | nil => exact fun grown => grown
    | cons decl rest ih => exact fun grown => ih (grown.insert decl)
  exact all (.refl functions)

/-- What holds of all entries and of all that are entered holds of all then. -/
theorem Every.foldl_insert {property : FunctionKey → FunctionDecl → Prop} (every : functions.Every property)
    {decls : List FunctionDecl} (new : ∀ decl ∈ decls, property decl.key decl) :
    (decls.foldl .insert functions).Every property := by
  induction decls generalizing functions with
  | nil => exact every
  | cons decl rest ih =>
    exact ih (every.insert (new decl List.mem_cons_self)) fun other mem => new other (List.mem_cons_of_mem _ mem)

/-- What is listed then was listed before or was entered. -/
theorem mem_overloads_foldl_insert {decls : List FunctionDecl} {key : FunctionKey} {decl : FunctionDecl}
    (mem : decl ∈ (decls.foldl .insert functions).overloads key) :
    decl ∈ functions.overloads key ∨ decl ∈ decls := by
  induction decls generalizing functions with
  | nil => exact Or.inl mem
  | cons first rest ih =>
    rcases ih mem with old | later
    · rw [overloads_insert] at old
      split at old
      · rcases List.mem_append.mp old with older | last
        · exact Or.inl older
        · exact Or.inr (List.mem_cons.mpr (Or.inl (List.mem_singleton.mp last)))
      · exact Or.inl old
    · exact Or.inr (List.mem_cons_of_mem _ later)

/-- **The first of equal overloads is entered**, and it is the first of its group that equals it. -/
theorem find?_foldl_insert {earlier : List FunctionDecl} (later : List FunctionDecl) {decl : FunctionDecl}
    (new : ∀ other ∈ functions.overloads decl.key ++ earlier, other.sameOverload decl = false) :
    (((earlier ++ decl :: later).foldl .insert functions).overloads decl.key).find? (·.sameOverload decl) =
      some decl := by
  rw [List.foldl_append, List.foldl_cons]
  have absent : ∀ other ∈ (earlier.foldl .insert functions).overloads decl.key, ¬ other.sameOverload decl = true := by
    intro other mem same
    rw [new other (List.mem_append.mpr (mem_overloads_foldl_insert mem))] at same
    cases same
  have entered : ((earlier.foldl .insert functions).insert decl).overloads decl.key =
      (earlier.foldl .insert functions).overloads decl.key ++ [decl] := by
    rw [overloads_insert, if_pos]
    exact ⟨rfl, fun there => by
      obtain ⟨other, mem, same⟩ := List.any_eq_true.mp there
      exact absent other mem same⟩
  refine (Extends.foldl_insert _ later decl.key).find?_eq_some ?_
  rw [entered, List.find?_append, List.find?_eq_none.mpr absent, Option.none_or]
  exact List.find?_cons_of_pos decl.sameOverload_self

/-- Among the overloads of its own key, those that equal a declaration are those that match its parameter types. -/
theorem find?_matchesExactly (keyed : functions.Keyed) (decl : FunctionDecl) :
    (functions.overloads decl.key).find? (·.matchesExactly decl.paramTypes) =
      (functions.overloads decl.key).find? (·.sameOverload decl) := by
  refine List.find?_congr fun other mem => ?_
  simp only [FunctionDecl.sameOverload, FunctionDecl.matchesExactly, keyed.of_mem mem, beq_self_eq_true,
    Bool.true_and]

end FunctionTable

/-! ## Where overloads come from -/

/-- **Whether an overload comes from declared ones**: it is one of them, or it was specialised, to the arguments of
some call, from a generic overload that comes from them. -/
inductive FunctionDecl.MadeFrom (declared : List FunctionDecl) : FunctionDecl → Prop
  | declared {decl : FunctionDecl} (mem : decl ∈ declared) : MadeFrom declared decl
  | specialised {generic decl : FunctionDecl} {lattice : Lattice} {actuals : List Ty}
      (made : MadeFrom declared generic) (isGeneric : generic.isGeneric = true)
      (special : Overloading.specialise lattice generic actuals = .ok decl) : MadeFrom declared decl

/-- What is made from some functions is made from more of them. -/
theorem FunctionDecl.MadeFrom.mono {declared more : List FunctionDecl} (subset : declared ⊆ more)
    {decl : FunctionDecl} (made : decl.MadeFrom declared) : decl.MadeFrom more := by
  induction made with
  | declared mem => exact .declared (subset mem)
  | specialised _ isGeneric special ih => exact .specialised ih isGeneric special

namespace Session

/-- **The states of a session with what was declared on the way**: all functions that its units, accepted or not, came
to enter, in order. -/
inductive Declared : Session → List FunctionDecl → Prop
  | initial : Declared .initial []
  | add {session : Session} {declared : List FunctionDecl} (before : Declared session declared) (unit : SourceUnit) :
      Declared (session.addUnit unit).2 (declared ++ session.entered unit)

/-- A session with a history of declarations is in one of its states. -/
theorem Declared.reachable {session : Session} {declared : List FunctionDecl} (history : session.Declared declared) :
    session.Reachable := by
  induction history with
  | initial => exact .initial
  | add _ unit ih => exact .add ih unit

/-- **Every overload of a session comes from what was declared.** -/
theorem Declared.madeFrom {session : Session} {declared : List FunctionDecl} (history : session.Declared declared) :
    session.symbols.functions.Every fun _ decl => decl.MadeFrom declared := by
  induction history with
  | initial => exact FunctionTable.every_empty _
  | @add session declared before unit ih =>
    refine keeps_addUnit ?_ ?_
    · intro functions key signature actuals location decl after every bound
      rcases Overloading.resolve_listed_or_specialised bound with ⟨-, rfl⟩ | ⟨generic, there, isGeneric, special, rfl⟩
      · exact every
      · exact every.insert (.specialised (every.of_mem there) isGeneric special)
    · have earlier : session.symbols.functions.Every
          fun _ decl => decl.MadeFrom (declared ++ session.entered unit) :=
        fun key group decl mem => (ih key group decl mem).mono (List.subset_append_left _ _)
      exact earlier.foldl_insert fun decl mem => .declared (List.mem_append_right _ mem)

/-- A call with the parameter types of a declaration is bound to the first overload that equals the declaration. -/
theorem resolve_of_sameOverload {session : Session} (reachable : session.Reachable) {decl found : FunctionDecl}
    (first : (session.symbols.functions.overloads decl.key).find? (·.sameOverload decl) = some found)
    (signature : String) (location : Location) :
    Overloading.resolve session.symbols.types.lattice session.symbols.functions decl.key signature decl.paramTypes
      location = .ok (found, session.symbols.functions) := by
  apply Overloading.resolve_of_find?
  rw [FunctionTable.find?_matchesExactly reachable.keyed]
  exact first

/-- **The first of equal functions is what calls with its parameter types are bound to** after the unit that enters it,
accepted or not. -/
theorem resolve_of_entered {session : Session} (reachable : session.Reachable) {unit : SourceUnit}
    {earlier later : List FunctionDecl} {decl : FunctionDecl}
    (entered : session.entered unit = earlier ++ decl :: later)
    (new : ∀ other ∈ session.symbols.functions.overloads decl.key ++ earlier, other.sameOverload decl = false)
    (signature : String) (location : Location) :
    Overloading.resolve (session.addUnit unit).2.symbols.types.lattice (session.addUnit unit).2.symbols.functions
      decl.key signature decl.paramTypes location = .ok (decl, (session.addUnit unit).2.symbols.functions) := by
  have grown : ((session.entered unit).foldl .insert session.symbols.functions).Extends
      (session.addUnit unit).2.symbols.functions :=
    keeps_addUnit (FunctionTable.Extends.keptByCalls _ _) (.refl _)
  rw [entered] at grown
  have first := FunctionTable.find?_foldl_insert later new
  exact resolve_of_sameOverload (.add reachable unit) ((grown decl.key).find?_eq_some first) signature location

/-- Each function of an accepted unit was entered, after the functions before it. -/
theorem exists_entered {session after : Session} {unit annotated : SourceUnit}
    (accepted : session.addUnit unit = (.ok annotated, after)) {earlier later : List FunctionDecl}
    {decl : FunctionDecl} (listed : annotated.functions = earlier ++ decl :: later) :
    ∃ before entered rest, session.entered unit = before ++ entered :: rest ∧
      entered.withoutBody = decl.withoutBody ∧
      ∀ other ∈ before, ∃ source ∈ earlier, source.withoutBody = other.withoutBody := by
  have bodies := withoutBody_functions accepted
  rw [listed, List.map_append, List.map_cons] at bodies
  obtain ⟨before, _, split, same, cut⟩ := List.map_eq_append_iff.mp bodies.symm
  obtain ⟨entered, rest, rfl, own, -⟩ := List.map_eq_cons_iff.mp cut
  refine ⟨before, entered, rest, split, own, fun other mem => ?_⟩
  have there : other.withoutBody ∈ before.map FunctionDecl.withoutBody := List.mem_map_of_mem mem
  rw [same] at there
  exact List.mem_map.mp there

/-- **What a call with the parameter types of a declared function is bound to.** Let a function of an accepted unit
equal no function declared before it, in earlier units or in its own. If calls of earlier units have left no equal
overload either, the call is bound to the function. Otherwise it is bound to the first overload that they left, which
is a specialisation. -/
theorem addUnit_bindsDeclared {session after : Session} {declared : List FunctionDecl}
    (history : session.Declared declared) {unit annotated : SourceUnit}
    (accepted : session.addUnit unit = (.ok annotated, after)) {earlier later : List FunctionDecl}
    {decl : FunctionDecl} (listed : annotated.functions = earlier ++ decl :: later)
    (new : ∀ other ∈ declared ++ earlier, other.sameOverload decl = false) (signature : String)
    (location : Location) :
    ((session.symbols.functions.overloads decl.key).find? (·.sameOverload decl) = none →
        ∃ entered, entered = { decl with body := entered.body } ∧
          Overloading.resolve after.symbols.types.lattice after.symbols.functions decl.key signature
            decl.paramTypes location = .ok (entered, after.symbols.functions)) ∧
      ∀ left, (session.symbols.functions.overloads decl.key).find? (·.sameOverload decl) = some left →
        (∃ generic lattice actuals, generic.MadeFrom declared ∧ generic.isGeneric = true ∧
          Overloading.specialise lattice generic actuals = .ok left) ∧
        Overloading.resolve after.symbols.types.lattice after.symbols.functions decl.key signature
          decl.paramTypes location = .ok (left, after.symbols.functions) := by
  have stepped : (session.addUnit unit).2 = after := by rw [accepted]
  constructor
  · intro absent
    obtain ⟨before, entered, rest, split, own, sources⟩ := exists_entered accepted listed
    have key := congrArg FunctionDecl.key own
    have types := congrArg FunctionDecl.paramTypes own
    simp only [FunctionDecl.key_withoutBody, FunctionDecl.paramTypes_withoutBody] at key types
    have fresh : ∀ other ∈ session.symbols.functions.overloads entered.key ++ before,
        other.sameOverload entered = false := by
      intro other mem
      rcases List.mem_append.mp mem with old | mem
      · rw [key] at old
        rw [FunctionDecl.sameOverload_congr rfl own]
        exact Bool.eq_false_iff.mpr (List.find?_eq_none.mp absent other old)
      · obtain ⟨source, there, same⟩ := sources other mem
        rw [FunctionDecl.sameOverload_congr same.symm own]
        exact new source (List.mem_append_right _ there)
    have bound := resolve_of_entered history.reachable split fresh signature location
    rw [stepped, key, types] at bound
    exact ⟨entered, congrArg (fun other => { other with body := entered.body }) own, bound⟩
  · intro left first
    constructor
    · cases history.madeFrom.of_mem (List.mem_of_find?_eq_some first) with
      | declared mem =>
        have same : left.sameOverload decl = true := by simpa using List.find?_some first
        rw [new left (List.mem_append_left _ mem)] at same
        cases same
      | specialised made isGeneric special => exact ⟨_, _, _, made, isGeneric, special⟩
    · have still := ((symbols_extends_addUnit session unit).functions decl.key).find?_eq_some first
      have bound := resolve_of_sameOverload (.add history.reachable unit) still signature location
      rw [stepped] at bound
      exact bound

/-- A function of one parameter that returns a value. -/
private def giving (name param result : String) (value : ExprKind) : FunctionDecl where
  signature := [⟨name, .nowhere⟩]
  affix := .after
  returnType := Ty.written result []
  params := [⟨⟨"x", .nowhere⟩, Ty.written param [], false⟩]
  body := [.returns (some (.mk value none .nowhere)) .nowhere]
  generics := []
  origin := ""
  location := .nowhere

/-- A generic function, and a call of it with an integer. -/
def specialisingUnit : SourceUnit where
  filename := "same.pine"
  content := ""
  declarations :=
    [.function (giving "same" "T" "T" (.variable ⟨"x", .nowhere⟩)),
      .function (giving "copy" "Integer" "Integer"
        (.call ⟨[⟨"same", .nowhere⟩], .after, [.mk (.variable ⟨"x", .nowhere⟩) none .nowhere], none⟩))]

/-- Two more functions of the name, one of them of an integer. -/
def overloadingUnit : SourceUnit where
  filename := "more.pine"
  content := ""
  declarations :=
    [.function (giving "same" "Integer" "String" (.string "one")),
      .function (giving "same" "String" "Integer" (.number "1"))]

/-- The function of a text equals nothing that came before, and calls with a text are bound to it. -/
theorem overloadingUnit_bindsDeclared :
    let session := (initial.addUnit specialisingUnit).2
    ∃ declared annotated after earlier decl entered, session.Declared declared ∧
      session.addUnit overloadingUnit = (.ok annotated, after) ∧ annotated.functions = earlier ++ [decl] ∧
      (∀ other ∈ declared ++ earlier, other.sameOverload decl = false) ∧
      (session.symbols.functions.overloads decl.key).find? (·.sameOverload decl) = none ∧
      entered = { decl with body := entered.body } ∧
      Overloading.resolve after.symbols.types.lattice after.symbols.functions decl.key "_ same" decl.paramTypes
        .nowhere = .ok (entered, after.symbols.functions) := by
  intro session
  have history : session.Declared ([] ++ initial.entered specialisingUnit) := .add .initial specialisingUnit
  have accepted : ∃ annotated after, session.addUnit overloadingUnit = (.ok annotated, after) ∧
      ∃ earlier decl, annotated.functions = earlier ++ [decl] ∧
        (∀ other ∈ [] ++ initial.entered specialisingUnit ++ earlier, other.sameOverload decl = false) ∧
        (session.symbols.functions.overloads decl.key).find? (·.sameOverload decl) = none :=
    ⟨_, _, rfl, [_], _, rfl, by decide, rfl⟩
  obtain ⟨annotated, after, accepted, earlier, decl, listed, new, absent⟩ := accepted
  obtain ⟨entered, only, bound⟩ :=
    (addUnit_bindsDeclared history accepted listed new "_ same" .nowhere).1 absent
  exact ⟨_, annotated, after, earlier, decl, entered, history, accepted, listed, new, absent, only, bound⟩

/-- **A declared overload can be lost.** The call in the first unit leaves a specialisation of `same` to integers. The
function of an integer that the second unit declares is therefore not entered, and calls with an integer return an
integer, not the text that this function returns. -/
theorem exists_declared_lost :
    ∃ session declared annotated after decl later bound, Declared session declared ∧
      session.addUnit overloadingUnit = (.ok annotated, after) ∧ annotated.functions = decl :: later ∧
      decl.isGeneric = false ∧ (∀ other ∈ declared, other.sameOverload decl = false) ∧
      Overloading.resolve after.symbols.types.lattice after.symbols.functions decl.key "_ same" decl.paramTypes
        .nowhere = .ok (bound, after.symbols.functions) ∧
      decl.returnType = .builtin .string ∧ bound.returnType = .builtin .integer :=
  ⟨(initial.addUnit specialisingUnit).2, _, _, _, _, _, _, .add .initial specialisingUnit, rfl, rfl, rfl,
    by decide, rfl, rfl, rfl⟩

end Session

end DeclCheck
