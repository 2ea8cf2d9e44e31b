import DeclCheck.Proofs.Locations.Walk
import DeclCheck.Proofs.Overloading.Declared
import DeclCheck.Session

/-!
# Locations and slots decide nothing

Two sessions may know the same functions from different files, with different bodies and written at different
places, and two units may differ in where their parts stand and in what an earlier check left in their slots. This
module shows that a session cannot tell such units apart, nor a unit such sessions: the answers are the same but for
locations, and so are the tables afterwards.

The passes over a unit mirror themselves, as the walks do, with one exception. A function is collected with its body,
while an outline has none. So it is the check that collects outlines which mirrors the check of a unit.

Rendered errors are not compared. They show the source at a location, and differ where locations do.
-/

namespace DeclCheck

/-- The tables without places and without the bodies of functions. -/
def Symbols.unplaced (symbols : Symbols) : Symbols := ⟨symbols.types.unplaced, symbols.functions.outline⟩

/-- The places and the slots of a function do not matter when its signature is closed. -/
theorem FunctionDecl.close_emptied (types : TypeTable) (decl : FunctionDecl) :
    (decl.unplaced .emptied).close types.unplaced = unplacing (FunctionDecl.unplaced .emptied) (decl.close types) := by
  rw [FunctionDecl.unplaced, FunctionDecl.close_unplaced]
  cases closing : decl.close types with
  | error error => rfl
  | ok closed =>
    obtain ⟨_, _, _, -, -, -, rfl, -⟩ := FunctionDecl.close_eq_ok closing
    rfl

namespace Analysis

/-- What a check has reached, without places and without the bodies of functions. -/
def unplaced (analysis : Analysis) : Analysis :=
  ⟨analysis.symbols.unplaced, analysis.generics, analysis.scopes.unplaced⟩

section

variable {α β : Type} {change : α → β}

/-- A step on the type tables is mirrored by its image. -/
theorem mirrors_onTypes {step : TypeTable → Except Error (α × TypeTable)}
    {image : TypeTable → Except Error (β × TypeTable)}
    (same : ∀ types, image types.unplaced = unplacing (Prod.map change TypeTable.unplaced) (step types)) :
    Mirrors unplaced change (onTypes image) (onTypes step) := by
  intro analysis
  have stepped : image analysis.unplaced.symbols.types = _ := same analysis.symbols.types
  rw [onTypes_apply, onTypes_apply, stepped]
  cases step analysis.symbols.types with
  | error error => rfl
  | ok found => rfl

/-- Entering a name into the type tables. -/
theorem mirrors_register {register image : TypeTable → Except Error TypeTable}
    (same : ∀ types, image types.unplaced = unplacing TypeTable.unplaced (register types)) :
    Mirrors unplaced id (onTypes fun types => (image types).map (((), ·)))
      (onTypes fun types => (register types).map (((), ·))) := by
  refine mirrors_onTypes fun types => ?_
  rw [same types]
  cases register types with
  | error error => rfl
  | ok entered => rfl

/-- A walk is mirrored by that of the image. -/
theorem mirrors_walk (change : α → β) (generics : List String) (scopes : Scopes) {body : Env → Check α}
    {image : Env → Check β}
    (same : ∀ env, Mirrors BodyState.unplaced change (image env.unplaced) (body env)) :
    Mirrors unplaced (Prod.map change (List.map unplacedReturn)) (walk generics scopes.unplaced image)
      (walk generics scopes body) := by
  intro analysis
  let env : Env := ⟨analysis.symbols.types, generics⟩
  have walked := same env ⟨analysis.symbols.functions, scopes, []⟩
  have started : image ⟨analysis.unplaced.symbols.types, generics⟩
      ⟨analysis.unplaced.symbols.functions, scopes.unplaced, []⟩ = _ := walked
  simp only [walk, started]
  cases body env ⟨analysis.symbols.functions, scopes, []⟩ with
  | error error state => rfl
  | ok value state => rfl

end

/-! ## The passes -/

/-- The first pass registers the same names. -/
theorem mirrors_registerName (decl : Decl) :
    Mirrors unplaced id (registerName (decl.unplaced .emptied)) (registerName decl) := by
  cases decl with
  | struct decl =>
    simp only [Decl.unplaced, registerName]
    exact mirrors_register fun types => types.registerStruct_unplaced decl
  | enum decl =>
    simp only [Decl.unplaced, registerName]
    exact mirrors_register fun types => types.registerEnum_unplaced decl
  | group decl =>
    simp only [Decl.unplaced, registerName]
    exact mirrors_register fun types => types.registerGroup_unplaced decl
  | function | binding | importing | exampleBlock => exact Mirrors.pure PUnit.unit

/-- A group binding binds the same types. -/
theorem bindTypes_unplaced (binding : GroupBinding) (types : TypeTable) :
    bindTypes binding.unplaced types.unplaced =
      unplacing (Prod.map GroupBinding.unplaced TypeTable.unplaced) (bindTypes binding types) := by
  refine unplacing_bind (types.resolve_unplaced [] binding.child) fun child => ?_
  refine unplacing_bind (types.resolve_unplaced [] binding.parent) fun parent => ?_
  cases parent with
  | app ctor args nullable => rfl
  | atom shape nullable =>
    cases shape with
    | group name =>
      have entered := types.bindGroup?_unplaced child (.atom (.group name) nullable)
      simp only [Ty.unplaced, Atom.unplaced] at entered ⊢
      rw [entered]
      cases types.bindGroup? child (.atom (.group name) nullable) with
      | none => rfl
      | some after => rfl
    | void | enum | generic => rfl

/-- So the second pass is mirrored. -/
theorem mirrors_bindGroup (decl : Decl) :
    Mirrors unplaced (Decl.unplaced .emptied) (bindGroup (decl.unplaced .emptied)) (bindGroup decl) := by
  cases decl with
  | binding binding =>
    exact Mirrors.bind (mirrors_onTypes (bindTypes_unplaced binding)) fun bound => Mirrors.pure _
  | function | struct | enum | group | importing | exampleBlock => exact Mirrors.pure _

/-- The third pass resolves the same members. -/
theorem mirrors_resolveMembers (decl : Decl) :
    Mirrors unplaced (Decl.unplaced .emptied) (resolveMembers (decl.unplaced .emptied)) (resolveMembers decl) := by
  cases decl with
  | struct decl =>
    rw [Decl.unplaced, resolveMembers, resolveMembers]
    refine mirrors_onTypes fun types => ?_
    refine unplacing_bind (types.resolveStruct_unplaced decl) fun resolved => ?_
    rw [types.updateStruct_unplaced resolved]
    rfl
  | function | binding | enum | group | importing | exampleBlock => exact Mirrors.pure _

/-- **Close a signature and enter its outline**, as `collect` enters the function with its body. -/
def collectOutline (decl : Decl) : Pass Decl :=
  match decl with
  | .function decl => do
    let analysis ← get
    match decl.close analysis.symbols.types with
    | .error error => throw error
    | .ok decl =>
      let functions := analysis.symbols.functions.insert { decl with body := [] }
      set { analysis with symbols := { analysis.symbols with functions } }
      return .function decl
  | _ => return decl

/-- The fourth pass enters outlines of the same functions. -/
theorem mirrors_collect (decl : Decl) :
    Mirrors unplaced (Decl.unplaced .emptied) (collectOutline (decl.unplaced .emptied)) (collect decl) := by
  cases decl with
  | function decl =>
    intro analysis
    have image : (decl.unplaced .emptied).close analysis.unplaced.symbols.types = _ :=
      decl.close_emptied analysis.symbols.types
    rw [Decl.unplaced, collectOutline, get_bind_apply, image]
    cases closing : decl.close analysis.symbols.types with
    | error error =>
      rw [collect_of_close_error closing]
      rfl
    | ok closed =>
      rw [collect_of_close closing]
      let entering (functions : FunctionTable) : EStateM.Result Error Analysis Decl :=
        .ok (.function (closed.unplaced .emptied))
          ⟨⟨analysis.symbols.types.unplaced, functions⟩, analysis.generics, analysis.scopes.unplaced⟩
      exact congrArg entering (analysis.symbols.functions.insert_outline closed)
  | struct | enum | group | binding | importing | exampleBlock => exact Mirrors.pure _

/-- Parameters are declared alike. -/
theorem mirrors_defineParams (params : List Param) :
    Mirrors BodyState.unplaced id (defineParams (params.map Param.unplaced)) (defineParams params) := by
  induction params with
  | nil => exact Mirrors.pure ()
  | cons param rest ih =>
    exact Mirrors.bind (Check.mirrors_define ⟨param.name.name, param.ty, param.mutable, param.name.location⟩)
      fun _ => ih

/-- Returned types are allowed wherever they are returned. -/
theorem checkReturns_unplaced (expected : Ty) (returns : List (Ty × Location)) :
    checkReturns expected.unplaced (returns.map unplacedReturn) = unplacing id (checkReturns expected returns) := by
  induction returns with
  | nil => rfl
  | cons entry rest ih =>
    simp only [List.map_cons, unplacedReturn, checkReturns, Ty.equals_unplaced, Ty.isNil_unplaced,
      Ty.nullable_unplaced]
    split
    · exact ih
    · rfl

/-- **The fifth pass fills bodies alike.** -/
theorem mirrors_checkBody (decl : Decl) :
    Mirrors unplaced (Decl.unplaced .kept) (checkBody (decl.unplaced .emptied)) (checkBody decl) := by
  cases decl with
  | function decl =>
    have names : (decl.unplaced .emptied).genericNames = decl.genericNames := FunctionDecl.genericNames_unplacedWith _ _
    simp only [Decl.unplaced, checkBody, names]
    refine Mirrors.bind (mirrors_walk (Stmt.allUnplaced .kept) decl.genericNames .empty fun env => ?_) fun found => ?_
    · exact Mirrors.bind (mirrors_defineParams decl.params) fun _ => Check.mirrors_block env decl.body
    · have returned : checkReturns (decl.unplaced .emptied).returnType (found.2.map unplacedReturn) = _ :=
        checkReturns_unplaced decl.returnType found.2
      simp only [Prod.map, returned]
      cases checkReturns decl.returnType found.2 with
      | error error => exact fun _ => rfl
      | ok _ => exact Mirrors.pure _
  | exampleBlock decl =>
    simp only [Decl.unplaced, checkBody]
    exact Mirrors.bind (mirrors_walk (Stmt.allUnplaced .kept) [] .empty fun env => Check.mirrors_block env decl.body)
      fun found => Mirrors.pure _
  | struct | enum | group | binding | importing => exact Mirrors.pure _

/-- **Check the declarations of a unit** and enter outlines only. -/
def outlineDeclarations (decls : List Decl) : Pass (List Decl) := do
  decls.forM registerName
  let decls ← decls.mapM bindGroup
  let decls ← decls.mapM resolveMembers
  let decls ← decls.mapM collectOutline
  decls.mapM checkBody

/-- **The check of a unit is mirrored by the check that enters outlines.** -/
theorem mirrors_declarations (decls : List Decl) :
    Mirrors unplaced (List.map (Decl.unplaced .kept)) (outlineDeclarations (decls.map (Decl.unplaced .emptied)))
      (declarations decls) := by
  refine Mirrors.bind (Mirrors.forM _ mirrors_registerName decls) fun _ => ?_
  refine Mirrors.bind (Mirrors.mapM _ _ mirrors_bindGroup decls) fun bound => ?_
  refine Mirrors.bind (Mirrors.mapM _ _ mirrors_resolveMembers bound) fun resolved => ?_
  refine Mirrors.bind (Mirrors.mapM _ _ mirrors_collect resolved) fun collected => ?_
  exact Mirrors.mapM _ _ mirrors_checkBody collected

/-- The check of a unit reaches the same, but for places, from tables that are the same but for places. -/
theorem declarations_alike {symbols others : Symbols} {decls twins : List Decl}
    (tables : symbols.unplaced = others.unplaced)
    (same : decls.map (Decl.unplaced .emptied) = twins.map (Decl.unplaced .emptied)) :
    unplacedResult unplaced (List.map (Decl.unplaced .kept)) (declarations decls (start symbols)) =
      unplacedResult unplaced (List.map (Decl.unplaced .kept)) (declarations twins (start others)) := by
  have started : (start symbols).unplaced = (start others).unplaced :=
    congrArg (fun known => Analysis.mk known [] Scopes.empty.unplaced) tables
  rw [← mirrors_declarations decls, ← mirrors_declarations twins, same, started]

end Analysis

/-! ## Units -/

/-- The diagnostic without a place. Its file stays. -/
def Diagnostic.unplaced (diagnostic : Diagnostic) : Diagnostic := { diagnostic with error := diagnostic.error.unplaced }

namespace Session

/-- **The session without places and without the bodies of functions.** -/
def unplaced (session : Session) : Session := { session with symbols := session.symbols.unplaced }

/-- **Whether two answers are the same but for places**: both are units with the same slots filled with the same
types, or both are diagnostics of the same problem in the same file. -/
def AnswersAlike : Except Diagnostic SourceUnit → Except Diagnostic SourceUnit → Prop
  | .ok annotated, .ok other => annotated.unplaced .kept = other.unplaced .kept
  | .error diagnostic, .error other => diagnostic.unplaced = other.unplaced
  | _, _ => False

/-- **Locations and slots decide nothing.** If two sessions differ in places and bodies of functions only, and two
units in places and in what their slots hold before the check, then the answers to the units are the same but for
places, and the sessions afterwards differ in places and bodies only. -/
theorem addUnit_alike {session other : Session} {unit twin : SourceUnit} (sessions : session.unplaced = other.unplaced)
    (units : unit.unplaced .emptied = twin.unplaced .emptied) :
    AnswersAlike (session.addUnit unit).1 (other.addUnit twin).1 ∧
      (session.addUnit unit).2.unplaced = (other.addUnit twin).2.unplaced := by
  obtain ⟨tables, checked⟩ := Session.mk.inj sessions
  obtain ⟨filename, content, -⟩ := SourceUnit.mk.inj units
  have origins : unit.withOrigins.unplaced .emptied = twin.withOrigins.unplaced .emptied := by
    rw [← SourceUnit.withOrigins_unplaced, units, SourceUnit.withOrigins_unplaced]
  obtain ⟨-, -, decls⟩ := SourceUnit.mk.inj origins
  rcases unplacedResult_eq (Analysis.declarations_alike tables decls) with
    ⟨results, reached, others, last, first, second, same, states⟩ |
    ⟨error, reached, problem, last, first, second, same, states⟩
  · have symbols : reached.symbols.unplaced = last.symbols.unplaced := (Analysis.mk.inj states).1
    simp only [addUnit, first, second]
    constructor
    · show SourceUnit.mk unit.filename unit.content (results.map _) = .mk twin.filename twin.content (others.map _)
      rw [filename, content, same]
    · show Session.mk reached.symbols.unplaced (session.checked ++ [unit.filename]) =
        .mk last.symbols.unplaced (other.checked ++ [twin.filename])
      rw [symbols, checked, filename]
  · have symbols : reached.symbols.unplaced = last.symbols.unplaced := (Analysis.mk.inj states).1
    simp only [addUnit, first, second]
    constructor
    · show Diagnostic.mk error.unplaced ⟨unit.filename, unit.content⟩ =
        .mk problem.unplaced ⟨twin.filename, twin.content⟩
      rw [same, filename, content]
    · show Session.mk reached.symbols.unplaced session.checked = .mk last.symbols.unplaced other.checked
      rw [symbols, checked]

/-- A function that takes a text. -/
def shout (place : Location) (code : String) : FunctionDecl where
  signature := [⟨"shout", place⟩]
  affix := .after
  returnType := .void
  params := [⟨⟨"text", place⟩, .builtin .string, false⟩]
  body := [.hostCode code place]
  generics := []
  origin := "shout.pine"
  location := place

/-- A session that knows the function. -/
def shoutSession (place : Location) (code : String) : Session :=
  ⟨⟨.initial, FunctionTable.empty.insert (shout place code)⟩, ["shout.pine"]⟩

/-- Neither the place of a function nor the host code in it is seen without places. -/
theorem unplaced_shoutSession (place : Location) (code : String) :
    (shoutSession place code).unplaced =
      ⟨⟨TypeTable.initial.unplaced, FunctionTable.empty.insert (shout .nowhere "").outline⟩, ["shout.pine"]⟩ := by
  have outlined := FunctionTable.empty.insert_outline (shout place code)
  rw [shoutSession, unplaced, Symbols.unplaced, ← outlined]
  rfl

/-- A unit that calls the function, with the same type in all its slots or with none. -/
def greetUnit (place : Location) (slot : Option Ty) : SourceUnit :=
  let greeting : Assignment :=
    { target := ⟨⟨"greeting", place⟩, none, false, slot⟩
      isDeclaration := true
      value := .mk (.string "hello") slot place
      location := place }
  let call : Call Expr :=
    { signature := [⟨"shout", place⟩]
      affix := .after
      args := [.mk (.variable ⟨"greeting", place⟩) slot place]
      resolved := slot.map fun ty => ⟨[ty], ty⟩ }
  ⟨"greet.pine", "", [.exampleBlock ⟨[.assignment greeting, .call call place], "", place⟩]⟩

theorem greetUnit_alike :
    (shoutSession (.onLine 1 1 5) "print").unplaced = (shoutSession (.onLine 7 3 8) "warn").unplaced ∧
      (greetUnit .nowhere none).unplaced .emptied = (greetUnit (.onLine 4 1 9) (some .nil)).unplaced .emptied ∧
      ((shoutSession (.onLine 1 1 5) "print").addUnit (greetUnit .nowhere none)).1.toBool = true ∧
      AnswersAlike ((shoutSession (.onLine 1 1 5) "print").addUnit (greetUnit .nowhere none)).1
        ((shoutSession (.onLine 7 3 8) "warn").addUnit (greetUnit (.onLine 4 1 9) (some .nil))).1 ∧
      ((shoutSession (.onLine 1 1 5) "print").addUnit (greetUnit .nowhere none)).2.unplaced =
        ((shoutSession (.onLine 7 3 8) "warn").addUnit (greetUnit (.onLine 4 1 9) (some .nil))).2.unplaced := by
  have sessions : (shoutSession (.onLine 1 1 5) "print").unplaced =
      (shoutSession (.onLine 7 3 8) "warn").unplaced := by
    rw [unplaced_shoutSession, unplaced_shoutSession]
  exact ⟨sessions, rfl, rfl, addUnit_alike sessions rfl⟩

end Session

end DeclCheck
