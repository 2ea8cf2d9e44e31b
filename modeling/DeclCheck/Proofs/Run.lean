import DeclCheck.Cli.Outcome
import DeclCheck.Proofs.Format.Units
import DeclCheck.Proofs.Walk.Returns
import Mathlib.Data.List.Basic

/-!
# What decides a run

A run goes through its names one after another. It *passes* a name whose unit is loaded and accepted, and goes on from
the session that the unit leaves. It *fails* at the first name whose unit cannot be loaded or is rejected, and what is
named behind that one is never looked at. What was passed and where it failed decide all that a run prints.

The check of a unit may also never return. Then the run *hangs* there, and it has no outcome. An error that cannot be
rendered for readers leaves no outcome either; a report for programs shows no source and can always be printed.

What the reader of JSON says about a text that is no unit is left open: everything here holds whatever it says. Nothing
is said about the time that a run takes, which is a number that it is given.
-/

namespace DeclCheck

/-! ## Runs as far as they return -/

/-- A unit that was accepted: as it was loaded, and with its slots filled. -/
structure Checked where
  loaded : SourceUnit
  annotated : SourceUnit

namespace Run

/-- The run after the unit of a name, as far as its check returns. -/
def next? (search : SearchPath) (notes : ReaderNotes) (disk : Disk) (run : Run) (name : String) : Option Run :=
  if run.succeeded then
    match search.load notes disk name with
    | .ok unit => (run.session.addUnit? unit).map run.record
    | .error error => some { run with failure := some ⟨error, ⟨name, ""⟩⟩ }
  else some run

/-- **Check the units of several names, as far as the checks return.** There is no result for a run that never
returns. -/
def ofNames? (search : SearchPath) (notes : ReaderNotes) (disk : Disk) (names : List String) : Option Run :=
  names.foldlM (next? search notes disk) initial

/-- **Whether a run returns.** -/
def Returns (search : SearchPath) (notes : ReaderNotes) (disk : Disk) (names : List String) : Prop :=
  ofNames? search notes disk names = some (ofNames search notes disk names)

variable {search : SearchPath} {notes : ReaderNotes} {disk : Disk}

/-- A step that returns is the step. -/
theorem next_of_next? {run after : Run} {name : String} (found : next? search notes disk run name = some after) :
    next search notes disk run name = after := by
  unfold next? at found
  unfold next
  split at found
  next going =>
    rw [if_pos going]
    cases load : search.load notes disk name with
    | error error =>
      rw [load] at found
      exact Option.some.inj found
    | ok unit =>
      rw [load] at found
      obtain ⟨outcome, added, recorded⟩ := Option.map_eq_some_iff.mp found
      show run.record (run.session.addUnit unit) = after
      rw [(run.session.yields_addUnit unit).eq_of_some added, recorded]
  next stopped =>
    rw [if_neg stopped]
    exact Option.some.inj found

/-- So are steps in a row. -/
theorem foldl_next_of_foldlM {names : List String} {run after : Run}
    (found : names.foldlM (next? search notes disk) run = some after) :
    names.foldl (next search notes disk) run = after := by
  induction names generalizing run with
  | nil => exact Option.some.inj found
  | cons name names ih =>
    rw [List.foldlM_cons] at found
    obtain ⟨between, stepped, later⟩ := Option.bind_eq_some_iff.mp found
    rw [List.foldl_cons, next_of_next? stepped]
    exact ih later

/-- **A run that has a result returns**, and with that result. -/
theorem returns_of_eq_some {names : List String} {run : Run} (found : ofNames? search notes disk names = some run) :
    Returns search notes disk names ∧ ofNames search notes disk names = run := by
  have same : ofNames search notes disk names = run := foldl_next_of_foldlM found
  exact ⟨by rw [Returns, found, same], same⟩

/-! ## Passing, failing and hanging -/

/-- **Whether names are passed one after another**, from one session to another. -/
inductive Passes (search : SearchPath) (notes : ReaderNotes) (disk : Disk) :
    Session → List String → List Checked → Session → Prop
  | none {session : Session} : Passes search notes disk session [] [] session
  | next {session between after : Session} {name : String} {names : List String} {unit annotated : SourceUnit}
      {checked : List Checked} (loaded : search.load notes disk name = .ok unit)
      (accepted : session.addUnit? unit = some (.ok annotated, between))
      (later : Passes search notes disk between names checked after) :
      Passes search notes disk session (name :: names) (⟨unit, annotated⟩ :: checked) after

/-- **Whether a name fails with a diagnostic**: its unit cannot be loaded, or it is rejected. A unit that is rejected
may leave something in the tables of the session. -/
inductive Fails (search : SearchPath) (notes : ReaderNotes) (disk : Disk) (session : Session) (name : String) :
    Diagnostic → Session → Prop
  | unloaded {error : Error} (refused : search.load notes disk name = .error error) :
      Fails search notes disk session name ⟨error, ⟨name, ""⟩⟩ session
  | rejected {unit : SourceUnit} {diagnostic : Diagnostic} {after : Session}
      (loaded : search.load notes disk name = .ok unit)
      (refused : session.addUnit? unit = some (.error diagnostic, after)) :
      Fails search notes disk session name diagnostic after

/-- **Whether the check of a name never returns.** -/
def Hangs (search : SearchPath) (notes : ReaderNotes) (disk : Disk) (session : Session) (name : String) : Prop :=
  ∃ unit, search.load notes disk name = .ok unit ∧ session.addUnit? unit = none

/-- **A run passes all its names, or there is a first one at which it fails or hangs.** -/
theorem passes_or_stops (search : SearchPath) (notes : ReaderNotes) (disk : Disk) (session : Session)
    (names : List String) :
    (∃ checked after, Passes search notes disk session names checked after) ∨
      ∃ passed name rest checked between, names = passed ++ name :: rest ∧
        Passes search notes disk session passed checked between ∧
          ((∃ diagnostic after, Fails search notes disk between name diagnostic after) ∨
            Hangs search notes disk between name) := by
  induction names generalizing session with
  | nil => exact Or.inl ⟨[], session, .none⟩
  | cons name names ih =>
    cases load : search.load notes disk name with
    | error error =>
      exact Or.inr ⟨[], name, names, [], session, rfl, .none, Or.inl ⟨_, session, .unloaded load⟩⟩
    | ok unit =>
      cases added : session.addUnit? unit with
      | none => exact Or.inr ⟨[], name, names, [], session, rfl, .none, Or.inr ⟨unit, load, added⟩⟩
      | some outcome =>
        obtain ⟨verdict, between⟩ := outcome
        cases verdict with
        | error diagnostic =>
          exact Or.inr ⟨[], name, names, [], session, rfl, .none, Or.inl ⟨diagnostic, between, .rejected load added⟩⟩
        | ok annotated =>
          rcases ih between with ⟨checked, after, passes⟩ |
            ⟨passed, failing, rest, checked, reached, rfl, passes, stops⟩
          · exact Or.inl ⟨_, after, .next load added passes⟩
          · exact Or.inr ⟨name :: passed, failing, rest, _, reached, rfl, .next load added passes, stops⟩

variable {session after : Session} {names : List String} {name : String} {checked : List Checked}
  {diagnostic : Diagnostic}

/-! ## Files -/

/-- As many units are passed as names. -/
theorem length_checked (passes : Passes search notes disk session names checked after) :
    checked.length = names.length := by
  induction passes with
  | none => rfl
  | next _ _ _ ih => rw [List.length_cons, List.length_cons, ih]

/-- The session has the files of the units that were passed, in order. -/
theorem checked_of_passes (passes : Passes search notes disk session names checked after) :
    after.checked = session.checked ++ checked.map (·.loaded.filename) := by
  induction passes with
  | none => rw [List.map_nil, List.append_nil]
  | @next session between after name names unit annotated checked loaded accepted later ih =>
    have own : between.checked = session.checked ++ [unit.filename] := by
      have added := (session.yields_addUnit unit).eq_of_some accepted
      unfold Session.addUnit at added
      dsimp only at added
      split at added
      next => cases added; rfl
      next => cases added
    rw [ih, own, List.map_cons, List.append_assoc, List.singleton_append]

/-- A unit that fails does not count as checked. -/
theorem checked_of_fails (fails : Fails search notes disk session name diagnostic after) :
    after.checked = session.checked := by
  cases fails with
  | unloaded => rfl
  | @rejected unit _ _ loaded refused =>
    have added := (session.yields_addUnit unit).eq_of_some refused
    unfold Session.addUnit at added
    dsimp only at added
    split at added
    next => cases added
    next => cases added; rfl

/-! ## The run itself -/

/-- **Names that pass are read one after another**, and what is left goes on from there. -/
theorem foldlM_next_of_passes (passes : Passes search notes disk session names checked after) (units : List SourceUnit)
    (rest : List String) :
    (names ++ rest).foldlM (next? search notes disk) ⟨session, units, none⟩ =
      rest.foldlM (next? search notes disk) ⟨after, units ++ checked.map (·.annotated), none⟩ := by
  induction passes generalizing units with
  | none => rw [List.map_nil, List.append_nil, List.nil_append]
  | @next session between after name names unit annotated checked loaded accepted later ih =>
    have step : next? search notes disk ⟨session, units, none⟩ name = some ⟨between, units ++ [annotated], none⟩ := by
      simp only [next?, succeeded, Option.isNone_none, if_true, loaded, accepted, Option.map_some, record]
    rw [List.cons_append, List.foldlM_cons, step, Option.bind_eq_bind, Option.bind_some, ih, List.map_cons,
      List.append_assoc, List.singleton_append]

/-- A failure is recorded. -/
theorem next_of_fails (fails : Fails search notes disk session name diagnostic after) (units : List SourceUnit) :
    next? search notes disk ⟨session, units, none⟩ name = some ⟨after, units, some diagnostic⟩ := by
  cases fails with
  | unloaded refused => simp only [next?, succeeded, Option.isNone_none, if_true, refused]
  | rejected loaded refused =>
    simp only [next?, succeeded, Option.isNone_none, if_true, loaded, refused, Option.map_some, record]

/-- A unit whose check never ends stops the run for good. -/
theorem next_of_hangs (hangs : Hangs search notes disk session name) (units : List SourceUnit) :
    next? search notes disk ⟨session, units, none⟩ name = none := by
  obtain ⟨unit, loaded, endless⟩ := hangs
  simp only [next?, succeeded, Option.isNone_none, if_true, loaded, endless, Option.map_none]

/-- A run that has failed stays as it is. -/
theorem foldlM_next_of_failed {run : Run} (failed : run.succeeded = false) (names : List String) :
    names.foldlM (next? search notes disk) run = some run := by
  induction names with
  | nil => rfl
  | cons name names ih =>
    have step : next? search notes disk run name = some run := by
      rw [next?, failed]
      rfl
    rw [List.foldlM_cons, step, Option.bind_eq_bind, Option.bind_some, ih]

/-- A run that passes all its names returns without a diagnostic. -/
theorem ofNames_of_passes (passes : Passes search notes disk .initial names checked after) :
    Returns search notes disk names ∧
      ofNames search notes disk names = ⟨after, checked.map (·.annotated), none⟩ := by
  have run := foldlM_next_of_passes passes [] []
  rw [List.append_nil] at run
  exact returns_of_eq_some run

/-- **What is named behind the first failure has no influence.** -/
theorem ofNames_of_fails (passes : Passes search notes disk .initial names checked session)
    (fails : Fails search notes disk session name diagnostic after) (rest : List String) :
    Returns search notes disk (names ++ name :: rest) ∧
      ofNames search notes disk (names ++ name :: rest) = ⟨after, checked.map (·.annotated), some diagnostic⟩ := by
  apply returns_of_eq_some
  rw [ofNames?, initial, foldlM_next_of_passes passes, List.foldlM_cons, next_of_fails fails, Option.bind_eq_bind,
    Option.bind_some]
  exact foldlM_next_of_failed rfl rest

/-- A run that hangs at a name has no result. -/
theorem ofNames_of_hangs (passes : Passes search notes disk .initial names checked session)
    (hangs : Hangs search notes disk session name) (rest : List String) :
    ofNames? search notes disk (names ++ name :: rest) = none := by
  rw [ofNames?, initial, foldlM_next_of_passes passes, List.foldlM_cons, next_of_hangs hangs]
  rfl

end Run

/-! ## What a report lists -/

/-- The value of a field of an object. -/
def Json.field? (name : String) : Json → Option Json
  | .object fields => fields.lookup name
  | _ => none

/-- **Whether a JSON value is the entry of a diagnostic**: it says what went wrong, where if that is known, and what may
help. -/
structure Diagnostic.IsEntry (diagnostic : Diagnostic) (entry : Json) : Prop where
  code : entry.field? "code" = some (.string diagnostic.error.code)
  name : entry.field? "name" = some (.string diagnostic.error.name)
  severity : entry.field? "severity" = some (.string (if diagnostic.error.isInternal then "InternalError" else "Error"))
  message : entry.field? "message" = some (.string diagnostic.error.message)
  placed : ∀ location, diagnostic.error.place? = some location → ∃ place, entry.field? "location" = some place ∧
    place.field? "file" = some (.string diagnostic.file.filename) ∧
    place.field? "line" = some (.number location.firstLine.toNat) ∧
    place.field? "column" = some (.number location.firstColumn.toNat) ∧
    place.field? "end_line" = some (.number location.lastLine.toNat) ∧
    place.field? "end_column" = some (.number location.lastColumn.toNat)
  unplaced : diagnostic.error.place? = none → entry.field? "location" = some .null
  suggestions : ∃ proposals, entry.field? "suggestions" = some (.array proposals) ∧
    List.Forall₂ (fun name proposal => proposal.field? "replacement" = some (.string name))
      diagnostic.error.suggestions proposals
  hinted : ∀ hint, diagnostic.error.hint = some hint → entry.field? "hint" = some (.string hint)
  unhinted : diagnostic.error.hint = none → entry.field? "hint" = some .null

/-- A diagnostic is listed with all that it has. -/
theorem Diagnostic.isEntry_toJson (diagnostic : Diagnostic) :
    diagnostic.IsEntry (Report.ofDiagnostic diagnostic).toJson where
  code := rfl
  name := rfl
  severity := by
    show some (Json.string (Severity.word (if diagnostic.error.isInternal then .internalError else .error))) = _
    rw [apply_ite Severity.word]
    rfl
  message := rfl
  placed location found := by
    refine ⟨Place.toJson ⟨diagnostic.file.filename, location⟩, ?_, rfl, rfl, rfl, rfl, rfl⟩
    show some (((diagnostic.error.place?.map _).map Place.toJson).getD .null) = _
    rw [found]
    rfl
  unplaced missing := by
    show some (((diagnostic.error.place?.map _).map Place.toJson).getD .null) = _
    rw [missing]
    rfl
  suggestions := by
    refine ⟨_, rfl, ?_⟩
    show List.Forall₂ _ _ ((diagnostic.error.suggestions.map Suggestion.ofName).map Suggestion.toJson)
    rw [List.map_map]
    exact List.forall₂_map_right_iff.mpr (List.forall₂_same.mpr fun _ _ => rfl)
  hinted hint found := by
    show some (Json.ofText? diagnostic.error.hint) = _
    rw [found]
    rfl
  unhinted missing := by
    show some (Json.ofText? diagnostic.error.hint) = _
    rw [missing]
    rfl

/-- **What a report lists**: whether all went well, the files, an entry for each diagnostic, and how many units were
passed. -/
structure Feedback.Lists (report : Json) (files : List String) (diagnostics : List Diagnostic) (count : Nat) :
    Prop where
  success : report.field? "success" = some (.bool diagnostics.isEmpty)
  files : report.field? "files" = some (.array (files.map .string))
  diagnostics : ∃ entries, report.field? "diagnostics" = some (.array entries) ∧
    List.Forall₂ Diagnostic.IsEntry diagnostics entries
  count : ∃ stats, report.field? "stats" = some stats ∧ stats.field? "unit_count" = some (.number count)

/-- A run lists the files that were passed, and the diagnostic that stopped it if there is one. -/
theorem Run.lists_feedback {session : Session} {files : List String} {count : Nat} (own : session.checked = files)
    (length : files.length = count) (units : List SourceUnit) (failure : Option Diagnostic) (milliseconds : Nat) :
    Feedback.Lists (feedback ⟨session, units, failure⟩ milliseconds).toJson files failure.toList count := by
  subst own length
  cases failure with
  | none => exact ⟨rfl, rfl, ⟨[], rfl, .nil⟩, ⟨_, rfl, rfl⟩⟩
  | some diagnostic =>
    exact ⟨rfl, rfl, ⟨_, rfl, .cons diagnostic.isEntry_toJson .nil⟩, ⟨_, rfl, rfl⟩⟩

/-! ## What a run prints -/

namespace Cli

/-- A run without an error counts its files for readers. -/
theorem readerText_passed {after : Session} {count : Nat} (length : after.checked.length = count)
    (units : List SourceUnit) (context : UInt64) :
    readerText ⟨after, units, none⟩ context = some s!"✅ No errors found in {count} file(s)\n" := by
  subst length
  unfold readerText successText
  rfl

namespace Outcome

section

variable {config : Config} (session : Session) (units : List SourceUnit) (milliseconds : Nat)

/-- A run that has failed prints its report for programs, and nothing else. -/
theorem ofRun_failed_json (diagnostic : Diagnostic) (json : config.format = .json) :
    ofRun config ⟨session, units, some diagnostic⟩ milliseconds =
      some { output := (Run.feedback ⟨session, units, some diagnostic⟩ milliseconds).toJson.pretty ++ "\n",
             errors := "", exitCode := 1 } := by
  simp only [ofRun, json, Run.succeeded, Option.isNone_some, Bool.and_false, Bool.false_eq_true, if_false,
    String.append_empty]

/-- Readers are shown its diagnostic, if that can be rendered. -/
theorem ofRun_failed_human (diagnostic : Diagnostic) (human : config.format = .human) :
    ofRun config ⟨session, units, some diagnostic⟩ milliseconds =
      (diagnostic.render config.contextLines).map fun text => { output := "", errors := text, exitCode := 1 } := by
  simp only [ofRun, human, readerText, Run.succeeded, Option.isNone_some, Bool.and_false, Bool.false_eq_true, if_false]

/-- A run that has not failed prints its report for programs, and behind it the annotated units if it was asked to. -/
theorem ofRun_passed_json (json : config.format = .json) :
    ofRun config ⟨session, units, none⟩ milliseconds =
      some { output := (Run.feedback ⟨session, units, none⟩ milliseconds).toJson.pretty ++ "\n" ++
               if config.emitTyped then (Json.array (units.map SourceUnit.toJson)).pretty ++ "\n" else "",
             errors := "", exitCode := 0 } := by
  simp only [ofRun, json, Run.succeeded, Option.isNone_none, Bool.and_true, if_true, Run.typedJson]

/-- Readers are told how many files it has passed. -/
theorem ofRun_passed_human {count : Nat} (length : session.checked.length = count) (human : config.format = .human) :
    ofRun config ⟨session, units, none⟩ milliseconds =
      some { output := if config.emitTyped then (Json.array (units.map SourceUnit.toJson)).pretty ++ "\n" else "",
             errors := s!"✅ No errors found in {count} file(s)\n", exitCode := 0 } := by
  simp only [ofRun, human, readerText_passed length, Option.map_some, Run.succeeded, Option.isNone_none, Bool.and_true,
    if_true, Run.typedJson]

end

end Outcome

end Cli

/-! ## A group that is declared twice -/

namespace Run

/-- A disk on which units are stored under names. -/
def storing (units : List (String × SourceUnit)) : Disk :=
  ⟨fun path => (units.lookup path).isSome, fun path => (units.lookup path).map (·.toJson.pretty)⟩

/-- A stored unit that has a name of its own is loaded as it is. -/
theorem load_storing {units : List (String × SourceUnit)} {name : String} {unit : SourceUnit}
    (stored : units.lookup name = some unit) (own : unit.filename ≠ "") (shallow : unit.toJson.depth ≤ 127)
    (search : SearchPath) (notes : ReaderNotes) : search.load notes (storing units) name = .ok unit := by
  have there : (storing units).isFile name = true := by
    show (units.lookup name).isSome = true
    rw [stored]
    rfl
  have text : (storing units).text? name = some unit.toJson.pretty := by
    show (units.lookup name).map _ = _
    rw [stored]
    rfl
  have found : search.find? (storing units) name = some name := by
    rw [SearchPath.find?, SearchPath.candidates, List.find?_cons, there]
  rw [SearchPath.load, found]
  show (storing units).loadUnit notes name = .ok unit
  rw [Disk.loadUnit, text]
  exact SourceUnit.ofText_eq_ok own shallow (Json.exists_document_pretty _) notes name

/-- A unit that declares a group, and then again at a place. -/
def shapesUnit (again : Location) : SourceUnit where
  filename := "shapes.pine"
  content := "a"
  declarations := [.group ⟨⟨"Shape", .nowhere⟩, "", .nowhere⟩, .group ⟨⟨"Shape", again⟩, "", .nowhere⟩]

/-- The diagnostic of the second declaration. -/
def shapeRepeated (again : Location) : Diagnostic :=
  ⟨.found (.groupRedeclared "Shape") again, ⟨"shapes.pine", "a"⟩⟩

theorem load_shapes {units : List (String × SourceUnit)} {again : Location}
    (stored : units.lookup "shapes" = some (shapesUnit again)) (search : SearchPath) (notes : ReaderNotes) :
    search.load notes (storing units) "shapes" = .ok (shapesUnit again) := by
  have own : "shapes.pine" ≠ "" := by decide
  have shallow : (shapesUnit again).toJson.depth ≤ 127 := Nat.le_of_ble_eq_true rfl
  exact load_storing stored own shallow search notes

/-- A unit with a function that calls itself, and one that is rejected. -/
def twoUnits : List (String × SourceUnit) :=
  [("twice", Session.twiceUnit), ("shapes", shapesUnit (.onLine 1 1 1))]

/-- The first unit with its slots filled. -/
def annotatedTwice : SourceUnit := (Session.initial.addUnit Session.twiceUnit).1.toOption.getD Session.twiceUnit

/-- The session after the first unit. -/
def afterTwice : Session := (Session.initial.addUnit Session.twiceUnit).2

theorem passes_twice (search : SearchPath) (notes : ReaderNotes) :
    Passes search notes (storing twoUnits) .initial ["twice"] [⟨Session.twiceUnit, annotatedTwice⟩] afterTwice := by
  have own : "twice.pine" ≠ "" := by decide
  have shallow : Session.twiceUnit.toJson.depth ≤ 127 := by decide +kernel
  exact .next (load_storing rfl own shallow search notes) rfl .none

theorem fails_shapes (search : SearchPath) (notes : ReaderNotes) :
    Fails search notes (storing twoUnits) afterTwice "shapes" (shapeRepeated (.onLine 1 1 1))
      (afterTwice.addUnit (shapesUnit (.onLine 1 1 1))).2 :=
  .rejected (load_shapes rfl search notes) rfl

end Run

namespace Cli.Outcome

/-- A report for programs, with the annotated units behind it. -/
def typedReport : Config := { format := .json, emitTyped := true }

end Cli.Outcome

end DeclCheck
