import DeclCheck.Proofs.Placeholders.Walk
import DeclCheck.Proofs.Session

/-!
# Where the placeholders of an accepted unit come from

A placeholder that a checked body mentions is one that its function introduces, or it has leaked into the body
at a call or at a member access. Both happen. All placeholders equal one another, so a call inside a generic
function may match an overload of another generic function exactly, and then the overload is taken as it is; and
the arguments of a call, or of a struct type, may leave a placeholder without a type to stand for. The main
statement says that there is no third way.

It is not established that a leak does any harm, nor when there is none: the statement only names the places where one
may be.
-/

namespace DeclCheck

/-! ## Closed signatures -/

namespace FunctionDecl

/-- Whether the parameters mention placeholders of their own function only. -/
def OwnsParams (decl : FunctionDecl) : Prop := ∀ ty ∈ decl.paramTypes, ty.Within (· ∈ decl.genericNames)

/-- **A closed signature owns its placeholders, and returns none that its parameters do not mention.** -/
theorem close_placeholders {types : TypeTable} {decl closed : FunctionDecl}
    (closing : decl.close types = .ok closed) : closed.OwnsParams ∧ closed.ReturnsMentioned := by
  have sources := exists_param_of_close closing
  obtain ⟨generics, params, returnType, restricted, -, -, rfl, mentioned⟩ := close_eq_ok closing
  have names : generics.map (·.name.name) = closedNames types decl :=
    map_eq_of_mapM_eq_ok (fun _ {_} resolving => congrArg Ident.name (name_resolveConstraint resolving)) restricted
  have within : ∀ param ∈ params, param.ty.Within (· ∈ generics.map (·.name.name)) := by
    intro param mem
    obtain ⟨source, -, found⟩ := sources param mem
    rw [names]
    exact TypeTable.within_of_resolve _ found
  constructor
  · intro ty mem
    obtain ⟨param, listed, rfl⟩ := List.mem_map.mp mem
    exact within param listed
  · intro name mem
    have kept := List.filter_eq_nil_iff.mp mentioned name mem
    simp only [Bool.not_eq_true, Bool.not_eq_false', List.any_eq_true, decide_eq_true_eq] at kept
    obtain ⟨param, listed, inside⟩ := kept
    exact ⟨param.ty, List.mem_map.mpr ⟨param, listed, rfl⟩, inside⟩

/-- The variables of a function mention its own placeholders. -/
theorem OwnsParams.allWithin {decl : FunctionDecl} (owns : decl.OwnsParams) :
    LocalVariable.AllWithin (· ∈ decl.genericNames) (Param.variables decl.params) := by
  intro var mem
  obtain ⟨param, listed, rfl⟩ := List.mem_map.mp (List.mem_reverse.mp mem)
  exact owns _ (List.mem_map.mpr ⟨param, listed, rfl⟩)

end FunctionDecl

/-! ## Bodies -/

/-- **Whether every placeholder that a checked body mentions is accounted for**: it is one that the declaration
introduces, or it leaks into the body at some place. -/
def Decl.PlaceholdersSourced (types : TypeTable) (decl : Decl) : Prop :=
  ∀ ty, .typed ty ∈ decl.notes → ∀ name ∈ ty.genericNames,
    name ∈ decl.placeholders ∨ ∃ note ∈ decl.notes, note.Leaks types name

/-- Whether a declaration that is a function owns the placeholders of its parameters. -/
def Decl.OwnsParams : Decl → Prop
  | .function decl => decl.OwnsParams
  | _ => True

namespace Analysis

variable {before after : Analysis} {decl result : Decl} {types : TypeTable}

/-- The fourth pass leaves functions that own the placeholders of their parameters. -/
theorem collect_placeholders
    (known : before.symbols.types = types ∧ before.symbols.functions.ReturnsMentioned)
    (reached : collect decl before = .ok result after) :
    (after.symbols.types = types ∧ after.symbols.functions.ReturnsMentioned) ∧ result.OwnsParams := by
  cases decl with
  | function decl =>
    obtain ⟨closed, closing, rfl, rfl⟩ := collect_function_eq_ok reached
    obtain ⟨owns, promise⟩ := FunctionDecl.close_placeholders closing
    exact ⟨⟨known.1, FunctionTable.Every.insert known.2 promise⟩, owns⟩
  | struct | enum | group | binding | exampleBlock | importing =>
    cases reached
    exact ⟨known, trivial⟩

/-- A walk in which all that leaks is allowed accounts for all that it notes. -/
theorem placeholdersSourced_of_walk {functions table : FunctionTable} {visible seen : List LocalVariable}
    {body filled : List Stmt} {returned : List (Ty × Location)}
    (promise : functions.ReturnsMentioned)
    (params : LocalVariable.AllWithin (· ∈ result.placeholders) visible)
    (notes : result.notes = Stmt.allNotes filled)
    (walked : BlockWalk ⟨types, result.placeholders⟩ functions visible body filled returned table seen) :
    result.PlaceholdersSourced types := by
  intro ty mem
  rw [notes] at mem ⊢
  let allowed (name : String) : Prop :=
    name ∈ result.placeholders ∨ ∃ note ∈ Stmt.allNotes filled, note.Leaks types name
  have own : ∀ name ∈ result.placeholders, allowed name := fun _ introduced => Or.inl introduced
  have visible : LocalVariable.AllWithin allowed visible :=
    fun var mem name mentioned => Or.inl (params var mem name mentioned)
  have covered : Note.Covered types allowed (Stmt.allNotes filled) :=
    fun note mem name leaks => Or.inr ⟨note, mem, leaks⟩
  exact (walked.within own visible promise covered).1 ty mem

/-- **The fifth pass notes only placeholders that come from somewhere.** -/
theorem checkBody_placeholders
    (known : before.symbols.types = types ∧ before.symbols.functions.ReturnsMentioned)
    (owns : decl.OwnsParams) (reached : checkBody decl before = .ok result after) :
    (after.symbols.types = types ∧ after.symbols.functions.ReturnsMentioned) ∧
      result.PlaceholdersSourced types := by
  obtain ⟨rfl, promise⟩ := known
  cases decl with
  | function decl =>
    obtain ⟨body, returned, table, seen, rfl, walked, -, symbols⟩ := checkBody_function_eq_ok reached
    have kept := walked.keeps (Overloading.returnsMentioned_keptByCalls _) promise
    rw [symbols]
    refine ⟨⟨rfl, kept⟩, ?_⟩
    exact placeholdersSourced_of_walk promise owns.allWithin rfl walked
  | exampleBlock decl =>
    obtain ⟨body, returned, table, seen, rfl, walked, symbols⟩ := checkBody_example_eq_ok reached
    have kept := walked.keeps (Overloading.returnsMentioned_keptByCalls _) promise
    rw [symbols]
    refine ⟨⟨rfl, kept⟩, ?_⟩
    exact placeholdersSourced_of_walk promise (fun _ mem => by cases mem) rfl walked
  | struct | enum | group | binding | importing =>
    cases reached
    exact ⟨⟨rfl, promise⟩, fun _ mem => by cases mem⟩

/-- **From a table that keeps its promise, the check of a unit accounts for all placeholders.** -/
theorem declarations_placeholders {decls annotated : List Decl}
    (promise : before.symbols.functions.ReturnsMentioned)
    (reached : declarations decls before = .ok annotated after) :
    ∀ decl ∈ annotated, decl.PlaceholdersSourced after.symbols.types := by
  obtain ⟨_, _, resolved, closed, _, _, signatures, -, -, -, functions, collecting, checking⟩ :=
    declarations_eq_ok reached
  obtain ⟨kept, owns⟩ := mapM_eq_ok (fun _ _ {_ _ _} => collect_placeholders)
    ⟨rfl, functions.symm ▸ promise⟩ collecting
  obtain ⟨⟨same, -⟩, sourced⟩ :=
    mapM_eq_ok (fun decl mem {_ _ _} known => checkBody_placeholders known (owns decl mem)) kept checking
  rw [same]
  exact sourced

end Analysis

/-! ## Sessions -/

namespace Session

/-- In every state of a session results mention only what parameters do. -/
theorem Reachable.returnsMentioned {session : Session} (reachable : session.Reachable) :
    session.symbols.functions.ReturnsMentioned := by
  induction reachable with
  | initial => exact FunctionTable.every_empty _
  | @add session _ unit ih =>
    rw [symbols_addUnit]
    refine Analysis.keeps_declarations_of_close Overloading.returnsMentioned_keptByCalls
      (fun closing promise => ?_) _ _ ih
    exact FunctionTable.Every.insert promise (FunctionDecl.close_placeholders closing).2

/-- **Placeholders stay in their declaration, or leak at a call or a member access.** Where a type noted in the
body of an accepted declaration mentions a placeholder, the declaration introduces it; or a call in the same body
returns it though no argument mentions it; or a member is accessed there of a struct type that leaves it open. -/
theorem addUnit_placeholdersSourced {session after : Session} {unit annotated : SourceUnit}
    (reachable : session.Reachable) (accepted : session.addUnit unit = (.ok annotated, after)) :
    ∀ decl ∈ annotated.declarations, decl.PlaceholdersSourced after.symbols.types := by
  obtain ⟨analysis, checked, symbols⟩ := addUnit_eq_ok accepted
  rw [symbols]
  exact Analysis.declarations_placeholders reachable.returnsMentioned checked

/-! ## A placeholder that leaks -/

/-- A function of one parameter that returns what the given expression makes of it. -/
private def returning (name param placeholder : String) (value : ExprKind) : FunctionDecl where
  signature := [⟨name, .nowhere⟩]
  affix := .after
  returnType := Ty.written placeholder []
  params := [⟨⟨param, .nowhere⟩, Ty.written placeholder [], false⟩]
  body := [.returns (some (.mk value none .nowhere)) .nowhere]
  generics := []
  origin := ""
  location := .nowhere

/-- A generic function that returns its argument, and another one that calls it. -/
def sameUnit : SourceUnit where
  filename := "same.pine"
  content := ""
  declarations :=
    [.function (returning "same" "x" "U" (.variable ⟨"x", .nowhere⟩)),
      .function (returning "again" "y" "T"
        (.call ⟨[⟨"same", .nowhere⟩], .after, [.mk (.variable ⟨"y", .nowhere⟩) none .nowhere], none⟩))]

theorem accepts_sameUnit : ∃ annotated after, initial.addUnit sameUnit = (.ok annotated, after) :=
  ⟨_, _, rfl⟩

theorem sameUnit_placeholdersSourced :
    ∃ annotated after, initial.addUnit sameUnit = (.ok annotated, after) ∧
      ∀ decl ∈ annotated.declarations, decl.PlaceholdersSourced after.symbols.types := by
  obtain ⟨annotated, after, accepted⟩ := accepts_sameUnit
  exact ⟨annotated, after, accepted, addUnit_placeholdersSourced .initial accepted⟩

/-- **A body may mention a placeholder of another declaration.** The argument of the call inside `again` matches
the parameter of `same` exactly, since all placeholders equal one another, and so the call is of type `U` where
only `T` is introduced. -/
theorem exists_foreign_placeholder :
    ∃ annotated after, initial.addUnit sameUnit = (.ok annotated, after) ∧
      ∃ decl ∈ annotated.declarations, ∃ ty, .typed ty ∈ decl.notes ∧
        ∃ name ∈ ty.genericNames, name ∉ decl.placeholders := by
  refine ⟨_, _, rfl, _, List.mem_cons_of_mem _ List.mem_cons_self, _, List.mem_cons_self, "U", ?_, ?_⟩
  · decide
  · decide

end Session

end DeclCheck
