import DeclCheck.Proofs.Dict
import DeclCheck.Proofs.ScopeStack
import DeclCheck.ScopeArena

/-!
# The arena as a stack of finite maps

No scope of an arena is dropped, and only those from the current one outward count. Read along their links they are a
stack of finite maps, the current scope on top. That the links lead to earlier scopes is what makes this reading stable:
entering a scope adds one behind all that are linked, and declaring a variable changes the current scope, which none of
the scopes around it can be.

The lists of `Scopes` represent the same stacks. So both tables answer every look-up alike, refuse the same declarations
and show the same names, and what the lists forget when a level is left the arena cannot reach any more.

Nothing is said about the order in which names are listed, nor about the scopes that have been left: they stay in the
arena as they were.
-/

namespace DeclCheck

/-! ## Scopes as maps -/

/-- Under a new key the keys are those of before and the new one. -/
theorem Dict.keys_insert_perm {α : Type} {dict : Dict String α} {key : String} (fresh : dict.find? key = none)
    (value : α) : (dict.insert key value).keys.Perm (key :: dict.keys) := by
  obtain ⟨entries⟩ := dict
  have absent : ∀ entry ∈ entries, (key != entry.1) = true := List.lookup_eq_none_iff.mp fresh
  show ((Dict.insertEntry key value entries).map (·.1)).Perm (key :: entries.map (·.1))
  clear fresh
  induction entries with
  | nil => exact .refl _
  | cons entry rest ih =>
    have other : ¬ entry.1 = key := fun same => bne_iff_ne.mp (absent entry List.mem_cons_self) same.symm
    rw [Dict.insertEntry, if_neg other]
    split
    · exact .refl _
    · have later := ih fun entry mem => absent entry (List.mem_cons_of_mem _ mem)
      exact (later.cons entry.1).trans (.swap key entry.1 _)

/-- **Whether the variables of a scope are those of a map.** -/
structure Scope.Holds (scope : Scope) (map : VariableMap) : Prop where
  lookup : ∀ name, scope.declared.find? name = map.lookup name
  names : Multiset.ofList scope.declared.keys = map.keys.val

namespace Scope.Holds

theorem empty (parent : Option Nat) : Holds ⟨parent, .empty⟩ ∅ := ⟨fun _ => rfl, rfl⟩

/-- A name that is new to a scope joins its map. -/
theorem insert {scope : Scope} {map : VariableMap} (holds : scope.Holds map) {var : LocalVariable}
    (fresh : scope.declared.find? var.name = none) :
    Holds { scope with declared := scope.declared.insert var.name var } (map.insert var.name var) where
  lookup name := by
    rw [Dict.find?_insert]
    by_cases own : name = var.name
    · rw [if_pos own, own, Finmap.lookup_insert]
    · rw [if_neg own, Finmap.lookup_insert_of_ne _ own, holds.lookup]
  names := by
    have new : var.name ∉ map := by
      rw [← Finmap.lookup_eq_none, ← holds.lookup, fresh]
    rw [VariableMap.keys_insert new, ← holds.names, Multiset.cons_coe]
    exact Multiset.coe_eq_coe.mpr (Dict.keys_insert_perm fresh var)

end Scope.Holds

namespace ScopeArena

/-! ## The way outward -/

variable {arena : ScopeArena} {id parent : Nat} {scope : Scope}

/-- Only the outermost scope is visible from itself. -/
theorem outward_of_outermost (found : arena.scopes[id]? = some scope) (own : scope.parent = none) :
    arena.outward id = [scope] := by
  rw [outward]
  split
  next missing =>
    rw [missing] at found
    cases found
  next other there =>
    cases there.symm.trans found
    split
    next => rfl
    next linked =>
      rw [own] at linked
      cases linked

/-- From a scope with a parent one sees it first, and then all that the parent sees. -/
theorem outward_of_inner (found : arena.scopes[id]? = some scope) (own : scope.parent = some parent) :
    arena.outward id = scope :: arena.outward parent := by
  rw [outward]
  split
  next missing =>
    rw [missing] at found
    cases found
  next other there =>
    cases there.symm.trans found
    split
    next unlinked =>
      rw [own] at unlinked
      cases unlinked
    next linked =>
      cases linked.symm.trans own
      rfl

/-- **Whether the scopes from one outward are the maps of a stack**, link by link. -/
inductive Nested (arena : ScopeArena) : Nat → VariableMap → List VariableMap → Prop
  | outermost {id : Nat} {scope : Scope} {map : VariableMap} (found : arena.scopes[id]? = some scope)
      (own : scope.parent = none) (holds : scope.Holds map) : Nested arena id map []
  | inner {id parent : Nat} {scope : Scope} {map top : VariableMap} {below : List VariableMap}
      (found : arena.scopes[id]? = some scope) (own : scope.parent = some parent) (holds : scope.Holds map)
      (outer : Nested arena parent top below) : Nested arena id map (top :: below)

namespace Nested

variable {top : VariableMap} {below : List VariableMap}

/-- What the scopes up to one are decides how they are nested, for links lead to earlier scopes. -/
theorem congr (nested : arena.Nested id top below) {other : ScopeArena}
    (same : ∀ place, place ≤ id → other.scopes[place]? = arena.scopes[place]?) : other.Nested id top below := by
  induction nested with
  | @outermost id scope map found own holds => exact .outermost ((same id (Nat.le_refl id)).trans found) own holds
  | @inner id parent scope map top below found own holds outer ih =>
    have before : parent < id := arena.earlier found own
    refine .inner ((same id (Nat.le_refl id)).trans found) own holds (ih fun place inside => ?_)
    exact same place (by omega)

/-- **A name is found in the innermost scope just as in the uppermost map.** -/
theorem findSome?_outward (nested : arena.Nested id top below) (name : String) :
    (arena.outward id).findSome? (·.declared.find? name) = (top :: below).findSome? (·.lookup name) := by
  induction nested with
  | outermost found own holds =>
    rw [outward_of_outermost found own, List.findSome?_cons, List.findSome?_cons, holds.lookup]
    rfl
  | inner found own holds outer ih =>
    rw [outward_of_inner found own, List.findSome?_cons, List.findSome?_cons, holds.lookup, ih]

/-- **The names on the way outward are those of all maps.** -/
theorem names_outward (nested : arena.Nested id top below) :
    Multiset.ofList ((arena.outward id).flatMap (·.declared.keys)) =
      (top :: below).foldr (fun map names => map.keys.val + names) 0 := by
  induction nested with
  | outermost found own holds =>
    rw [outward_of_outermost found own, List.flatMap_singleton, List.foldr_cons, List.foldr_nil, add_zero, holds.names]
  | inner found own holds outer ih =>
    rw [outward_of_inner found own, List.flatMap_cons, List.foldr_cons, ← ih, ← holds.names]
    rfl

/-- A variable that is declared in a scope joins the top map. -/
theorem add (nested : arena.Nested arena.current top below) {var : LocalVariable}
    (fresh : arena.lookup? var.name = none) : (arena.add var).Nested arena.current (top.insert var.name var) below := by
  have changed {scope : Scope} (found : arena.scopes[arena.current]? = some scope) :
      (arena.add var).scopes[arena.current]? =
        some { scope with declared := scope.declared.insert var.name var } := by
    show (arena.scopes.modify arena.current _)[arena.current]? = _
    rw [Array.getElem?_modify, if_pos rfl, found, Option.map_some]
  have kept {place : Nat} (before : place < arena.current) :
      (arena.add var).scopes[place]? = arena.scopes[place]? := by
    show (arena.scopes.modify arena.current _)[place]? = _
    rw [Array.getElem?_modify, if_neg (Nat.ne_of_gt before)]
  have absent : ∀ map ∈ top :: below, map.lookup var.name = none := by
    rw [lookup?, nested.findSome?_outward] at fresh
    exact List.findSome?_eq_none_iff.mp fresh
  cases nested with
  | outermost found own holds =>
    have new := (holds.lookup var.name).trans (absent _ List.mem_cons_self)
    exact .outermost (changed found) own (holds.insert new)
  | @inner _ parent scope _ top below found own holds outer =>
    have new := (holds.lookup var.name).trans (absent _ List.mem_cons_self)
    have before : parent < arena.current := arena.earlier found own
    refine .inner (changed found) own (holds.insert new) (outer.congr fun place inside => kept ?_)
    omega

/-- A scope that is entered stands on top of all others. -/
theorem enter (nested : arena.Nested arena.current top below) :
    arena.enter.Nested arena.scopes.size ∅ (top :: below) := by
  have last : arena.enter.scopes[arena.scopes.size]? = some ⟨some arena.current, .empty⟩ := by
    show (arena.scopes.push _)[arena.scopes.size]? = _
    rw [Array.getElem?_push, if_pos rfl]
  refine .inner last rfl (.empty _) (nested.congr fun place inside => ?_)
  have before : place ≠ arena.scopes.size := Nat.ne_of_lt (Nat.lt_of_le_of_lt inside arena.inside)
  show (arena.scopes.push _)[place]? = _
  rw [Array.getElem?_push, if_neg before]

end Nested

/-- The outermost scope is never left. -/
theorem exit_of_outermost (own : arena.scope.parent = none) : arena.exit = arena := by
  rw [exit]
  split
  next => rfl
  next linked =>
    rw [own] at linked
    cases linked

/-- Leaving a scope leads to its parent, and no scope is thrown away. -/
theorem exit_of_inner (own : arena.scope.parent = some parent) :
    arena.exit.scopes = arena.scopes ∧ arena.exit.current = parent := by
  rw [exit]
  split
  next unlinked =>
    rw [own] at unlinked
    cases unlinked
  next linked =>
    cases linked.symm.trans own
    exact ⟨rfl, rfl⟩

/-! ## Steps -/

/-- The arena after a step. A declaration that is refused leaves it as it is. -/
def step (arena : ScopeArena) : ScopeStep → ScopeArena
  | .define var => (arena.define var).toOption.getD arena
  | .enter => arena.enter
  | .exit => arena.exit

/-- The arena after several steps. -/
def run (arena : ScopeArena) (steps : List ScopeStep) : ScopeArena := steps.foldl step arena

/-- **Whether an arena represents a stack**: its scopes from the current one outward are the maps of the stack. -/
def Represents (arena : ScopeArena) (stack : ScopeStack) : Prop := arena.Nested arena.current stack.top stack.below

namespace Represents

variable {stack : ScopeStack}

theorem new : Represents .empty .new := .outermost rfl rfl (.empty none)

/-- A name is found in the arena exactly as it is found in the stack. -/
theorem lookup?_eq (same : arena.Represents stack) (name : String) : arena.lookup? name = stack.lookup? name :=
  same.findSome?_outward name

/-- So are the visible names, each as often. -/
theorem visibleNames_eq (same : arena.Represents stack) : Multiset.ofList arena.visibleNames = stack.visibleNames :=
  same.names_outward

/-- Leaving a scope takes the innermost map off the stack. -/
theorem exit (same : arena.Represents stack) : arena.exit.Represents stack.exit := by
  obtain ⟨top, below⟩ := stack
  have current (scope : Scope) (found : arena.scopes[arena.current]? = some scope) : arena.scope = scope :=
    Option.some.inj (arena.getElem?_current.symm.trans found)
  cases same with
  | outermost found own holds =>
    rw [exit_of_outermost (current _ found ▸ own)]
    exact .outermost found own holds
  | @inner _ parent scope _ top below found own holds outer =>
    obtain ⟨scopes, back⟩ := exit_of_inner (current _ found ▸ own)
    show arena.exit.Nested arena.exit.current top below
    rw [back]
    exact outer.congr fun place _ => by rw [scopes]

/-- A name joins the innermost map, or is refused by both. -/
theorem define (same : arena.Represents stack) (var : LocalVariable) :
    (arena.step (.define var)).Represents (stack.step (.define var)) := by
  unfold ScopeArena.step ScopeStack.step ScopeArena.define ScopeStack.define?
  dsimp only
  rw [← same.lookup?_eq]
  cases visible : arena.lookup? var.name with
  | some found => exact same
  | none => exact Nested.add same visible

/-- **A step keeps the representation.** -/
theorem step (same : arena.Represents stack) (step : ScopeStep) : (arena.step step).Represents (stack.step step) := by
  cases step with
  | define var => exact same.define var
  | enter => exact Nested.enter same
  | exit => exact same.exit

/-- **So does a run.** -/
theorem run (same : arena.Represents stack) (steps : List ScopeStep) :
    (arena.run steps).Represents (stack.run steps) := by
  induction steps generalizing arena stack with
  | nil => exact same
  | cons first rest ih => exact ih (same.step first)

end Represents

/-! ## Two tables of one stack -/

/-- **Whether an arena simulates scopes that are kept as a list**: both represent one stack. -/
def Simulates (arena : ScopeArena) (scopes : Scopes) : Prop :=
  ∃ stack, arena.Represents stack ∧ scopes.Represents stack

namespace Simulates

variable {scopes : Scopes}

theorem empty : Simulates .empty .empty := ⟨.new, .new, .new⟩

/-- **The arena keeps in step with the list of variables** along any steps. -/
theorem run (simulates : arena.Simulates scopes) (steps : List ScopeStep) :
    (arena.run steps).Simulates (scopes.run steps) := by
  obtain ⟨stack, kept, listed⟩ := simulates
  exact ⟨stack.run steps, kept.run steps, listed.run steps⟩

/-- So a name is found in both alike. -/
theorem lookup?_eq (simulates : arena.Simulates scopes) (name : String) : arena.lookup? name = scopes.lookup? name := by
  obtain ⟨stack, kept, listed⟩ := simulates
  rw [kept.lookup?_eq, listed.lookup?_eq]

/-- The same names are visible in both. -/
theorem perm_visibleNames (simulates : arena.Simulates scopes) : arena.visibleNames.Perm scopes.visibleNames := by
  obtain ⟨stack, kept, listed⟩ := simulates
  apply Multiset.coe_eq_coe.mp
  rw [kept.visibleNames_eq, listed.visibleNames_eq]

/-- No name is visible twice. -/
theorem nodup_visibleNames (simulates : arena.Simulates scopes) : arena.visibleNames.Nodup := by
  have names := simulates.perm_visibleNames
  obtain ⟨_, -, listed⟩ := simulates
  exact names.nodup_iff.mpr listed.distinct

/-- **Both tables refuse the same declarations**, with the same error. -/
theorem define_eq_error_iff (simulates : arena.Simulates scopes) (var : LocalVariable) (error : Error) :
    arena.define var = .error error ↔ scopes.define var = .error error := by
  unfold ScopeArena.define Scopes.define
  rw [simulates.lookup?_eq]
  cases scopes.lookup? var.name with
  | some found =>
    constructor
    · intro refused
      cases refused
      rfl
    · intro refused
      cases refused
      rfl
  | none => exact ⟨fun refused => (nomatch refused), fun refused => (nomatch refused)⟩

end Simulates

/-- The visible names are those that are found. -/
theorem mem_visibleNames {scopes : Scopes} (simulates : arena.Simulates scopes) {name : String} :
    name ∈ arena.visibleNames ↔ (arena.lookup? name).isSome = true := by
  rw [simulates.perm_visibleNames.mem_iff, simulates.lookup?_eq, Scopes.mem_visibleNames]

/-- **The arena behaves as a stack of finite maps.** After any steps the look-ups and the visible names are those of the
stack after the same steps, and no name is visible twice. A declaration is refused just if its name is visible, and then
it changes nothing. And whatever balanced steps a nested scope has taken, after it is left every look-up gives what it
gave before. -/
theorem run_refines (steps : List ScopeStep) :
    let arena := empty.run steps
    let stack := ScopeStack.new.run steps
    (∀ name, arena.lookup? name = stack.lookup? name) ∧
      Multiset.ofList arena.visibleNames = stack.visibleNames ∧
      arena.visibleNames.Nodup ∧
      (∀ var, ((∃ error, arena.define var = .error error) ↔ var.name ∈ arena.visibleNames) ∧
        (var.name ∈ arena.visibleNames → arena.step (.define var) = arena)) ∧
      ∀ body, Scopes.Balanced body →
        ∀ name, (arena.run (.enter :: (body ++ [.exit]))).lookup? name = arena.lookup? name := by
  intro arena stack
  have same : arena.Represents stack := Represents.new.run steps
  have simulates : arena.Simulates (Scopes.empty.run steps) := Simulates.empty.run steps
  refine ⟨same.lookup?_eq, same.visibleNames_eq, simulates.nodup_visibleNames, ?_, ?_⟩
  · intro var
    rw [mem_visibleNames simulates]
    unfold step define
    dsimp only
    cases arena.lookup? var.name with
    | some found => exact ⟨⟨fun _ => rfl, fun _ => ⟨_, rfl⟩⟩, fun _ => rfl⟩
    | none =>
      exact ⟨⟨fun ⟨_, refused⟩ => (nomatch refused), fun visible => nomatch visible⟩, fun visible => nomatch visible⟩
  · intro body balanced name
    have ⟨_, _, listed⟩ := simulates
    have restored := Scopes.run_enter_exit balanced listed.listed.leveled
    rw [(simulates.run _).lookup?_eq, simulates.lookup?_eq, restored]

/-- A variable of no consequence. -/
def plainVariable (name : String) : LocalVariable := ⟨name, .void, false, .nowhere⟩

/-- A surplus exit, a name that is refused in a nested scope, and a scope that is left again. -/
def shadowingSteps : List ScopeStep :=
  [.exit, .define (plainVariable "x"), .enter, .define (plainVariable "x"), .define (plainVariable "y"), .exit,
    .define (plainVariable "z"), .enter, .define (plainVariable "y")]

/-- Steps that declare a name in two scopes one after the other. -/
def siblingSteps : List ScopeStep :=
  [.enter, .define (plainVariable "w"), .exit, .enter, .define (plainVariable "w"), .define (plainVariable "z"), .exit]

theorem run_refines_shadowingSteps :
    let arena := empty.run shadowingSteps
    Scopes.Balanced siblingSteps ∧ arena.visibleNames.Perm ["y", "z", "x"] ∧
      Multiset.ofList arena.visibleNames = (ScopeStack.new.run shadowingSteps).visibleNames ∧
      ∀ name, (arena.run (.enter :: (siblingSteps ++ [.exit]))).lookup? name = arena.lookup? name := by
  have balanced : Scopes.Balanced siblingSteps := .nest (.define _ .nil) (.nest (.define _ (.define _ .nil)) .nil)
  have listed : (Scopes.empty.run shadowingSteps).visibleNames = ["y", "z", "x"] := by decide
  have names := (Simulates.empty.run shadowingSteps).perm_visibleNames
  rw [listed] at names
  obtain ⟨-, same, -, -, restored⟩ := run_refines shadowingSteps
  exact ⟨balanced, names, same, restored siblingSteps balanced⟩

end ScopeArena

end DeclCheck
