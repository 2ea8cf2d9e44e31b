import DeclCheck.Proofs.Scopes
import Mathlib.Data.Finmap

/-!
# Scopes as a stack of finite maps

The variables of a body are kept in one list, each with the level it was declared at. Seen from outside this is a stack
of finite maps from names to variables, one map for each level that was entered and not left: to enter a level pushes an
empty map, to leave it pops the map again, and a variable is added to the map on top. The outermost map stays.

The list holds the maps one after another, the top one first, because a variable is always declared at the current level
and no variable of a higher level is left in the list. No name is ever declared twice, so the maps have no name in
common.

The table with one scope for each level, in which none is dropped, is compared with the same stacks in
`Proofs.ScopeArena`.
-/

namespace DeclCheck

/-! ## Steps -/

/-- What a body does with its variables. -/
inductive ScopeStep where
  | define (var : LocalVariable)
  | enter
  | exit

namespace Scopes

/-- The scopes after a step. A declaration that is refused leaves them as they are. -/
def step (scopes : Scopes) : ScopeStep → Scopes
  | .define var => (scopes.define var).toOption.getD scopes
  | .enter => scopes.enter
  | .exit => scopes.exit

/-- The scopes after several steps. -/
def run (scopes : Scopes) (steps : List ScopeStep) : Scopes := steps.foldl step scopes

end Scopes

/-! ## Stacks -/

/-- The variables of one level by their names. -/
abbrev VariableMap := Finmap fun _ : String => LocalVariable

/-- **A stack of finite maps** that is never empty: the last of those below is the outermost one. -/
structure ScopeStack where
  top : VariableMap
  below : List VariableMap

namespace ScopeStack

/-- The stack of an empty outermost map. -/
def new : ScopeStack := ⟨∅, []⟩

/-- The variable of a name in the uppermost map that has the name. -/
def lookup? (stack : ScopeStack) (name : String) : Option LocalVariable :=
  (stack.top :: stack.below).findSome? (·.lookup name)

/-- The names of all maps. -/
def visibleNames (stack : ScopeStack) : Multiset String :=
  (stack.top :: stack.below).foldr (fun map names => map.keys.val + names) 0

/-- Push an empty map. -/
def enter (stack : ScopeStack) : ScopeStack := ⟨∅, stack.top :: stack.below⟩

/-- Pop the top map, unless it is the outermost one. -/
def exit (stack : ScopeStack) : ScopeStack :=
  match stack.below with
  | [] => stack
  | next :: rest => ⟨next, rest⟩

/-- Add a variable to the top map, unless its name is visible. -/
def define? (stack : ScopeStack) (var : LocalVariable) : Option ScopeStack :=
  if (stack.lookup? var.name).isSome then none else some { stack with top := stack.top.insert var.name var }

/-- The stack after a step. -/
def step (stack : ScopeStack) : ScopeStep → ScopeStack
  | .define var => (stack.define? var).getD stack
  | .enter => stack.enter
  | .exit => stack.exit

/-- The stack after several steps. -/
def run (stack : ScopeStack) (steps : List ScopeStep) : ScopeStack := steps.foldl step stack

end ScopeStack

/-! ## Lists as maps -/

/-- The map of a list of variables. -/
def VariableMap.ofList (vars : List LocalVariable) : VariableMap :=
  vars.foldr (fun var map => map.insert var.name var) ∅

/-- A map of variables finds the first of a name. -/
theorem VariableMap.lookup_ofList (vars : List LocalVariable) (name : String) :
    (ofList vars).lookup name = vars.find? (·.name == name) := by
  induction vars with
  | nil => exact Finmap.lookup_empty name
  | cons var rest ih =>
    rw [ofList, List.foldr_cons, List.find?_cons]
    by_cases own : var.name = name
    · subst own
      rw [Finmap.lookup_insert, beq_self_eq_true]
    · rw [Finmap.lookup_insert_of_ne _ (Ne.symm own), beq_false_of_ne own]
      exact ih

/-- It has the names of the variables. -/
theorem VariableMap.mem_ofList {vars : List LocalVariable} {name : String} :
    name ∈ ofList vars ↔ name ∈ vars.map (·.name) := by
  rw [← Finmap.lookup_isSome, lookup_ofList, List.find?_isSome, List.mem_map]
  simp only [beq_iff_eq]

/-- A variable under a new name adds its name to the keys. -/
theorem VariableMap.keys_insert {map : VariableMap} {var : LocalVariable} (fresh : var.name ∉ map) :
    (map.insert var.name var).keys.val = var.name ::ₘ map.keys.val := by
  show (map.insert var.name var).entries.keys = _
  rw [Finmap.entries_insert_of_notMem fresh, Multiset.keys_cons]
  rfl

/-- It has each once, if they are distinct. -/
theorem VariableMap.keys_ofList {vars : List LocalVariable} (distinct : (vars.map (·.name)).Nodup) :
    (ofList vars).keys.val = (vars.map (·.name) : List String) := by
  induction vars with
  | nil => rfl
  | cons var rest ih =>
    rw [List.map_cons, List.nodup_cons] at distinct
    have fresh : var.name ∉ ofList rest := mt mem_ofList.mp distinct.1
    show ((ofList rest).insert var.name var).keys.val = _
    rw [keys_insert fresh, ih distinct.2]
    rfl

namespace Scopes

/-! ## The list of scopes as a stack -/

/-- **Whether a list of variables with their levels holds the maps of a stack one after another**, each map at its own
level and the top one at the current level. -/
inductive Listed : Nat → List (Nat × LocalVariable) → VariableMap → List VariableMap → Prop
  | outermost (own : List LocalVariable) : Listed 0 (own.map (0, ·)) (.ofList own) []
  | nested (own : List LocalVariable) {level : Nat} {declared : List (Nat × LocalVariable)} {top : VariableMap}
      {below : List VariableMap} (outer : Listed level declared top below) :
      Listed (level + 1) (own.map (level + 1, ·) ++ declared) (.ofList own) (top :: below)

section

variable {level : Nat} {declared : List (Nat × LocalVariable)} {top : VariableMap} {below : List VariableMap}

/-- A variable that is declared at the current level joins the top map. -/
theorem Listed.define (listed : Listed level declared top below) (var : LocalVariable) :
    Listed level ((level, var) :: declared) (top.insert var.name var) below := by
  cases listed with
  | outermost own => exact .outermost (var :: own)
  | nested own outer => exact .nested (var :: own) outer

/-- No variable stands above the current level. -/
theorem Listed.leveled (listed : Listed level declared top below) : (Scopes.mk level declared).Leveled := by
  induction listed with
  | outermost own =>
    intro entry mem
    obtain ⟨var, -, rfl⟩ := List.mem_map.mp mem
    exact Nat.le_refl 0
  | @nested own level declared top below outer ih =>
    intro entry mem
    rcases List.mem_append.mp mem with new | old
    · obtain ⟨var, -, rfl⟩ := List.mem_map.mp new
      exact Nat.le_refl (level + 1)
    · exact Nat.le_succ_of_le (ih entry old)

/-- Leaving a level leaves the list of the maps below. -/
theorem Listed.exit (own : List LocalVariable) (outer : Listed level declared top below) :
    (Scopes.mk (level + 1) (own.map (level + 1, ·) ++ declared)).exit = ⟨level, declared⟩ := by
  have grown : (Scopes.mk level declared).enter.Grown ⟨level + 1, own.map (level + 1, ·) ++ declared⟩ := by
    refine ⟨rfl, own.map (level + 1, ·), rfl, ?_⟩
    intro entry mem
    obtain ⟨var, -, rfl⟩ := List.mem_map.mp mem
    rfl
  exact grown.exit_eq outer.leveled

/-- Levels do not change names. -/
theorem map_name_at (level : Nat) (own : List LocalVariable) :
    (own.map (level, ·)).map (·.2.name) = own.map (·.name) := by
  rw [List.map_map]
  rfl

/-- **The variable of a name is the one that the uppermost map with the name has.** -/
theorem Listed.find?_eq (listed : Listed level declared top below) (name : String) :
    (declared.find? (·.2.name == name)).map (·.2) = (top :: below).findSome? (·.lookup name) := by
  have at_level (level : Nat) (own : List LocalVariable) :
      ((own.map (level, ·)).find? (·.2.name == name)).map (·.2) = (VariableMap.ofList own).lookup name := by
    rw [VariableMap.lookup_ofList, List.find?_map, Option.map_map]
    exact Option.map_id'
  induction listed with
  | outermost own => rw [at_level, List.findSome?_singleton]
  | @nested own level declared top below outer ih =>
    have cut : (VariableMap.ofList own :: top :: below).findSome? (·.lookup name) =
        ((VariableMap.ofList own).lookup name).or ((top :: below).findSome? (·.lookup name)) := by
      rw [List.findSome?_cons]
      cases (VariableMap.ofList own).lookup name <;> rfl
    rw [List.find?_append, Option.map_or, at_level, ih, cut]

/-- **The names are those of all maps**, as long as none is declared twice. -/
theorem Listed.names_eq (listed : Listed level declared top below) (distinct : (declared.map (·.2.name)).Nodup) :
    Multiset.ofList (declared.map (·.2.name)) =
      (top :: below).foldr (fun map names => map.keys.val + names) 0 := by
  induction listed with
  | outermost own =>
    rw [map_name_at] at distinct ⊢
    rw [List.foldr_cons, List.foldr_nil, VariableMap.keys_ofList distinct, add_zero]
  | @nested own level declared top below outer ih =>
    rw [List.map_append, map_name_at, List.nodup_append] at distinct
    rw [List.map_append, map_name_at, List.foldr_cons, VariableMap.keys_ofList distinct.1, ← ih distinct.2.1]
    rfl

end

/-! ## The refinement -/

/-- **Whether scopes represent a stack**: their list holds its maps, and no name is declared twice. -/
structure Represents (scopes : Scopes) (stack : ScopeStack) : Prop where
  listed : Listed scopes.level scopes.declared stack.top stack.below
  distinct : scopes.visibleNames.Nodup

namespace Represents

variable {scopes : Scopes} {stack : ScopeStack}

theorem new : Represents .empty .new := ⟨.outermost [], List.nodup_nil⟩

/-- A name is found in the list of variables exactly as it is found in the stack. -/
theorem lookup?_eq (same : Represents scopes stack) (name : String) : scopes.lookup? name = stack.lookup? name :=
  same.listed.find?_eq name

/-- The visible names are the same, each as often. -/
theorem visibleNames_eq (same : Represents scopes stack) :
    Multiset.ofList scopes.visibleNames = stack.visibleNames :=
  same.listed.names_eq same.distinct

/-- Entering a scope puts an empty map on the stack. -/
theorem enter (same : Represents scopes stack) : Represents scopes.enter stack.enter :=
  ⟨.nested [] same.listed, same.distinct⟩

/-- Leaving one takes off what was declared since. -/
theorem exit (same : Represents scopes stack) : Represents scopes.exit stack.exit := by
  obtain ⟨level, declared⟩ := scopes
  obtain ⟨top, below⟩ := stack
  obtain ⟨listed, distinct⟩ := same
  cases listed with
  | outermost own => exact ⟨.outermost own, distinct⟩
  | @nested own level declared top below outer =>
    show Represents (Scopes.mk (level + 1) (own.map (level + 1, ·) ++ declared)).exit ⟨top, below⟩
    rw [Listed.exit own outer]
    refine ⟨outer, ?_⟩
    have whole : ((own.map (level + 1, ·) ++ declared).map (·.2.name)).Nodup := distinct
    rw [List.map_append] at whole
    exact (List.nodup_append.mp whole).2.1

end Represents

/-- The visible names are those that are found. -/
theorem mem_visibleNames {scopes : Scopes} {name : String} :
    name ∈ scopes.visibleNames ↔ (scopes.lookup? name).isSome = true := by
  unfold visibleNames lookup?
  rw [Option.isSome_map, List.find?_isSome, List.mem_map]
  simp only [beq_iff_eq]

/-- **A declaration is refused just if its name is visible.** -/
theorem define_eq (scopes : Scopes) (var : LocalVariable) :
    scopes.define var =
      if var.name ∈ scopes.visibleNames then refuse (.variableRedeclared var.name) var.location
      else .ok { scopes with declared := (scopes.level, var) :: scopes.declared } := by
  unfold define
  by_cases visible : var.name ∈ scopes.visibleNames
  · obtain ⟨found, there⟩ := Option.isSome_iff_exists.mp (mem_visibleNames.mp visible)
    rw [if_pos visible, there]
  · have absent : scopes.lookup? var.name = none := by
      rw [← Option.not_isSome_iff_eq_none]
      exact mt mem_visibleNames.mpr visible
    rw [if_neg visible, absent]

/-- A name joins the innermost map, or is refused by both. -/
theorem Represents.define {scopes : Scopes} {stack : ScopeStack} (same : Represents scopes stack)
    (var : LocalVariable) : Represents (scopes.step (.define var)) (stack.step (.define var)) := by
  have visible : (stack.lookup? var.name).isSome = true ↔ var.name ∈ scopes.visibleNames := by
    rw [← same.lookup?_eq, mem_visibleNames]
  unfold Scopes.step ScopeStack.step ScopeStack.define?
  dsimp only
  rw [define_eq]
  by_cases there : var.name ∈ scopes.visibleNames
  · rw [if_pos there, if_pos (visible.mpr there)]
    exact same
  · rw [if_neg there, if_neg (mt visible.mp there)]
    exact ⟨same.listed.define var, List.nodup_cons.mpr ⟨there, same.distinct⟩⟩

/-- **A step keeps the representation.** -/
theorem Represents.step {scopes : Scopes} {stack : ScopeStack} (same : Represents scopes stack) (step : ScopeStep) :
    Represents (scopes.step step) (stack.step step) := by
  cases step with
  | define var => exact same.define var
  | enter => exact same.enter
  | exit => exact same.exit

/-- **So does a run.** -/
theorem Represents.run {scopes : Scopes} {stack : ScopeStack} (same : Represents scopes stack)
    (steps : List ScopeStep) : Represents (scopes.run steps) (stack.run steps) := by
  induction steps generalizing scopes stack with
  | nil => exact same
  | cons first rest ih => exact ih (same.step first)

/-! ## Balanced steps -/

/-- **Whether steps leave every level that they enter, and no other.** -/
inductive Balanced : List ScopeStep → Prop
  | nil : Balanced []
  | define (var : LocalVariable) {rest : List ScopeStep} (later : Balanced rest) : Balanced (.define var :: rest)
  | nest {inner rest : List ScopeStep} (body : Balanced inner) (later : Balanced rest) :
      Balanced (.enter :: (inner ++ .exit :: rest))

/-- Steps are taken one after another. -/
theorem run_append (scopes : Scopes) (first second : List ScopeStep) :
    scopes.run (first ++ second) = (scopes.run first).run second :=
  List.foldl_append

/-- Declaring lets the scopes grow. -/
theorem Grown.of_step_define (scopes : Scopes) (var : LocalVariable) : scopes.Grown (scopes.step (.define var)) := by
  unfold step
  dsimp only
  cases defined : scopes.define var with
  | error _ => exact Grown.refl scopes
  | ok after => exact Grown.of_define defined

/-- Balanced steps declare variables at the current level, as far as one can see afterwards. -/
theorem Grown.of_balanced {steps : List ScopeStep} (balanced : Balanced steps) {scopes : Scopes}
    (leveled : scopes.Leveled) : scopes.Grown (scopes.run steps) := by
  induction balanced generalizing scopes with
  | nil => exact Grown.refl scopes
  | define var _ ih =>
    have first := Grown.of_step_define scopes var
    exact first.trans (ih (leveled.grown first))
  | @nest inner rest _ _ body later =>
    have restored : (scopes.enter.run inner).exit = scopes := (body leveled.enter).exit_eq leveled
    show scopes.Grown (scopes.enter.run (inner ++ .exit :: rest))
    rw [run_append]
    show scopes.Grown ((scopes.enter.run inner).exit.run rest)
    rw [restored]
    exact later leveled

/-- **To enter a level, take balanced steps and leave it again restores the scopes.** -/
theorem run_enter_exit {body : List ScopeStep} (balanced : Balanced body) {scopes : Scopes} (leveled : scopes.Leveled) :
    scopes.run (.enter :: (body ++ [.exit])) = scopes := by
  show scopes.enter.run (body ++ [.exit]) = scopes
  rw [run_append]
  exact (Grown.of_balanced balanced leveled.enter).exit_eq leveled

end Scopes

end DeclCheck
