import DeclCheck.Proofs.Steps
import DeclCheck.Scopes

/-!
# Visible variables without levels

Levels serve one purpose: leaving a level takes the visible variables back to those before it was
entered. This holds as long as no variable is listed at a level above the current one, and what a body
does in between only declares at its own level. The list of visible variables is then all that matters.
-/

namespace DeclCheck

/-- The parameters of a function as variables, the last one first. -/
def Param.variables (params : List Param) : List LocalVariable :=
  (params.map fun param => ⟨param.name.name, param.ty, param.mutable, param.name.location⟩).reverse

namespace Scopes

/-- The visible variables, the latest first. -/
def visible (scopes : Scopes) : List LocalVariable := scopes.declared.map (·.2)

/-- A name is looked up among the visible variables. -/
theorem lookup?_eq_find? (scopes : Scopes) (name : String) :
    scopes.lookup? name = scopes.visible.find? (·.name == name) := by
  simp only [lookup?, visible, List.find?_map]
  rfl

theorem visible_empty : empty.visible = [] := rfl

/-- **A variable can be declared when its name is not visible**, and then it is. -/
theorem define_eq_ok {scopes after : Scopes} {var : LocalVariable}
    (defined : scopes.define var = .ok after) :
    scopes.visible.find? (·.name == var.name) = none ∧
      after = { scopes with declared := (scopes.level, var) :: scopes.declared } := by
  simp only [define] at defined
  split at defined
  · cases defined
  · rename_i absent
    cases defined
    exact ⟨lookup?_eq_find? scopes var.name ▸ absent, rfl⟩

/-! ## Levels -/

/-- Whether no variable is listed above the current level. -/
def Leveled (scopes : Scopes) : Prop := ∀ entry ∈ scopes.declared, entry.1 ≤ scopes.level

/-- Whether variables were declared at the current level, and nothing else happened. -/
def Grown (scopes after : Scopes) : Prop :=
  after.level = scopes.level ∧
    ∃ added, after.declared = added ++ scopes.declared ∧ ∀ entry ∈ added, entry.1 = scopes.level

theorem leveled_empty : empty.Leveled := by
  intro entry mem
  cases mem

/-- Entering a scope puts the level above all variables. -/
theorem Leveled.enter {scopes : Scopes} (leveled : scopes.Leveled) : scopes.enter.Leveled :=
  fun entry mem => Nat.le_succ_of_le (leveled entry mem)

/-- Scopes that have grown have no variable above their level. -/
theorem Leveled.grown {scopes after : Scopes} (leveled : scopes.Leveled) (grown : scopes.Grown after) :
    after.Leveled := by
  obtain ⟨level, added, declared, own⟩ := grown
  intro entry mem
  rw [level]
  rw [declared] at mem
  rcases List.mem_append.mp mem with new | old
  · exact Nat.le_of_eq (own entry new)
  · exact leveled entry old

theorem Grown.refl (scopes : Scopes) : scopes.Grown scopes :=
  ⟨rfl, [], rfl, fun _ mem => by cases mem⟩

/-- Growth adds up. -/
theorem Grown.trans {first second third : Scopes} (one : first.Grown second)
    (two : second.Grown third) : first.Grown third := by
  obtain ⟨level, added, declared, own⟩ := one
  obtain ⟨level', added', declared', own'⟩ := two
  refine ⟨level'.trans level, added' ++ added, ?_, fun entry mem => ?_⟩
  · rw [declared', declared, List.append_assoc]
  · rcases List.mem_append.mp mem with late | early
    · rw [own' entry late, level]
    · exact own entry early

/-- Declaring a variable adds it at the level. -/
theorem Grown.of_define {scopes after : Scopes} {var : LocalVariable}
    (defined : scopes.define var = .ok after) : scopes.Grown after := by
  obtain ⟨-, rfl⟩ := define_eq_ok defined
  refine ⟨rfl, [(scopes.level, var)], rfl, fun entry mem => ?_⟩
  rw [List.mem_singleton.mp mem]

/-- **Leaving a level restores what was visible when it was entered.** -/
theorem Grown.exit_eq {scopes after : Scopes} (grown : scopes.enter.Grown after)
    (leveled : scopes.Leveled) : after.exit = scopes := by
  obtain ⟨level, added, declared, own⟩ := grown
  have inner : after.level = scopes.level + 1 := level
  have gone : added.filter (·.1 ≤ scopes.level) = [] := by
    refine List.filter_eq_nil_iff.mpr fun entry mem => ?_
    have at_inner : entry.1 = scopes.level + 1 := own entry mem
    simp only [decide_eq_true_eq]
    omega
  have stay : scopes.declared.filter (·.1 ≤ scopes.level) = scopes.declared :=
    List.filter_eq_self.mpr fun entry mem => decide_eq_true (leveled entry mem)
  have list : after.declared = added ++ scopes.declared := declared
  simp only [exit, inner, list, List.filter_append, gone, stay, List.nil_append]

end Scopes

end DeclCheck
