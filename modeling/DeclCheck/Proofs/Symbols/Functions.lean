import DeclCheck.Symbols.Functions
import DeclCheck.Proofs.Dict
import DeclCheck.Proofs.Ty.Equality

/-!
# What insertion does to the function table

A group grows at its end, by the inserted overload, unless it has an equal one; all other groups stay as
they are. Every overload equals itself, and of two overloads it does not matter which is compared with
which. What holds of every overload of a table is kept by inserting one more of which it holds. The first
such property is that each overload is listed under its own key: it holds of every table, since `insert` is
the only way to fill one.
-/

namespace DeclCheck

/-! ## Equal overloads -/

namespace FunctionDecl

theorem sameOverload_self (decl : FunctionDecl) : decl.sameOverload decl = true := by
  simp only [sameOverload, beq_self_eq_true, Ty.allEqual_self, Bool.and_self]

/-- Being the same overload goes both ways. -/
theorem sameOverload_comm (decl other : FunctionDecl) : decl.sameOverload other = other.sameOverload decl := by
  rw [sameOverload, sameOverload, Bool.beq_comm, Ty.allEqual_comm]

/-- The same overload has the same key. -/
theorem key_eq_of_sameOverload {decl other : FunctionDecl} (same : decl.sameOverload other = true) :
    decl.key = other.key := by
  rw [sameOverload, Bool.and_eq_true, beq_iff_eq] at same
  exact same.1

end FunctionDecl

namespace FunctionTable

/-! ## The groups afterwards -/

/-- A function is refused exactly if the same overload is there. -/
theorem insert?_eq_none_iff {table : FunctionTable} {decl : FunctionDecl} :
    table.insert? decl = none ↔ ∃ other ∈ table.overloads decl.key, other.sameOverload decl = true := by
  rw [insert?, ← List.any_eq_true]
  split
  · rename_i there
    exact iff_of_true rfl there
  · rename_i absent
    exact iff_of_false (Option.some_ne_none _) absent

/-- **A function joins the end of its group**, unless the same overload is in it. -/
theorem insert_eq (table : FunctionTable) (decl : FunctionDecl) :
    table.insert decl =
      if (table.overloads decl.key).any (·.sameOverload decl) = true then table
      else ⟨table.groups.insert decl.key (table.overloads decl.key ++ [decl])⟩ := by
  simp only [insert, insert?]
  split <;> rfl

/-- **Insertion adds an overload to the end of its own group**, or changes nothing. -/
theorem overloads_insert (table : FunctionTable) (decl : FunctionDecl) (key : FunctionKey) :
    (table.insert decl).overloads key =
      if key = decl.key ∧ ¬ (table.overloads key).any (·.sameOverload decl) = true then
        table.overloads key ++ [decl]
      else table.overloads key := by
  rw [insert_eq]
  by_cases there : (table.overloads decl.key).any (·.sameOverload decl) = true
  · rw [if_pos there, if_neg]
    rintro ⟨rfl, absent⟩
    exact absent there
  · rw [if_neg there]
    by_cases own : key = decl.key
    · subst own
      rw [if_pos ⟨rfl, there⟩]
      simp only [overloads, Dict.find?_insert_self, Option.getD_some]
    · rw [if_neg fun both => own both.1]
      simp only [overloads, Dict.find?_insert_of_ne _ _ own]

/-! ## Properties of all overloads -/

/-- Whether every listed overload satisfies a property, which may speak of the key it is listed under. -/
def Every (property : FunctionKey → FunctionDecl → Prop) (table : FunctionTable) : Prop :=
  table.groups.Every fun key group => ∀ decl ∈ group, property key decl

theorem every_empty (property : FunctionKey → FunctionDecl → Prop) : empty.Every property :=
  Dict.every_empty _

variable {property : FunctionKey → FunctionDecl → Prop} {table : FunctionTable}

/-- What holds of all entries holds of those under a key. -/
theorem Every.of_mem (every : table.Every property) {key : FunctionKey} {decl : FunctionDecl}
    (mem : decl ∈ table.overloads key) : property key decl := by
  cases found : table.groups.find? key with
  | none =>
    simp only [overloads, found, Option.getD_none] at mem
    cases mem
  | some group =>
    simp only [overloads, found, Option.getD_some] at mem
    exact Dict.Every.of_find? every found decl mem

/-- What holds of every overload and of the inserted one holds afterwards. -/
theorem Every.insert (every : table.Every property) {decl : FunctionDecl}
    (new : property decl.key decl) : (table.insert decl).Every property := by
  rw [insert_eq]
  split
  · exact every
  · refine Dict.Every.insert every fun other mem => ?_
    rcases List.mem_append.mp mem with old | last
    · exact every.of_mem old
    · cases List.mem_singleton.mp last
      exact new

/-- **Whether each overload is listed under its own key.** -/
def Keyed (table : FunctionTable) : Prop := table.Every fun key decl => decl.key = key

theorem keyed_empty : empty.Keyed := every_empty _

/-- A function is entered under its own key. -/
theorem Keyed.insert (keyed : table.Keyed) (decl : FunctionDecl) : (table.insert decl).Keyed :=
  Every.insert keyed rfl

end FunctionTable

end DeclCheck
