import DeclCheck.Proofs.Symbols.Functions
import DeclCheck.Proofs.Symbols.Keys

/-!
# The function table after any insertions

A function table is filled by insertions one after another, and each of them is accepted or refused. What the table
shows afterwards is said by the list of the accepted declarations alone. The group of a key has those with that key, in
the order in which they were accepted; all groups together have each of them once; and a further declaration is refused
just if an equal overload is among them. Equality of overloads is symmetric, though not transitive, so that no two
declarations of the list are equal whichever of them came first.

The list of all overloads is counted through the groups. For this the keys have to ascend, or a group could be listed
that no look-up finds, and no group may be empty, or the table would not be empty although nothing is in it.

How overloads compete for a call is no question here, and nothing is said of tables that were not filled by insertions.
-/

namespace DeclCheck

namespace FunctionTable

/-! ## Insertions one after another -/

/-- **The declarations that are accepted** when they are inserted one after another. -/
def accepted (table : FunctionTable) : List FunctionDecl → List FunctionDecl
  | [] => []
  | decl :: rest =>
    if (table.insert? decl).isSome then decl :: (table.insert decl).accepted rest else table.accepted rest

/-- Insertion that enters the key of the declaration, with an empty group if it is new, before it looks for an equal
overload. The answer says whether the declaration was accepted. -/
def insertInPlace (table : FunctionTable) (decl : FunctionDecl) : Bool × FunctionTable :=
  let groups := table.groups.insertNew decl.key []
  let group := (groups.find? decl.key).getD []
  if group.any (·.sameOverload decl) then (false, ⟨groups⟩)
  else (true, ⟨groups.insert decl.key (group ++ [decl])⟩)

theorem insert_of_insert?_eq_none {table : FunctionTable} {decl : FunctionDecl} (refused : table.insert? decl = none) :
    table.insert decl = table := by
  rw [insert, refused, Option.getD_none]

/-- **To enter the key first makes no difference.** A group that had to be entered is empty, and then the declaration is
accepted and the group is filled. -/
theorem insertInPlace_eq (table : FunctionTable) (decl : FunctionDecl) :
    table.insertInPlace decl = ((table.insert? decl).isSome, table.insert decl) := by
  have group : ((table.groups.insertNew decl.key []).find? decl.key).getD [] = table.overloads decl.key := by
    rw [Dict.find?_insertNew, overloads, if_pos rfl]
    cases table.groups.find? decl.key <;> rfl
  unfold insertInPlace insert insert?
  dsimp only
  rw [group]
  by_cases there : (table.overloads decl.key).any (·.sameOverload decl) = true
  · have known : table.groups.contains decl.key = true := by
      rw [Dict.contains, ← Option.ne_none_iff_isSome]
      intro unknown
      rw [overloads, unknown] at there
      cases there
    rw [if_pos there, if_pos there, Dict.insertNew, if_pos known]
    rfl
  · rw [if_neg there, if_neg there, Dict.insert_insertNew]
    rfl

/-! ## What a table holds -/

/-- **Whether a table holds a list of declarations**: its groups are the parts of the list, in order, and together they
are the whole list, in which no two declarations are equal overloads. -/
structure Holds (table : FunctionTable) (decls : List FunctionDecl) : Prop where
  grouped : ∀ key, table.overloads key = decls.filter (·.key == key)
  listed : table.all.Perm decls
  distinct : decls.Pairwise fun earlier later => earlier.sameOverload later = false
  ascending : table.groups.Ascending
  filled : table.groups.Every fun _ group => group ≠ []

theorem holds_empty : empty.Holds [] where
  grouped _ := rfl
  listed := .refl []
  distinct := .nil
  ascending := Dict.ascending_empty
  filled := Dict.every_empty _

namespace Holds

variable {table : FunctionTable} {decls : List FunctionDecl}

theorem mem_overloads (holds : table.Holds decls) {key : FunctionKey} {decl : FunctionDecl} :
    decl ∈ table.overloads key ↔ decl ∈ decls ∧ decl.key = key := by
  rw [holds.grouped, List.mem_filter, beq_iff_eq]

/-- **A declaration is refused just if an equal overload is held.** -/
theorem insert?_eq_none_iff (holds : table.Holds decls) {decl : FunctionDecl} :
    table.insert? decl = none ↔ ∃ earlier ∈ decls, earlier.sameOverload decl = true := by
  rw [FunctionTable.insert?_eq_none_iff]
  constructor
  · rintro ⟨other, listed, same⟩
    exact ⟨other, (holds.mem_overloads.mp listed).1, same⟩
  · rintro ⟨earlier, mem, same⟩
    exact ⟨earlier, holds.mem_overloads.mpr ⟨mem, FunctionDecl.key_eq_of_sameOverload same⟩, same⟩

/-- **An accepted declaration is held behind all others.** -/
theorem insert (holds : table.Holds decls) {decl : FunctionDecl} (new : (table.insert? decl).isSome = true) :
    (table.insert decl).Holds (decls ++ [decl]) := by
  have absent : ∀ earlier ∈ decls, earlier.sameOverload decl = false := by
    intro earlier mem
    rw [← Bool.not_eq_true]
    intro same
    rw [holds.insert?_eq_none_iff.mpr ⟨earlier, mem, same⟩] at new
    cases new
  have free : ¬ (table.overloads decl.key).any (·.sameOverload decl) = true := by
    intro there
    obtain ⟨other, listed, same⟩ := List.any_eq_true.mp there
    rw [absent other (holds.mem_overloads.mp listed).1] at same
    cases same
  have inserted : table.insert decl = ⟨table.groups.insert decl.key (table.overloads decl.key ++ [decl])⟩ := by
    rw [insert_eq, if_neg free]
  constructor
  case grouped =>
    intro key
    rw [overloads_insert, List.filter_append, ← holds.grouped key]
    by_cases own : key = decl.key
    · subst own
      rw [if_pos ⟨rfl, free⟩, List.filter_cons, if_pos (beq_self_eq_true _), List.filter_nil]
    · have other : ¬ (decl.key == key) = true := fun same => own (beq_iff_eq.mp same).symm
      rw [if_neg fun both => own both.1, List.filter_cons, if_neg other, List.filter_nil, List.append_nil]
  case listed =>
    rw [inserted]
    have grown : (all ⟨table.groups.insert decl.key (table.overloads decl.key ++ [decl])⟩).Perm (decl :: table.all) :=
      holds.ascending.perm_flatten_insert decl.key decl
    exact (grown.trans (holds.listed.cons decl)).trans (List.perm_append_singleton decl decls).symm
  case distinct =>
    refine List.pairwise_append.mpr ⟨holds.distinct, List.pairwise_singleton _ _, ?_⟩
    intro earlier mem last isLast
    rw [List.mem_singleton.mp isLast]
    exact absent earlier mem
  case ascending =>
    rw [inserted]
    exact holds.ascending.insert decl.key _
  case filled =>
    rw [inserted]
    exact holds.filled.insert (List.append_ne_nil_of_right_ne_nil _ (List.cons_ne_nil _ _))

/-- **A run of insertions adds what it accepts.** -/
theorem foldl_insert (holds : table.Holds decls) (more : List FunctionDecl) :
    (more.foldl .insert table).Holds (decls ++ table.accepted more) := by
  induction more generalizing table decls with
  | nil =>
    rw [accepted, List.append_nil]
    exact holds
  | cons decl rest ih =>
    rw [List.foldl_cons, accepted]
    split
    · rename_i new
      have later := ih (holds.insert new)
      rw [List.append_assoc] at later
      exact later
    · rename_i refused
      rw [insert_of_insert?_eq_none (Option.not_isSome_iff_eq_none.mp refused)]
      exact ih holds

theorem size_eq (holds : table.Holds decls) : table.size = decls.length := holds.listed.length_eq

/-- **A table is empty just if it holds nothing.** -/
theorem isEmpty_iff (holds : table.Holds decls) : table.isEmpty = true ↔ table.size = 0 := by
  rw [isEmpty, Dict.isEmpty, List.isEmpty_iff, size, List.length_eq_zero_iff, all, Dict.values]
  constructor
  · intro none
    rw [none]
    rfl
  · intro none
    cases entries : table.groups.entries with
    | nil => rfl
    | cons entry rest =>
      -- the first group is not empty, so there would be an overload
      have group := holds.filled entry (entries ▸ List.mem_cons_self)
      rw [entries, List.map_cons, List.flatten_cons] at none
      exact absurd (List.append_eq_nil_iff.mp none).1 group

/-- No two overloads of a group are equal, whichever is compared with which. -/
theorem pairwise_overloads (holds : table.Holds decls) (key : FunctionKey) :
    (table.overloads key).Pairwise fun earlier later =>
      earlier.sameOverload later = false ∧ later.sameOverload earlier = false := by
  rw [holds.grouped]
  refine (holds.distinct.sublist List.filter_sublist).imp fun {earlier later} different => ⟨different, ?_⟩
  rw [FunctionDecl.sameOverload_comm]
  exact different

end Holds

/-- **After any insertions a table shows the declarations that were accepted, and nothing else.** The group of a key has
those with that key, each with as many parameters as the key says, in the order in which they were accepted, and no two
of them are equal overloads. The next declaration is refused just if an equal overload was accepted before, and then the
table stays as it is, also if the key is entered before the group is searched. The size counts the accepted
declarations, and only a table of size zero is empty. -/
theorem foldl_insert_shows_accepted (decls : List FunctionDecl) :
    let table := decls.foldl .insert empty
    let accepted := empty.accepted decls
    (∀ key, table.overloads key = accepted.filter (·.key == key) ∧
      (∀ decl ∈ table.overloads key, decl.key = key ∧ decl.params.length = key.arity) ∧
      (table.overloads key).Pairwise fun earlier later =>
        earlier.sameOverload later = false ∧ later.sameOverload earlier = false) ∧
    (∀ decl, (table.insert? decl = none ↔ ∃ earlier ∈ accepted, earlier.sameOverload decl = true) ∧
      table.insertInPlace decl = ((table.insert? decl).isSome, table.insert decl) ∧
      (table.insert? decl = none → table.insert decl = table)) ∧
    table.size = accepted.length ∧ (table.isEmpty = true ↔ table.size = 0) := by
  intro table accepted
  have holds : table.Holds accepted := holds_empty.foldl_insert decls
  refine ⟨fun key => ⟨holds.grouped key, ?_, holds.pairwise_overloads key⟩, fun decl => ?_, holds.size_eq,
    holds.isEmpty_iff⟩
  · intro decl mem
    obtain ⟨-, rfl⟩ := holds.mem_overloads.mp mem
    exact ⟨rfl, rfl⟩
  · exact ⟨holds.insert?_eq_none_iff, table.insertInPlace_eq decl, insert_of_insert?_eq_none⟩

/-- An overload that shows a value of a type. -/
def showing (ty : Ty) : FunctionDecl where
  signature := [⟨"show", .nowhere⟩]
  affix := .before
  returnType := .void
  params := [⟨⟨"value", .nowhere⟩, ty, false⟩]
  body := []
  generics := []
  origin := ""
  location := .nowhere

/-- A written name that the integers and a struct answer to, optional. -/
def writtenInt : Ty := .app (.unresolved "Int" .nowhere) [] true

/-- Two overloads that differ, one that equals both of them, and two with placeholders, which are equal. -/
def showings : List FunctionDecl :=
  [showing (.builtin .integer), showing (.struct "Int" []), showing writtenInt, showing (.generic "T"),
    showing (.generic "U")]

/-- Three of the five are accepted, and the one that equals two of them is refused again. -/
theorem foldl_insert_shows_accepted_showings :
    let table := showings.foldl .insert empty
    let kept := [showing (.builtin .integer), showing (.struct "Int" []), showing (.generic "T")]
    table.overloads (showing writtenInt).key = kept ∧
      (∃ decl ∈ table.overloads (showing writtenInt).key, decl.params.length = 1) ∧
      table.insert? (showing writtenInt) = none ∧
      table.insertInPlace (showing writtenInt) = (false, table) ∧
      table.size = 3 ∧ table.isEmpty = false := by
  intro table kept
  have accepted : empty.accepted showings = kept := by rfl
  obtain ⟨groups, answers, size, isEmpty⟩ := foldl_insert_shows_accepted showings
  obtain ⟨group, keyed, -⟩ := groups (showing writtenInt).key
  obtain ⟨refused, inPlace, unchanged⟩ := answers (showing writtenInt)
  rw [accepted] at group size refused
  have listed : table.overloads (showing writtenInt).key = kept := group
  have first : showing (.builtin .integer) ∈ table.overloads (showing writtenInt).key := by
    rw [listed]
    exact List.mem_cons_self
  have none := refused.mpr ⟨showing (.builtin .integer), List.mem_cons_self, by decide⟩
  have full : ¬ table.isEmpty = true := by
    intro empty
    have zero := isEmpty.mp empty
    rw [size] at zero
    cases zero
  refine ⟨listed, ⟨_, first, (keyed _ first).2⟩, none, ?_, size, Bool.eq_false_iff.mpr full⟩
  rw [inPlace, none, unchanged none]
  rfl

end FunctionTable

end DeclCheck
