import DeclCheck.Ascending
import Mathlib.Data.List.Destutter
import Mathlib.Data.List.Nodup
import Mathlib.Data.List.Perm.Basic

/-!
# Ascending lists and sets

An ascending list is determined by its members. Inserting elements one at a time makes such a list of any other, so
the order in which the elements arrive and how often each of them does leave no trace. Sorting a list and then removing
equal neighbours makes the same list. How many comparisons either of them takes is not said.
-/

namespace DeclCheck.Ascending

/-- **Whether a comparison is a strict order in which any two different elements are comparable.** -/
structure Strict {α : Type u} (before : α → α → Bool) : Prop where
  irrefl : ∀ element, before element element = false
  trans : ∀ {first second third}, before first second = true → before second third = true →
    before first third = true
  total : ∀ {first second}, first ≠ second → before first second = true ∨ before second first = true

variable {α : Type u} {before : α → α → Bool}

theorem Strict.asymm (strict : Strict before) {first second : α} (less : before first second = true) :
    ¬ before second first = true := by
  intro greater
  have circle := strict.trans less greater
  rw [strict.irrefl] at circle
  cases circle

theorem Strict.nodup (strict : Strict before) {list : List α} (ascending : list.Pairwise (before · ·)) :
    list.Nodup := by
  refine ascending.imp ?_
  rintro first _ less rfl
  exact strict.asymm less less

/-- Not being smaller is transitive. -/
theorem Strict.trans_not (strict : Strict before) {first second third : α} (one : ¬ before second first = true)
    (two : ¬ before third second = true) : ¬ before third first = true := by
  intro smaller
  by_cases same : first = second
  · subst same
    exact two smaller
  · have less := (strict.total same).resolve_right one
    exact two (strict.trans smaller less)

/-! ## Sorting -/

/-- A list in order, with equal elements next to each other. -/
def sorted (before : α → α → Bool) (list : List α) : List α :=
  list.mergeSort fun first second => !before second first

/-- Sorting neither adds an element nor loses one. -/
theorem mem_sorted {list : List α} {element : α} : element ∈ sorted before list ↔ element ∈ list :=
  (List.mergeSort_perm list _).mem_iff

/-- In a sorted list no element is smaller than one that stands ahead of it. -/
theorem pairwise_sorted (strict : Strict before) (list : List α) :
    (sorted before list).Pairwise fun first second => ¬ before second first = true := by
  have ordered : (sorted before list).Pairwise fun first second => (!before second first) = true := by
    refine List.pairwise_mergeSort ?_ ?_ list
    · intro first second third one two
      simp only [Bool.not_eq_true', ← Bool.not_eq_true] at one two ⊢
      exact strict.trans_not one two
    · intro first second
      by_cases less : before second first = true
      · simp only [strict.asymm less, Bool.not_false, Bool.or_true]
      · simp only [less, Bool.not_false, Bool.true_or]
  refine ordered.imp fun kept => ?_
  rwa [Bool.not_eq_true', ← Bool.not_eq_true] at kept

variable [DecidableEq α]

/-! ## Inserting one element at a time -/

/-- Inserting an element adds it, and nothing else. -/
theorem mem_insert {element other : α} {list : List α} :
    other ∈ insert before element list ↔ other = element ∨ other ∈ list := by
  induction list with
  | nil => rw [insert, List.mem_singleton, or_iff_left List.not_mem_nil]
  | cons first rest ih =>
    unfold insert
    split
    · rename_i same
      subst same
      rw [List.mem_cons, or_self_left]
    · split
      · rw [List.mem_cons]
      · rw [List.mem_cons, ih, List.mem_cons, or_left_comm]

/-- **The list has the given elements and no others.** -/
theorem mem_ofList {element : α} {list : List α} : element ∈ ofList before list ↔ element ∈ list := by
  induction list with
  | nil => exact Iff.rfl
  | cons first rest ih => rw [ofList, mem_insert, ih, List.mem_cons]

theorem pairwise_insert (strict : Strict before) (element : α) {list : List α}
    (ascending : list.Pairwise (before · ·)) : (insert before element list).Pairwise (before · ·) := by
  induction list with
  | nil => exact List.pairwise_singleton _ _
  | cons first rest ih =>
    obtain ⟨ahead, others⟩ := List.pairwise_cons.mp ascending
    unfold insert
    split
    · exact ascending
    · rename_i different
      split
      · rename_i smaller
        refine List.pairwise_cons.mpr ⟨?_, ascending⟩
        intro other mem
        rcases List.mem_cons.mp mem with rfl | later
        · exact smaller
        · exact strict.trans smaller (ahead other later)
      · rename_i greater
        refine List.pairwise_cons.mpr ⟨?_, ih others⟩
        intro other mem
        rcases mem_insert.mp mem with rfl | later
        · exact (strict.total different).resolve_left greater
        · exact ahead other later

/-- **The list ascends**, and so has no element twice. -/
theorem pairwise_ofList (strict : Strict before) (list : List α) : (ofList before list).Pairwise (before · ·) := by
  induction list with
  | nil => exact List.Pairwise.nil
  | cons first rest ih => exact pairwise_insert strict first ih

/-- **An ascending list is determined by its elements.** -/
theorem eq_ofList (strict : Strict before) {list ascending : List α} (ordered : ascending.Pairwise (before · ·))
    (same : ∀ element, element ∈ ascending ↔ element ∈ list) : ascending = ofList before list := by
  have built := pairwise_ofList strict list
  apply List.Perm.eq_of_pairwise _ ordered built
  · apply (List.perm_ext_iff_of_nodup (strict.nodup ordered) (strict.nodup built)).mpr
    intro element
    rw [mem_ofList, same]
  · intro low high _ _ less greater
    exact absurd greater (strict.asymm less)

/-- **Lists of the same elements make the same ascending list**, in whatever order and however often these stand. -/
theorem ofList_congr (strict : Strict before) {first second : List α}
    (same : ∀ element, element ∈ first ↔ element ∈ second) : ofList before first = ofList before second := by
  apply eq_ofList strict (pairwise_ofList strict first)
  intro element
  rw [mem_ofList, same]

/-! ## Removing equal neighbours -/

/-- A list with the first of each row of equal neighbours. -/
def withoutRepeats (list : List α) : List α := list.destutter (· ≠ ·)

theorem mem_destutter'_ne {first element : α} {list : List α} :
    element ∈ list.destutter' (· ≠ ·) first ↔ element ∈ first :: list := by
  induction list generalizing first with
  | nil => rfl
  | cons next rest ih =>
    rw [List.destutter'_cons]
    split
    next => rw [List.mem_cons, ih, ← List.mem_cons]
    next same =>
      rw [not_not] at same
      rw [ih, same, List.mem_cons, List.mem_cons, List.mem_cons, or_self_left]

/-- Only repetitions are removed. -/
theorem mem_withoutRepeats {element : α} {list : List α} : element ∈ withoutRepeats list ↔ element ∈ list := by
  cases list with
  | nil => rfl
  | cons first rest => exact mem_destutter'_ne

/-- Where no element is smaller than one ahead of it, those that are left ascend: neighbours differ, so each is smaller
than the next. -/
theorem pairwise_withoutRepeats (strict : Strict before) {list : List α}
    (ordered : list.Pairwise fun first second => ¬ before second first = true) :
    (withoutRepeats list).Pairwise (before · ·) := by
  have kept : (withoutRepeats list).Pairwise fun first second => ¬ before second first = true :=
    ordered.sublist (List.destutter_sublist (· ≠ ·) list)
  have different : (withoutRepeats list).IsChain (· ≠ ·) := List.isChain_destutter _ list
  have ascending : (withoutRepeats list).IsChain (before · ·) := by
    rw [List.isChain_iff_getElem] at different ⊢
    intro place inside
    have ahead := List.pairwise_iff_getElem.mp kept place (place + 1) (by omega) inside (Nat.lt_succ_self place)
    exact (strict.total (different place inside)).resolve_right ahead
  have : Trans (before · · = true) (before · · = true) (before · · = true) := ⟨strict.trans⟩
  exact List.isChain_iff_pairwise.mp ascending

/-- **Sorting a list and removing equal neighbours gives the list of its elements in ascending order.** -/
theorem withoutRepeats_sorted (strict : Strict before) (list : List α) :
    withoutRepeats (sorted before list) = ofList before list := by
  apply eq_ofList strict (pairwise_withoutRepeats strict (pairwise_sorted strict list))
  intro element
  rw [mem_withoutRepeats, mem_sorted]

end DeclCheck.Ascending
