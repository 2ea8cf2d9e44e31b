import DeclCheck.Dict

/-!
# What insertion does to a dictionary

Insertion is seen in three ways. By look-up: the inserted key has the new value, and every other key the
value it had. By entries: every entry afterwards is the inserted one or an earlier one, so that whatever
holds of all entries and of the new one holds afterwards. Neither needs the order of the keys. By order:
ascending keys stay so, and then no key has a second entry that look-up does not see, so that the entries
can be counted. Replacing all values at once changes what is found and nothing else, and it does not matter
whether that is done before an insertion or after it.
-/

namespace DeclCheck

namespace Dict

variable {κ : Type u} {α : Type v}

/-- Whether every entry satisfies a property of a key and its value. -/
def Every (property : κ → α → Prop) (dict : Dict κ α) : Prop :=
  ∀ entry ∈ dict.entries, property entry.1 entry.2

/-- Of no entries everything holds. -/
theorem every_empty (property : κ → α → Prop) : (empty : Dict κ α).Every property :=
  fun _ mem => nomatch mem

/-! ## By look-up -/

variable [DecidableEq κ]

/-- The first entry is looked at first. -/
private theorem lookup_entry (entries : List (κ × α)) (head other : κ) (value : α) :
    ((head, value) :: entries).lookup other =
      if other = head then some value else entries.lookup other := by
  by_cases same : other = head
  · simp [same]
  · simp [List.lookup_cons, beq_false_of_ne same, same]

/-- An entry that is found is listed. -/
theorem mem_of_find?_eq_some {dict : Dict κ α} {key : κ} {value : α}
    (found : dict.find? key = some value) : (key, value) ∈ dict.entries := by
  obtain ⟨entries⟩ := dict
  simp only [find?] at found
  induction entries with
  | nil => cases found
  | cons entry rest ih =>
    rw [lookup_entry] at found
    split at found
    · rename_i same
      cases found
      exact same ▸ List.mem_cons_self
    · exact List.mem_cons_of_mem _ (ih found)

/-- A property of all entries holds of what is found. -/
theorem Every.of_find? {property : κ → α → Prop} {dict : Dict κ α} (every : dict.Every property)
    {key : κ} {value : α} (found : dict.find? key = some value) : property key value :=
  every _ (mem_of_find?_eq_some found)

variable [Ord κ]

/-- An entry that is inserted is found under its key, and all others as before. -/
private theorem lookup_insertEntry (entries : List (κ × α)) (key other : κ) (value : α) :
    (insertEntry key value entries).lookup other =
      if other = key then some value else entries.lookup other := by
  induction entries with
  | nil => exact lookup_entry [] key other value
  | cons entry rest ih =>
    simp only [insertEntry]
    split
    · rename_i there
      rw [lookup_entry, lookup_entry, there]
      split <;> rfl
    · rename_i there
      split
      · rw [lookup_entry]
      · rw [lookup_entry, lookup_entry, ih]
        -- the entry stands in the way of its own key only, which is not the inserted one
        by_cases same : other = key
        · rw [if_neg (fun head => there (head.symm.trans same)), if_pos same, if_pos same]
        · rw [if_neg same, if_neg same]

/-- **Insertion changes the value of one key.** -/
theorem find?_insert (dict : Dict κ α) (key other : κ) (value : α) :
    (dict.insert key value).find? other = if other = key then some value else dict.find? other :=
  lookup_insertEntry dict.entries key other value

/-- What is inserted is found. -/
@[simp] theorem find?_insert_self (dict : Dict κ α) (key : κ) (value : α) :
    (dict.insert key value).find? key = some value := by
  rw [find?_insert, if_pos rfl]

/-- Under other keys all is found as before. -/
theorem find?_insert_of_ne (dict : Dict κ α) {key other : κ} (value : α) (different : other ≠ key) :
    (dict.insert key value).find? other = dict.find? other := by
  rw [find?_insert, if_neg different]

/-- An entry that is new is found only where there was none. -/
theorem find?_insertNew (dict : Dict κ α) (key other : κ) (value : α) :
    (dict.insertNew key value).find? other = (dict.find? other).or (if other = key then some value else none) := by
  unfold insertNew contains
  by_cases same : other = key
  · subst same
    cases found : dict.find? other <;> simp [found]
  · rw [if_neg same, Option.or_none]
    split
    · rfl
    · exact find?_insert_of_ne dict value same

/-- **New entries add to what is found**, and change nothing that was. -/
theorem find?_foldl_insertNew (entries : List (κ × α)) (dict : Dict κ α) (key : κ) :
    (entries.foldl (fun dict entry => dict.insertNew entry.1 entry.2) dict).find? key =
      (dict.find? key).or (entries.lookup key) := by
  induction entries generalizing dict with
  | nil => rw [List.foldl_nil, List.lookup_nil, Option.or_none]
  | cons entry rest ih =>
    rw [List.foldl_cons, ih, find?_insertNew, lookup_entry, Option.or_assoc]
    by_cases same : key = entry.1
    · rw [if_pos same, if_pos same, Option.some_or]
    · rw [if_neg same, if_neg same, Option.none_or]

/-! ## By entries -/

/-- Inserting adds one entry at most. -/
private theorem mem_insertEntry {entries : List (κ × α)} {key : κ} {value : α} {entry : κ × α}
    (mem : entry ∈ insertEntry key value entries) : entry = (key, value) ∨ entry ∈ entries := by
  induction entries with
  | nil => exact Or.inl (List.mem_singleton.mp mem)
  | cons head rest ih =>
    simp only [insertEntry] at mem
    split at mem
    · rcases List.mem_cons.mp mem with new | old
      · exact Or.inl new
      · exact Or.inr (List.mem_cons_of_mem _ old)
    · split at mem
      · exact List.mem_cons.mp mem
      · rcases List.mem_cons.mp mem with rfl | later
        · exact Or.inr List.mem_cons_self
        · rcases ih later with new | old
          · exact Or.inl new
          · exact Or.inr (List.mem_cons_of_mem _ old)

/-- **What holds of all entries and of the inserted one holds afterwards.** -/
theorem Every.insert {property : κ → α → Prop} {dict : Dict κ α} (every : dict.Every property)
    {key : κ} {value : α} (new : property key value) : (dict.insert key value).Every property := by
  intro entry mem
  rcases mem_insertEntry mem with rfl | old
  · exact new
  · exact every entry old

/-- What holds of all entries and of a new one holds of all then. -/
theorem Every.insertNew {property : κ → α → Prop} {dict : Dict κ α} (every : dict.Every property)
    {key : κ} {value : α} (new : property key value) : (dict.insertNew key value).Every property := by
  unfold Dict.insertNew
  split
  · exact every
  · exact every.insert new

/-- An inserted value leaves no trace of the one that was inserted before. -/
theorem insert_insert (dict : Dict κ α) (key : κ) (old new : α) :
    (dict.insert key old).insert key new = dict.insert key new := by
  obtain ⟨entries⟩ := dict
  simp only [insert, mk.injEq]
  induction entries with
  | nil => simp only [insertEntry, if_true]
  | cons entry rest ih =>
    by_cases same : entry.1 = key
    · simp only [insertEntry, if_pos same, if_true]
    · by_cases smaller : (compare key entry.1).isLT = true
      · simp only [insertEntry, if_neg same, if_pos smaller, if_true]
      · simp only [insertEntry, if_neg same, if_neg smaller, ih]

/-- An entry that is overwritten at once leaves no trace. -/
theorem insert_insertNew (dict : Dict κ α) (key : κ) (old new : α) :
    (dict.insertNew key old).insert key new = dict.insert key new := by
  unfold insertNew
  split
  · rfl
  · exact insert_insert dict key old new

/-! ## By order -/

/-- **Whether the keys ascend**, as they do in every dictionary that is made by insertions. -/
def Ascending (dict : Dict κ α) : Prop :=
  dict.entries.Pairwise fun entry later => compare entry.1 later.1 = .lt

omit [DecidableEq κ] in
theorem ascending_empty : (empty : Dict κ α).Ascending := List.Pairwise.nil

variable [Std.TransOrd κ]

/-- A key that is smaller than all others is not there. -/
private theorem lookup_eq_none_of_lt {entries : List (κ × α)} {key : κ}
    (ahead : ∀ entry ∈ entries, compare key entry.1 = .lt) : entries.lookup key = none := by
  refine List.lookup_eq_none_iff.mpr fun entry mem => ?_
  rw [bne_iff_ne]
  intro same
  have less := ahead entry mem
  rw [← same, Std.ReflOrd.compare_self] at less
  cases less

omit [DecidableEq κ] in
/-- What is smaller than the first key is smaller than all. -/
private theorem lt_of_lt_head {entry : κ × α} {rest : List (κ × α)} {key : κ} (less : compare key entry.1 = .lt)
    (ahead : ∀ later ∈ rest, compare entry.1 later.1 = .lt) :
    ∀ later ∈ entry :: rest, compare key later.1 = .lt := by
  refine List.forall_mem_cons.mpr ⟨less, fun later mem => ?_⟩
  exact Std.TransCmp.lt_trans less (ahead later mem)

/-- **Insertion keeps the order of the keys.** -/
theorem Ascending.insert [Std.LawfulEqOrd κ] {dict : Dict κ α} (ascending : dict.Ascending) (key : κ) (value : α) :
    (dict.insert key value).Ascending := by
  obtain ⟨entries⟩ := dict
  simp only [Ascending, Dict.insert] at ascending ⊢
  induction entries with
  | nil => exact List.pairwise_singleton _ _
  | cons entry rest ih =>
    obtain ⟨ahead, others⟩ := List.pairwise_cons.mp ascending
    unfold insertEntry
    split
    · rename_i same
      exact List.pairwise_cons.mpr ⟨same ▸ ahead, others⟩
    · rename_i different
      split
      · rename_i smaller
        have less := Ordering.isLT_iff_eq_lt.mp smaller
        exact List.pairwise_cons.mpr ⟨lt_of_lt_head less ahead, ascending⟩
      · rename_i notSmaller
        have less : compare entry.1 key = .lt := by
          rw [← Std.OrientedCmp.gt_iff_lt]
          cases order : compare key entry.1 with
          | lt => exact absurd (Ordering.isLT_iff_eq_lt.mpr order) notSmaller
          | eq => exact absurd (Std.LawfulEqOrd.eq_of_compare order).symm different
          | gt => rfl
        refine List.pairwise_cons.mpr ⟨fun later mem => ?_, ih others⟩
        rcases mem_insertEntry mem with rfl | old
        · exact less
        · exact ahead later old

/-- **One more element in the group of a key is one more element in all groups together.** -/
theorem Ascending.perm_flatten_insert {dict : Dict κ (List α)} (ascending : dict.Ascending) (key : κ) (element : α) :
    (dict.insert key ((dict.find? key).getD [] ++ [element])).values.flatten.Perm
      (element :: dict.values.flatten) := by
  obtain ⟨entries⟩ := dict
  simp only [Ascending, Dict.insert, find?, values] at ascending ⊢
  induction entries with
  | nil => exact List.Perm.refl _
  | cons entry rest ih =>
    obtain ⟨ahead, others⟩ := List.pairwise_cons.mp ascending
    unfold insertEntry
    split
    · rename_i same
      rw [lookup_entry, if_pos same.symm, Option.getD_some]
      simp only [List.map_cons, List.flatten_cons, List.append_assoc, List.singleton_append]
      exact List.perm_middle
    · rename_i different
      split
      · rename_i smaller
        -- the key stands in front of all others, so its group is new
        have new := lookup_eq_none_of_lt (lt_of_lt_head (Ordering.isLT_iff_eq_lt.mp smaller) ahead)
        rw [new]
        exact List.Perm.refl _
      · rw [lookup_entry, if_neg (Ne.symm different)]
        simp only [List.map_cons, List.flatten_cons]
        exact ((ih others).append_left entry.2).trans List.perm_middle

end Dict

/-! ## Replaced values -/

namespace Dict

variable {κ : Type u} {α β : Type v}

/-- The dictionary with each value replaced. -/
def mapValues (change : α → β) (dict : Dict κ α) : Dict κ β :=
  ⟨dict.entries.map fun entry => (entry.1, change entry.2)⟩

@[simp] theorem mapValues_empty (change : α → β) : (empty : Dict κ α).mapValues change = empty := rfl

/-- Changing values leaves the keys. -/
@[simp] theorem keys_mapValues (change : α → β) (dict : Dict κ α) : (dict.mapValues change).keys = dict.keys := by
  simp only [keys, mapValues, List.map_map, Function.comp_def]

/-- It changes each value. -/
@[simp] theorem values_mapValues (change : α → β) (dict : Dict κ α) :
    (dict.mapValues change).values = dict.values.map change := by
  simp only [values, mapValues, List.map_map, Function.comp_def]

variable [DecidableEq κ]

/-- What is found is found changed. -/
@[simp] theorem find?_mapValues (change : α → β) (dict : Dict κ α) (key : κ) :
    (dict.mapValues change).find? key = (dict.find? key).map change := by
  simp only [find?, mapValues]
  induction dict.entries with
  | nil => rfl
  | cons entry rest ih =>
    rw [List.map_cons, List.lookup_cons, List.lookup_cons]
    cases key == entry.1 with
    | true => rfl
    | false => exact ih

/-- A key is there if it was. -/
@[simp] theorem contains_mapValues (change : α → β) (dict : Dict κ α) (key : κ) :
    (dict.mapValues change).contains key = dict.contains key := by
  simp only [contains, find?_mapValues, Option.isSome_map]

variable [Ord κ]

/-- Inserting commutes with changing values. -/
@[simp] theorem insert_mapValues (change : α → β) (dict : Dict κ α) (key : κ) (value : α) :
    (dict.mapValues change).insert key (change value) = (dict.insert key value).mapValues change := by
  simp only [insert, mapValues, mk.injEq]
  induction dict.entries with
  | nil => rfl
  | cons entry rest ih =>
    simp only [List.map_cons, insertEntry, ih]
    split
    · rfl
    · split <;> rfl

/-- So does inserting what is new. -/
@[simp] theorem insertNew_mapValues (change : α → β) (dict : Dict κ α) (key : κ) (value : α) :
    (dict.mapValues change).insertNew key (change value) = (dict.insertNew key value).mapValues change := by
  simp only [insertNew, contains_mapValues, insert_mapValues]
  split <;> rfl

end Dict

end DeclCheck
