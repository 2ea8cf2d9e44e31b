import DeclCheck.Text.EditDistance
import Mathlib.Order.Bounds.Basic

/-!
# The least number of edits

An *edit* inserts one character into a text, deletes one, or puts another in its place. The edit distance of two texts
is the least number of edits in a row that lead from one to the other. There are two halves to this. Row by row, the
computed distance satisfies the recursion over deleting, inserting and replacing the first character, and each of
these is an edit, so that many edits suffice. And no edit brings a text closer to any other by more than one, so fewer
edits are never enough.

That the distance is symmetric, that it separates different texts, and that it satisfies the triangle inequality are
facts about edits: they can be undone, no edits change nothing, and one list of them can follow another.

Rows can also be computed from the beginnings of the texts, in two buffers that are swapped after each row. This reads
both texts from their ends, and a text that is read so is as far from another as before, since edits can be read so too.
The distance is a natural number here: that it fits a machine word is not established, nor how long computing it takes.
-/

namespace DeclCheck.Text

/-! ## Edits -/

/-- **One edit of a text**, at any place of it. -/
inductive Edit : List Char → List Char → Prop
  | insert (before after : List Char) (char : Char) : Edit (before ++ after) (before ++ char :: after)
  | delete (before after : List Char) (char : Char) : Edit (before ++ char :: after) (before ++ after)
  | replace (before after : List Char) (old new : Char) : Edit (before ++ old :: after) (before ++ new :: after)

/-- **Edits in a row**, with their number. -/
inductive Edits : Nat → List Char → List Char → Prop
  | none (text : List Char) : Edits 0 text text
  | first {count : Nat} {text next last : List Char} (edit : Edit text next) (others : Edits count next last) :
      Edits (count + 1) text last

/-- An edit can be undone by an edit. -/
theorem Edit.symm {first second : List Char} (edit : Edit first second) : Edit second first := by
  cases edit with
  | insert before after char => exact .delete before after char
  | delete before after char => exact .insert before after char
  | replace before after old new => exact .replace before after new old

/-- What stands before an edited text does not matter. -/
theorem Edit.cons {first second : List Char} (edit : Edit first second) (char : Char) :
    Edit (char :: first) (char :: second) := by
  cases edit with
  | insert before after added => exact .insert (char :: before) after added
  | delete before after dropped => exact .delete (char :: before) after dropped
  | replace before after old new => exact .replace (char :: before) after old new

namespace Edits

variable {count more : Nat} {first second third : List Char}

/-- What stands before an edited text stays. -/
theorem cons (edits : Edits count first second) (char : Char) : Edits count (char :: first) (char :: second) := by
  induction edits with
  | none text => exact .none (char :: text)
  | first edit _ ih => exact .first (edit.cons char) ih

/-- One list of edits can follow another. -/
theorem trans (edits : Edits count first second) (others : Edits more second third) :
    Edits (count + more) first third := by
  induction edits with
  | none text => rwa [Nat.zero_add]
  | first edit _ ih =>
    rw [Nat.add_right_comm]
    exact .first edit (ih others)

/-- An edit can be made last. -/
theorem last (edits : Edits count first second) (edit : Edit second third) : Edits (count + 1) first third :=
  edits.trans (.first edit (.none third))

/-- Edits can be undone, last first. -/
theorem symm (edits : Edits count first second) : Edits count second first := by
  induction edits with
  | none text => exact .none text
  | first edit _ ih => exact ih.last edit.symm

/-- Of two ways between texts one is no longer than both. -/
theorem min (edits : Edits count first second) (others : Edits more first second) :
    Edits (min count more) first second := by
  rcases Nat.le_total count more with fewer | fewer
  · rwa [Nat.min_eq_left fewer]
  · rwa [Nat.min_eq_right fewer]

end Edits

/-- No edits change nothing. -/
theorem edits_zero_iff {first second : List Char} : Edits 0 first second ↔ first = second := by
  constructor
  · intro edits
    cases edits
    rfl
  · rintro rfl
    exact .none first

/-! ## The recursion that the rows compute -/

/-- The distance of two texts as lists of characters: the head of the row. -/
def charDistance (first second : List Char) : Nat := (distanceRow second first).headD 0

/-- A row is never empty. -/
theorem nextRow_ne_nil (char : Char) (others : List Char) (row : List Nat) : nextRow char others row ≠ [] := by
  unfold nextRow
  split
  · exact List.cons_ne_nil _ _
  · exact List.cons_ne_nil _ _

/-- A row begins with the distance to the whole of the other text. -/
theorem exists_distanceRow (first second : List Char) :
    ∃ beyond, distanceRow second first = charDistance first second :: beyond := by
  have filled : distanceRow second first ≠ [] := by
    cases first with
    | nil => cases second <;> exact List.cons_ne_nil _ _
    | cons char rest => exact nextRow_ne_nil char second _
  unfold charDistance
  cases row : distanceRow second first with
  | nil => exact absurd row filled
  | cons head beyond => exact ⟨beyond, rfl⟩

/-- **What follows in a row is the row for the rest of the other text.** -/
theorem distanceRow_cons (char : Char) (rest text : List Char) :
    distanceRow (char :: rest) text = charDistance text (char :: rest) :: distanceRow rest text := by
  induction text with
  | nil => rfl
  | cons own text ih =>
    obtain ⟨beyond, row⟩ := exists_distanceRow text rest
    simp only [charDistance, distanceRow]
    rw [ih, row]
    rfl

/-- From nothing, every character has to be inserted. -/
theorem charDistance_nil_left (second : List Char) : charDistance [] second = second.length := by
  cases second <;> rfl

/-- To nothing, the first character has to be deleted like all others. -/
theorem charDistance_nil_right (char : Char) (text : List Char) :
    charDistance (char :: text) [] = charDistance text [] + 1 := by
  simp only [charDistance, distanceRow, nextRow, List.headD_cons]

/-- So a text is as far from nothing as it is long. -/
theorem charDistance_nil_right_eq (text : List Char) : charDistance text [] = text.length := by
  induction text with
  | nil => rfl
  | cons char rest ih => rw [charDistance_nil_right, ih, List.length_cons]

/-- **The recursion of the distance**: the first character is deleted, the other's first one is inserted, or one stands
in the place of the other. -/
theorem charDistance_cons_cons (char other : Char) (text rest : List Char) :
    charDistance (char :: text) (other :: rest) =
      min (min (charDistance text (other :: rest) + 1) (charDistance (char :: text) rest + 1))
        (charDistance text rest + replacementCost char other) := by
  obtain ⟨beyond, row⟩ := exists_distanceRow text rest
  have below : distanceRow rest (char :: text) = nextRow char rest (charDistance text rest :: beyond) := by
    rw [distanceRow, row]
  have whole : distanceRow (other :: rest) (char :: text) =
      nextRow char (other :: rest) (charDistance text (other :: rest) :: charDistance text rest :: beyond) := by
    rw [distanceRow, distanceRow_cons, row]
  rw [charDistance, whole, nextRow, ← below]
  rfl

/-- Nothing is paid for a character that stays. -/
theorem replacementCost_self (char : Char) : replacementCost char char = 0 := if_pos rfl

/-- No replacement costs more than one edit. -/
theorem replacementCost_le_one (char other : Char) : replacementCost char other ≤ 1 := by
  unfold replacementCost
  split <;> omega

/-! ## That many edits suffice -/

/-- **As many edits as the distance suffice**: the cheapest of the three ways ends in one of them. -/
theorem edits_charDistance (first second : List Char) : Edits (charDistance first second) first second := by
  induction first generalizing second with
  | nil =>
    rw [charDistance_nil_left]
    induction second with
    | nil => exact .none []
    | cons other rest ih => exact ih.last (.insert [] rest other)
  | cons char text ih =>
    induction second with
    | nil =>
      rw [charDistance_nil_right]
      exact .first (.delete [] text char) (ih [])
    | cons other rest inner =>
      rw [charDistance_cons_cons]
      have deleting : Edits (charDistance text (other :: rest) + 1) (char :: text) (other :: rest) :=
        .first (.delete [] text char) (ih (other :: rest))
      have inserting : Edits (charDistance (char :: text) rest + 1) (char :: text) (other :: rest) :=
        inner.last (.insert [] rest other)
      have replacing :
          Edits (charDistance text rest + replacementCost char other) (char :: text) (other :: rest) := by
        by_cases same : char = other
        · subst same
          rw [replacementCost_self]
          exact (ih rest).cons char
        · rw [replacementCost, if_neg same]
          exact ((ih rest).cons char).last (.replace [] rest char other)
      exact (deleting.min inserting).min replacing

/-! ## No edit brings texts closer by more than one -/

/-- A character more makes a text at most one farther away. -/
theorem charDistance_cons_right_le (char : Char) (text rest : List Char) :
    charDistance text (char :: rest) ≤ charDistance text rest + 1 := by
  cases text with
  | nil =>
    rw [charDistance_nil_left, charDistance_nil_left]
    exact Nat.le_refl _
  | cons own text =>
    rw [charDistance_cons_cons]
    omega

/-- **Whether a text is at most one farther than another from any third.** -/
def Near (first second : List Char) : Prop := ∀ other, charDistance first other ≤ charDistance second other + 1

/-- Deleting the first character brings a text closer by one at most. -/
theorem near_delete (char : Char) (text : List Char) : Near (char :: text) text := by
  intro other
  cases other with
  | nil => exact Nat.le_of_eq (charDistance_nil_right char text)
  | cons head rest =>
    rw [charDistance_cons_cons]
    omega

/-- Inserting one does so too. -/
theorem near_insert (char : Char) (text : List Char) : Near text (char :: text) := by
  intro other
  induction other with
  | nil =>
    rw [charDistance_nil_right]
    omega
  | cons head rest ih =>
    have longer := charDistance_cons_right_le head text rest
    rw [charDistance_cons_cons]
    omega

/-- So does replacing it. -/
theorem near_replace (old new : Char) (text : List Char) : Near (old :: text) (new :: text) := by
  intro other
  induction other with
  | nil =>
    rw [charDistance_nil_right, charDistance_nil_right]
    omega
  | cons head rest ih =>
    have priced := replacementCost_le_one old head
    rw [charDistance_cons_cons, charDistance_cons_cons]
    omega

/-- What stands before both texts does not matter. -/
theorem Near.cons {first second : List Char} (near : Near first second) (char : Char) :
    Near (char :: first) (char :: second) := by
  intro other
  induction other with
  | nil =>
    have bare := near []
    rw [charDistance_nil_right, charDistance_nil_right]
    omega
  | cons head rest ih =>
    have whole := near (head :: rest)
    have behind := near rest
    rw [charDistance_cons_cons, charDistance_cons_cons]
    omega

/-- Nor does any text before them. -/
theorem Near.append {first second : List Char} (near : Near first second) (before : List Char) :
    Near (before ++ first) (before ++ second) := by
  induction before with
  | nil => exact near
  | cons char before ih => exact ih.cons char

/-- **No edit brings a text closer to another by more than one.** -/
theorem Edit.near {first second : List Char} (edit : Edit first second) : Near first second := by
  cases edit with
  | insert before after char => exact (near_insert char after).append before
  | delete before after char => exact (near_delete char after).append before
  | replace before after old new => exact (near_replace old new after).append before

/-- A text is no way from itself. -/
theorem charDistance_self (text : List Char) : charDistance text text = 0 := by
  induction text with
  | nil => rfl
  | cons char text ih =>
    rw [charDistance_cons_cons, replacementCost_self, ih]
    omega

/-- **Fewer edits than the distance are never enough.** -/
theorem charDistance_le_of_edits {count : Nat} {first second : List Char} (edits : Edits count first second) :
    charDistance first second ≤ count := by
  induction edits with
  | none text => exact Nat.le_of_eq (charDistance_self text)
  | @first count text next last edit _ ih =>
    have step := edit.near last
    omega

/-! ## Texts from their ends -/

/-- An edit of a text is one of the text read from its end. -/
theorem Edit.reverse {first second : List Char} (edit : Edit first second) : Edit first.reverse second.reverse := by
  cases edit with
  | insert before after char =>
    simp only [List.reverse_append, List.reverse_cons, List.append_assoc, List.singleton_append]
    exact .insert after.reverse before.reverse char
  | delete before after char =>
    simp only [List.reverse_append, List.reverse_cons, List.append_assoc, List.singleton_append]
    exact .delete after.reverse before.reverse char
  | replace before after old new =>
    simp only [List.reverse_append, List.reverse_cons, List.append_assoc, List.singleton_append]
    exact .replace after.reverse before.reverse old new

/-- So are edits in a row. -/
theorem Edits.reverse {count : Nat} {first second : List Char} (edits : Edits count first second) :
    Edits count first.reverse second.reverse := by
  induction edits with
  | none text => exact .none text.reverse
  | first edit _ ih => exact .first edit.reverse ih

/-- **Texts are as far apart when both are read from their ends.** -/
theorem charDistance_reverse (first second : List Char) :
    charDistance first.reverse second.reverse = charDistance first second := by
  apply Nat.le_antisymm
  · exact charDistance_le_of_edits (edits_charDistance first second).reverse
  · have back := (edits_charDistance first.reverse second.reverse).reverse
    rw [List.reverse_reverse, List.reverse_reverse] at back
    exact charDistance_le_of_edits back

/-! ## The loop over two buffers -/

/-- Two rows of distances: the last one that is complete, and one to be filled. -/
structure Buffers (width : Nat) where
  previous : Vector Nat (width + 1)
  current : Vector Nat (width + 1)

/-- The buffers before the first row: the empty text is as far from a text as that is long. -/
def Buffers.start (width : Nat) : Buffers width := ⟨.ofFn Fin.val, .replicate _ 0⟩

/-- The row to be filled after some turns of the inner loop. Each turn reads the two entries above, and the entry that
the turn before wrote. -/
def fillRow (char : Char) (second : List Char) (previous current : Vector Nat (second.length + 1)) :
    (columns : Nat) → columns ≤ second.length → Vector Nat (second.length + 1)
  | 0, _ => current
  | column + 1, inside =>
    let filled := fillRow char second previous current column (Nat.le_of_succ_le inside)
    filled.set (column + 1) (min (min (previous[column + 1] + 1) (filled[column] + 1))
      (previous[column] + replacementCost char second[column]))

/-- The buffers after some turns of the outer loop. Each turn fills a row over the one before the last, and swaps the
two. -/
def fillRows (first second : List Char) : (rows : Nat) → rows ≤ first.length → Buffers second.length
  | 0, _ => .start second.length
  | row + 1, inside =>
    let buffers := fillRows first second row (Nat.le_of_succ_le inside)
    ⟨fillRow first[row] second buffers.previous (buffers.current.set 0 (row + 1)) second.length (Nat.le_refl _),
      buffers.previous⟩

/-- The edit distance computed from the beginnings of the texts, in two buffers. -/
def distanceInPlace (first second : String) : Nat :=
  (fillRows first.toList second.toList first.toList.length (Nat.le_refl _)).previous[second.toList.length]

/-- Whether the first entries of a row are the distances of a text to the beginnings of another, both read from their
ends. -/
def IsRowUpTo (text second : List Char) (row : Vector Nat (second.length + 1)) (columns : Nat) : Prop :=
  ∀ column (inside : column < second.length + 1), column ≤ columns →
    row[column] = charDistance text (second.take column).reverse

/-- Read from its end, a beginning that is longer by one starts with one more character. -/
theorem take_succ_reverse {second : List Char} {column : Nat} (inside : column < second.length) :
    (second.take (column + 1)).reverse = second[column] :: (second.take column).reverse := by
  rw [List.take_add_one, List.getElem?_eq_getElem inside, Option.toList_some, List.reverse_append]
  rfl

/-- **The inner loop fills a row**: an entry is written when the three that it is computed from are there. -/
theorem isRowUpTo_fillRow {char : Char} {text second : List Char} {previous current : Vector Nat (second.length + 1)}
    (above : IsRowUpTo text second previous second.length) (first : current[0] = charDistance (char :: text) [])
    (columns : Nat) (inside : columns ≤ second.length) :
    IsRowUpTo (char :: text) second (fillRow char second previous current columns inside) columns := by
  induction columns with
  | zero =>
    intro column there few
    obtain rfl : column = 0 := by omega
    exact first
  | succ done ih =>
    have filled := ih (by omega)
    intro column there few
    rw [fillRow, Vector.getElem_set]
    by_cases last : done + 1 = column
    · subst last
      rw [if_pos rfl, take_succ_reverse inside, charDistance_cons_cons, ← take_succ_reverse inside,
        above (done + 1) there inside, above done (by omega) (by omega), filled done (by omega) (Nat.le_refl _)]
    · rw [if_neg last]
      exact filled column there (by omega)

/-- **The outer loop fills a row for each beginning of the first text.** -/
theorem isRowUpTo_fillRows (first second : List Char) (rows : Nat) (inside : rows ≤ first.length) :
    IsRowUpTo (first.take rows).reverse second (fillRows first second rows inside).previous second.length := by
  induction rows with
  | zero =>
    intro column there _
    rw [fillRows, Buffers.start, Vector.getElem_ofFn, List.take_zero, List.reverse_nil, charDistance_nil_left,
      List.length_reverse, List.length_take]
    exact (Nat.min_eq_left (Nat.le_of_lt_succ there)).symm
  | succ row ih =>
    have above := ih (by omega)
    rw [take_succ_reverse inside]
    refine isRowUpTo_fillRow above ?_ second.length (Nat.le_refl _)
    rw [Vector.getElem_set_self, charDistance_nil_right_eq, List.length_cons, List.length_reverse, List.length_take]
    omega

/-- **The loop over two buffers computes the edit distance.** -/
theorem distanceInPlace_eq (first second : String) : distanceInPlace first second = editDistance first second := by
  have filled := isRowUpTo_fillRows first.toList second.toList first.toList.length (Nat.le_refl _)
  have last := filled second.toList.length (Nat.lt_succ_self _) (Nat.le_refl _)
  rw [List.take_length, List.take_length, charDistance_reverse] at last
  exact last

/-! ## Strings -/

/-- **The edit distance is the least number of edits that turn one string into another.** So it is symmetric, it is
zero between equal strings alone, and no way through a third string is shorter. The loop over two buffers computes the
same number. -/
theorem editDistance_least (first second : String) :
    IsLeast {count | Edits count first.toList second.toList} (editDistance first second) ∧
      editDistance first second = editDistance second first ∧
      (editDistance first second = 0 ↔ first = second) ∧
      (∀ third, editDistance first third ≤ editDistance first second + editDistance second third) ∧
      distanceInPlace first second = editDistance first second := by
  have least (one two : String) :
      IsLeast {count | Edits count one.toList two.toList} (editDistance one two) :=
    ⟨edits_charDistance _ _, fun _ edits => charDistance_le_of_edits edits⟩
  have way := (least first second).1
  have back := (least second first).1
  refine ⟨least first second, ?_, ?_, ?_, distanceInPlace_eq first second⟩
  · exact Nat.le_antisymm ((least first second).2 back.symm) ((least second first).2 way.symm)
  · constructor
    · intro zero
      have unchanged : Edits (editDistance first second) first.toList second.toList := way
      rw [zero] at unchanged
      exact String.toList_inj.mp (edits_zero_iff.mp unchanged)
    · rintro rfl
      exact charDistance_self first.toList
  · intro third
    exact (least first third).2 (way.trans (least second third).1)

example : editDistance "kitten" "sitting" = 3 := by decide

end DeclCheck.Text
