import DeclCheck.Diagnostic
import Mathlib.Data.List.Basic
import Mathlib.Data.List.Forall2

/-!
# The rows of a source window

A window is a text of whole rows: split at its line feeds it gives the rows back, since no row has one inside. The rows
show the lines from the first to the last number of the window, each once and in order, and behind the row of the
offending line there may be one row of carets.

All rows have the same columns: thirteen characters in front, a number, a bar, and the text. That the texts stand one
under another is due to the width of the numbers, which is that of the last and so of the longest one.

Two things are left out. Line numbers are machine words, and the main result is for windows whose last number fits into
one; beyond that the sum wraps around and the window may miss its own line. And a window is a text only if its rows have
no more bytes than a text can have, which wide columns can exceed: then there is none. The rest of a rendering, the
headline and the advice, is not looked at here.
-/

namespace DeclCheck

/-! ## Lines -/

namespace Text

/-- No line has a line feed inside. -/
theorem newline_not_mem_linesOfChars (chars : List Char) : ∀ line ∈ linesOfChars chars, '\n' ∉ line := by
  fun_induction linesOfChars chars with
  | case1 => exact fun line mem => absurd mem List.not_mem_nil
  | case2 rest ih | case3 rest ih =>
    intro line mem
    rcases List.mem_cons.mp mem with rfl | later
    · exact List.not_mem_nil
    · exact ih line later
  | case4 char rest other _ last ih =>
    intro line mem
    rw [List.mem_singleton.mp mem, List.mem_singleton]
    exact fun same => other same.symm
  | case5 char rest other _ first later split ih =>
    rw [split] at ih
    intro line mem
    rcases List.mem_cons.mp mem with rfl | behind
    · rw [List.mem_cons]
      rintro (same | inside)
      · exact other same.symm
      · exact ih first List.mem_cons_self inside
    · exact ih line (List.mem_cons_of_mem first behind)

/-- No line holds a line feed. -/
theorem newline_not_mem_line {text line : String} {number : Nat} (found : line? text number = some line) :
    '\n' ∉ line.toList := by
  unfold line? lines at found
  split at found
  · cases found
  · rw [List.getElem?_map, Option.map_eq_some_iff] at found
    obtain ⟨chars, there, rfl⟩ := found
    rw [String.toList_ofList]
    exact newline_not_mem_linesOfChars _ chars (List.mem_of_getElem? there)

/-- Every number up to the count is that of a line. -/
theorem exists_line {text : String} {number : Nat} (positive : 0 < number) (inside : number ≤ lineCount text) :
    ∃ line, line? text number = some line := by
  unfold line?
  rw [if_neg (Nat.ne_of_gt positive)]
  unfold lineCount at inside
  exact ⟨_, List.getElem?_eq_getElem (by omega)⟩

/-- So is every number of a range that stays below the count. -/
theorem exists_line_of_mem_range' {text : String} {start count number : Nat} (positive : 0 < start)
    (inside : start + count ≤ lineCount text + 1) (mem : number ∈ List.range' start count) :
    ∃ line, line? text number = some line := by
  rw [List.mem_range'_1] at mem
  exact exists_line (by omega) (by omega)

/-- Numbered lines from one number on are these lines with their numbers. -/
theorem take_drop_numberedLines {text : String} {first count : Nat} (positive : 0 < first)
    (inside : first + count ≤ lineCount text + 1) :
    ((numberedLines text).drop (first - 1)).take count =
      (List.range' first count).map fun number => ((line? text number).getD "", number) := by
  unfold numberedLines
  unfold lineCount at inside
  apply List.ext_getElem
  · simp only [List.length_take, List.length_drop, List.length_zipIdx, List.length_map, List.length_range']
    omega
  · intro position one two
    simp only [List.length_map, List.length_range'] at two
    have there : first - 1 + position < (lines text).length := by omega
    have here : first + position - 1 = first - 1 + position := by omega
    simp only [List.getElem_take, List.getElem_drop, List.getElem_zipIdx, List.getElem_map, List.getElem_range',
      line?, Nat.one_mul]
    rw [if_neg (by omega), here, List.getElem?_eq_getElem there, Option.getD_some]
    congr 1
    omega

end Text

namespace Diagnostic

/-! ## Numbers -/

/-- Greater numbers are written with no fewer digits. -/
theorem length_toString_mono {low high : Nat} (less : low ≤ high) :
    (toString low).length ≤ (toString high).length := by
  rw [Nat.toString_eq_repr, Nat.toString_eq_repr, Nat.length_repr_le_iff Nat.length_repr_pos]
  exact Nat.lt_of_le_of_lt less ((Nat.length_repr_le_iff Nat.length_repr_pos).mp (Nat.le_refl _))

/-- No number is written with a line feed. -/
theorem newline_not_mem_toString (number : Nat) : '\n' ∉ (toString number).toList := by
  rw [Nat.toString_eq_repr, Nat.toList_repr]
  intro mem
  have digit := Nat.isDigit_of_mem_toDigits (by decide) (by decide) mem
  exact absurd digit (by decide)

/-! ## What rows show -/

/-- **Whether a row shows a line of a text**: in front the marker or as many blanks, then the number at the right end of
its column, a bar, and the line itself. -/
structure ShowsLine (content : String) (width : Nat) (marked : Bool) (number : Nat) (row : List Char) : Prop where
  front : row.take 13 = if marked then "    ERROR >> ".toList else List.replicate 13 ' '
  figure : ∃ gap, gap + (toString number).length = width ∧
    (row.drop 13).take width = List.replicate gap ' ' ++ (toString number).toList
  bar : (row.drop (13 + width)).take 3 = " | ".toList
  text : (Text.line? content number).map String.toList = some (row.drop (16 + width))

/-- **Whether a row has carets under the columns from the first to the last** of the text above it, and is blank
elsewhere. Columns are counted from one. -/
structure Underlines (width first last : Nat) (row : List Char) : Prop where
  front : row.take (13 + width) = List.replicate (13 + width) ' '
  bar : (row.drop (13 + width)).take 3 = " | ".toList
  columns : ∀ column, 0 < column → (row.drop (16 + width))[column - 1]? =
    if column < first then some ' ' else if column ≤ last then some '^' else none

/-- The row of a line, without the line feed. -/
def lineRow (content : String) (width : Nat) (marked : Bool) (number : Nat) : List Char :=
  (if marked then "    ERROR >> ".toList else List.replicate 13 ' ') ++
    ((List.replicate (width - (toString number).length) ' ' ++ (toString number).toList) ++
      (" | ".toList ++ ((Text.line? content number).getD "").toList))

/-- The row of carets, without the line feed. -/
def underline (width first last : Nat) : List Char :=
  List.replicate (13 + width) ' ' ++
    (" | ".toList ++ (List.replicate (first - 1) ' ' ++ List.replicate (last + 1 - first) '^'))

theorem length_marker : marker.length = 13 := by decide

theorem newline_toList : "\n".toList = ['\n'] := by decide

/-- A row of source is the line with its number, and a line feed. -/
theorem toList_sourceRow (content : String) (width : Nat) (marked : Bool) (number : Nat) :
    (sourceRow width marked number ((Text.line? content number).getD "")).toList =
      lineRow content width marked number ++ ['\n'] := by
  have front : (if marked then marker else blanks marker.length).toList =
      if marked then "    ERROR >> ".toList else List.replicate 13 ' ' := by
    cases marked with
    | true => rfl
    | false => rw [length_marker, blanks, if_neg Bool.false_ne_true, if_neg Bool.false_ne_true, String.toList_ofList]
  unfold sourceRow lineRow
  simp only [String.toList_append, front]
  simp only [alignRight, blanks, String.toList_append, String.toList_ofList, List.append_assoc, newline_toList]

/-- A row of carets is the underline, and a line feed. -/
theorem toList_caretRow (width first last : Nat) (order : first ≤ last) :
    (caretRow width first last).toList = underline width first last ++ ['\n'] := by
  have count : last - first + 1 = last + 1 - first := by omega
  unfold caretRow underline blanks
  rw [length_marker, count, List.replicate_add]
  simp only [String.toList_append, String.toList_ofList, List.append_assoc, newline_toList]

/-! ## The columns of rows -/

section

variable {content : String} {width number : Nat}

/-- Such a row shows its line, if the number fits the margin. -/
theorem showsLine_lineRow (marked : Bool) {line : String} (found : Text.line? content number = some line)
    (fits : (toString number).length ≤ width) :
    ShowsLine content width marked number (lineRow content width marked number) := by
  have ahead : (if marked then "    ERROR >> ".toList else List.replicate 13 ' ').length = 13 := by
    cases marked <;> decide
  have column : (List.replicate (width - (toString number).length) ' ' ++ (toString number).toList).length = width := by
    rw [List.length_append, List.length_replicate, String.length_toList]
    omega
  have bar : " | ".toList.length = 3 := by decide
  have rest : 16 + width = 13 + (width + 3) := by omega
  unfold lineRow
  rw [found, Option.getD_some]
  constructor
  · exact List.take_left' ahead
  · refine ⟨width - (toString number).length, by omega, ?_⟩
    rw [List.drop_left' ahead]
    exact List.take_left' column
  · rw [← List.drop_drop, List.drop_left' ahead, List.drop_left' column]
    exact List.take_left' bar
  · rw [found, rest, ← List.drop_drop, List.drop_left' ahead, ← List.drop_drop, List.drop_left' column,
      List.drop_left' bar]
    rfl

/-- An underline has its carets under the columns. -/
theorem underlines_underline {first last : Nat} (positive : 0 < first) (order : first ≤ last) :
    Underlines width first last (underline width first last) := by
  have ahead : (List.replicate (13 + width) ' ').length = 13 + width := List.length_replicate
  have bar : " | ".toList.length = 3 := by decide
  have rest : 16 + width = 13 + width + 3 := by omega
  unfold underline
  constructor
  · exact List.take_left' ahead
  · rw [List.drop_left' ahead]
    exact List.take_left' bar
  · intro column counted
    rw [rest, ← List.drop_drop, List.drop_left' ahead, List.drop_left' bar, List.getElem?_append,
      List.length_replicate, List.getElem?_replicate, List.getElem?_replicate]
    by_cases left : column < first
    · rw [if_pos left, if_pos (by omega), if_pos (by omega)]
    · rw [if_neg left, if_neg (by omega)]
      by_cases under : column ≤ last
      · rw [if_pos under, if_pos (by omega)]
      · rw [if_neg under, if_neg (by omega)]

/-- No row of source holds a line feed inside. -/
theorem newline_not_mem_lineRow (marked : Bool) {line : String} (found : Text.line? content number = some line) :
    '\n' ∉ lineRow content width marked number := by
  have ahead : '\n' ∉ (if marked then "    ERROR >> ".toList else List.replicate 13 ' ') := by
    cases marked <;> decide
  unfold lineRow
  rw [found, Option.getD_some]
  simp only [List.mem_append, not_or]
  refine ⟨ahead, ⟨?_, newline_not_mem_toString number⟩, by decide, Text.newline_not_mem_line found⟩
  rw [List.mem_replicate]
  rintro ⟨-, same⟩
  cases same

/-- Nor does an underline. -/
theorem newline_not_mem_underline (width first last : Nat) : '\n' ∉ underline width first last := by
  unfold underline
  simp only [List.mem_append, List.mem_replicate, not_or]
  refine ⟨?_, by decide, ?_, ?_⟩
  all_goals
    rintro ⟨-, same⟩
    cases same

end

/-! ## The rows of the window -/

/-- The rows of carets of a location: one if it lies in one line and has columns, and else none. -/
def underlines (width : Nat) (location : Location) : List (List Char) :=
  if location.lastLine = location.firstLine ∧ 0 < location.firstColumn then
    [underline width location.firstColumn.toNat (max location.firstColumn.toNat location.lastColumn.toNat)]
  else []

/-- The rows of one line of the window. -/
def rowsOf (content : String) (location : Location) (width number : Nat) : List (List Char) :=
  lineRow content width (number == location.firstLine.toNat) number ::
    if number = location.firstLine.toNat then underlines width location else []

/-- The texts of the caret rows are the underlines, one to a line. -/
theorem flatMap_text_caretRows (width : Nat) (location : Location) :
    (caretRows location).flatMap (fun row => (row.text width).toList) =
      (underlines width location).flatMap (· ++ ['\n']) := by
  have positive : location.firstColumn ≠ 0 ↔ 0 < location.firstColumn := by
    rw [UInt64.lt_iff_toNat_lt, ne_eq, ← UInt64.toNat_inj]
    exact Nat.pos_iff_ne_zero.symm
  unfold caretRows underlines
  simp only [Bool.and_eq_true, beq_iff_eq, bne_iff_ne, positive]
  split
  · rw [List.flatMap_singleton, List.flatMap_singleton, Row.text, Nat.max_comm,
      toList_caretRow _ _ _ (Nat.le_max_left _ _)]
  · rfl

/-- The texts of the rows of a line are that line and what is under it. -/
theorem flatMap_text_lineRows (content : String) (location : Location) (width number : Nat) :
    (lineRows location number ((Text.line? content number).getD "")).flatMap (fun row => (row.text width).toList) =
      (rowsOf content location width number).flatMap (· ++ ['\n']) := by
  unfold lineRows rowsOf
  dsimp only
  rw [List.flatMap_cons, Row.text, toList_sourceRow, List.flatMap_cons]
  by_cases own : number = location.firstLine.toNat
  · rw [if_pos own, if_pos (beq_iff_eq.mpr own), flatMap_text_caretRows]
  · rw [if_neg own, if_neg (mt beq_iff_eq.mp own)]
    rfl

/-- Whole rows are what a text of them is split into, with nothing behind the last line feed. -/
theorem splitOn_flatMap_newline {rows : List (List Char)} (whole : ∀ row ∈ rows, '\n' ∉ row) :
    (rows.flatMap (· ++ ['\n'])).splitOn '\n' = rows ++ [[]] := by
  induction rows with
  | nil => rfl
  | cons row rest ih =>
    rw [List.flatMap_cons, List.append_assoc, List.singleton_append,
      List.splitOn_append_cons_self_of_not_mem (whole row List.mem_cons_self),
      ih fun other mem => whole other (List.mem_cons_of_mem row mem), List.cons_append]

/-- No row of a window holds a line feed inside. -/
theorem newline_not_mem_rowsOf {content line : String} {location : Location} {width number : Nat}
    (found : Text.line? content number = some line) : ∀ row ∈ rowsOf content location width number, '\n' ∉ row := by
  have carets : ∀ row ∈ underlines width location, '\n' ∉ row := by
    intro row mem
    unfold underlines at mem
    split at mem
    · rw [List.mem_singleton.mp mem]
      exact newline_not_mem_underline _ _ _
    · cases mem
  intro row mem
  rcases List.mem_cons.mp mem with rfl | behind
  · exact newline_not_mem_lineRow _ found
  · split at behind
    · exact carets row behind
    · cases behind

/-- The rows of a line that is not the offending one are its own row. -/
theorem flatMap_rowsOf {content : String} {location : Location} {width : Nat} {numbers : List Nat}
    (others : ∀ number ∈ numbers, number ≠ location.firstLine.toNat) :
    numbers.flatMap (rowsOf content location width) = numbers.map (lineRow content width false) := by
  rw [List.map_eq_flatMap]
  apply List.flatMap_congr
  intro number mem
  have other := others number mem
  rw [rowsOf, if_neg other, beq_false_of_ne other]

section

variable {content : String} {location : Location} {first last : Nat}

/-- **The rows of the window**, where it reaches from the first to the last of these numbers. -/
theorem flatMap_text_windowRows {context : UInt64} (starts : windowStart location.firstLine context = first)
    (ends : windowEnd content location.firstLine context = last) (positive : 0 < first) (order : first ≤ last)
    (inside : last ≤ Text.lineCount content) :
    (windowRows content location context).flatMap
        (fun row => (row.text (windowWidth content location context)).toList) =
      ((List.range' first (last + 1 - first)).flatMap
        (rowsOf content location (toString last).length)).flatMap (· ++ ['\n']) := by
  unfold windowRows windowWidth
  dsimp only
  rw [starts, ends, Text.take_drop_numberedLines positive (by omega), List.flatMap_map, List.flatMap_assoc,
    List.flatMap_assoc]
  apply List.flatMap_congr
  intro number _
  exact flatMap_text_lineRows content location _ number

/-- The lines of a range of numbers are shown in order, each once. -/
theorem forall₂_lineRow {width start count : Nat} (positive : 0 < start)
    (inside : start + count ≤ Text.lineCount content + 1)
    (fits : ∀ number < start + count, (toString number).length ≤ width) :
    List.Forall₂ (ShowsLine content width false) (List.range' start count)
      ((List.range' start count).map (lineRow content width false)) := by
  rw [List.forall₂_map_right_iff, List.forall₂_same]
  intro number mem
  obtain ⟨text, found⟩ := Text.exists_line_of_mem_range' positive inside mem
  exact showsLine_lineRow false found (fits number (List.mem_range'_1.mp mem).2)

/-- No row of the lines of a range of numbers has a line feed inside. -/
theorem newline_not_mem_windowRows {width start count : Nat} (positive : 0 < start)
    (inside : start + count ≤ Text.lineCount content + 1) :
    ∀ row ∈ (List.range' start count).flatMap (rowsOf content location width), '\n' ∉ row := by
  intro row mem
  obtain ⟨number, listed, own⟩ := List.mem_flatMap.mp mem
  obtain ⟨text, found⟩ := Text.exists_line_of_mem_range' positive inside listed
  exact newline_not_mem_rowsOf found row own

/-- The numbers of the window: those before the offending line, its own, and those behind it. -/
theorem range'_around {line : Nat} (starts : first ≤ line) (ends : line ≤ last) :
    List.range' first (last + 1 - first) =
      List.range' first (line - first) ++ line :: List.range' (line + 1) (last - line) := by
  have count : last + 1 - first = line - first + (last - line + 1) := by omega
  have between : first + (line - first) = line := by omega
  rw [count, ← List.range'_append_1, between, List.range'_succ]

/-- **The rows around the offending line**: its own is marked and has the carets behind it, the others stand alone. -/
theorem windowRows_around {width : Nat} (starts : first ≤ location.firstLine.toNat)
    (ends : location.firstLine.toNat ≤ last) :
    (List.range' first (last + 1 - first)).flatMap (rowsOf content location width) =
      (List.range' first (location.firstLine.toNat - first)).map (lineRow content width false) ++
        lineRow content width true location.firstLine.toNat ::
          (underlines width location ++ (List.range' (location.firstLine.toNat + 1)
            (last - location.firstLine.toNat)).map (lineRow content width false)) := by
  rw [range'_around starts ends, List.flatMap_append, List.flatMap_cons, flatMap_rowsOf, flatMap_rowsOf]
  · rw [rowsOf, if_pos rfl, beq_self_eq_true, List.cons_append]
  all_goals
    intro number mem
    rw [List.mem_range'_1] at mem
    omega

end

/-- **Whether rows make a window around a line of a text.** They show the lines from `context` lines before it to
`context` lines behind it, as far as there are any, each once and in order and with their numbers in one column. The row
of the line itself is the only one that is marked, and directly behind it stands one row of carets if the location ends
in the same line and has a first column, and else none. -/
def IsWindow (content : String) (location : Location) (context : Nat) (rows : List (List Char)) : Prop :=
  let line := location.firstLine.toNat
  let first := max 1 (line - context)
  let last := min (line + context) (Text.lineCount content)
  ∃ width before own carets after,
    rows = before ++ own :: (carets ++ after) ∧
    List.Forall₂ (ShowsLine content width false) (List.range' first (line - first)) before ∧
    ShowsLine content width true line own ∧
    List.Forall₂ (ShowsLine content width false) (List.range' (line + 1) (last - line)) after ∧
    (location.lastLine = location.firstLine ∧ 0 < location.firstColumn →
      ∃ row, carets = [row] ∧ Underlines width location.firstColumn.toNat
        (max location.firstColumn.toNat location.lastColumn.toNat) row) ∧
    (¬ (location.lastLine = location.firstLine ∧ 0 < location.firstColumn) → carets = [])

/-! ## Bytes -/

/-- As many bytes as characters, where each takes one. -/
theorem utf8ByteSize_replicate (count : Nat) {char : Char} (narrow : char.utf8Size = 1) :
    (String.ofList (List.replicate count char)).utf8ByteSize = count := by
  induction count with
  | zero => rfl
  | succ count ih =>
    have one : String.ofList [char] = String.singleton char := String.singleton_eq_ofList.symm
    rw [List.replicate_succ, ← List.singleton_append, String.ofList_append, String.utf8ByteSize_append, ih, one,
      String.utf8ByteSize_singleton, narrow, Nat.add_comm]

/-- The bytes of a row are counted right. -/
theorem Row.size_eq (width : Nat) (row : Row) : row.size width = (row.text width).utf8ByteSize := by
  cases row with
  | line isError number text => rfl
  | carets first last =>
    have blank (count : Nat) : (blanks count).utf8ByteSize = count := utf8ByteSize_replicate count (by decide)
    have caret (count : Nat) : (String.ofList (List.replicate count '^')).utf8ByteSize = count :=
      utf8ByteSize_replicate count (by decide)
    have bar : " | ".utf8ByteSize = 3 := by decide
    have feed : "\n".utf8ByteSize = 1 := by decide
    rw [text, caretRow]
    simp only [String.utf8ByteSize_append, blank, caret, bar, feed]
    rfl

/-- **The sizes of rows add up to the bytes of their texts.** -/
theorem foldr_size (width : Nat) (rows : List Row) :
    rows.foldr (fun row total => row.size width + total) 0 =
      (String.ofList (rows.flatMap fun row => (row.text width).toList)).utf8ByteSize := by
  induction rows with
  | nil => rfl
  | cons row rest ih =>
    rw [List.foldr_cons, ih, List.flatMap_cons, String.ofList_append, String.utf8ByteSize_append, String.ofList_toList,
      Row.size_eq]

/-- **The window is the text of its rows**, if that can be a text. -/
theorem sourceWindow_eq (content : String) (location : Location) (context : UInt64) {text : String}
    (rows : (windowRows content location context).flatMap
      (fun row => (row.text (windowWidth content location context)).toList) = text.toList) :
    sourceWindow content location context = if text.utf8ByteSize ≤ textLimit then some text else none := by
  have joined : String.join ((windowRows content location context).map
      (Row.text (windowWidth content location context))) = text := by
    apply String.toList_injective
    rw [String.toList_join, List.flatMap_map, rows]
  unfold sourceWindow
  dsimp only
  rw [foldr_size, rows, String.ofList_toList, joined]

/-- A window whose numbers fit into a machine word ends where the context does, or with the last line. -/
theorem windowEnd_of_bounded (content : String) {line context : UInt64}
    (bounded : line.toNat + context.toNat < 18446744073709551616) :
    windowEnd content line context = min (line.toNat + context.toNat) (Text.lineCount content) := by
  have sum : (line + context).toNat = line.toNat + context.toNat := by
    rw [UInt64.toNat_add]
    exact Nat.mod_eq_of_lt bounded
  rw [windowEnd, sum]

/-- A text of ten lines, the last of them without an ending. -/
def tenLines : String := "one\ntwo\nthree\nfour\nfive\r\nsix\nseven\neight\nnine\nten"

example : sourceWindow tenLines (.onLine 9 3 1) 1 =
    some "              8 | eight\n    ERROR >>  9 | nine\n                |   ^\n             10 | ten\n" := by
  decide +kernel

/-- Where the numbers of the window do not fit into a machine word, the offending line may be missing. -/
example : sourceWindow "one\ntwo\nthree" (.onLine 2 1 1) 18446744073709551615 = some "             1 | one\n" := by
  decide +kernel

end Diagnostic

end DeclCheck
