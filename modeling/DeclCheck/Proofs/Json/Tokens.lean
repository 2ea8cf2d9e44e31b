import DeclCheck.Json.Basic
import DeclCheck.Json.Token

/-!
# The tokens of written texts

The texts that values are written as fall into the tokens they were made of. Lines do not matter here: of a token
only its lexeme counts, and blanks between tokens are passed over.

A number is the one token that nothing delimits. What follows a value in a written text is a comma, a closing bracket,
a new line or the end, and each of these ends a number.
-/

namespace DeclCheck.Json

/-! ## Numbers -/

/-- Whether a number may end in front of a text. -/
def Delimited : List Char → Prop
  | [] => True
  | char :: _ => char = ',' ∨ char = ']' ∨ char = '\x7d' ∨ char = '\n'

namespace Delimited

/-- A comma ends a number. -/
theorem comma (rest : List Char) : Delimited (',' :: rest) := by simp [Delimited]

theorem closeBracket (rest : List Char) : Delimited (']' :: rest) := by simp [Delimited]

theorem closeBrace (rest : List Char) : Delimited ('\x7d' :: rest) := by simp [Delimited]

/-- So does a new line. -/
theorem newLine (indent : Nat) (rest : List Char) : Delimited (newLine indent rest) := by simp [Delimited, Json.newLine]

end Delimited

/-- The characters of digits are digits. -/
theorem isDigit_digitChar : ∀ digit < 10, isDigit (digitChar digit) = true := by decide

/-- They stand in a row from zero on. -/
theorem toNat_digitChar : ∀ digit < 10, (digitChar digit).toNat = 48 + digit := by decide

/-- What follows a number is not touched when the number is written. -/
theorem decimalOnto_append (value : Nat) (front rest : List Char) :
    decimalOnto value (front ++ rest) = decimalOnto value front ++ rest := by
  fun_induction decimalOnto value front with
  | case1 value front small => rw [decimalOnto, if_pos small, List.cons_append]
  | case2 value front large ih => rw [decimalOnto, if_neg large, ← ih, List.cons_append]

/-- So a number is written in front of what follows. -/
theorem decimalOnto_eq_append (value : Nat) (rest : List Char) :
    decimalOnto value rest = decimalOnto value [] ++ rest :=
  decimalOnto_append value [] rest

/-- A number is written in digits alone. -/
theorem isDigit_decimalOnto {value : Nat} {rest : List Char} (digits : ∀ char ∈ rest, isDigit char = true) :
    ∀ char ∈ decimalOnto value rest, isDigit char = true := by
  fun_induction decimalOnto value rest with
  | case1 value rest small => exact List.forall_mem_cons.mpr ⟨isDigit_digitChar value small, digits⟩
  | case2 value rest large ih =>
    exact ih (List.forall_mem_cons.mpr ⟨isDigit_digitChar _ (Nat.mod_lt _ (by decide)), digits⟩)

/-- A number begins with a digit, which is zero only if the number is. -/
theorem exists_first_digit (value : Nat) (rest : List Char) :
    ∃ digit tail, decimalOnto value rest = digitChar digit :: tail ∧ digit < 10 ∧ (0 < value → 0 < digit) := by
  fun_induction decimalOnto value rest with
  | case1 value rest small => exact ⟨value, rest, rfl, small, id⟩
  | case2 value rest large ih =>
    obtain ⟨digit, tail, begins, small, positive⟩ := ih
    exact ⟨digit, tail, begins, small, fun _ => positive (Nat.div_pos (Nat.le_of_not_lt large) (by decide))⟩

/-- **No number is written with a leading zero**, except zero itself. -/
theorem decimalOnto_ne_zero_cons (value : Nat) (second : Char) (rest : List Char) :
    decimalOnto value [] ≠ '0' :: second :: rest := by
  rcases Nat.eq_zero_or_pos value with rfl | positive
  · rw [decimalOnto, if_pos (by decide)]
    exact fun same => nomatch same
  · obtain ⟨digit, tail, begins, small, nonzero⟩ := exists_first_digit value []
    have other : ∀ digit < 10, 0 < digit → digitChar digit ≠ '0' := by decide
    rw [begins]
    exact fun same => other digit small (nonzero positive) (List.cons.inj same).1

/-- What ends a number is not a digit. -/
theorem Delimited.not_isDigit {rest : List Char} (delimited : Delimited rest) :
    ∀ char ∈ rest.head?, isDigit char = false := by
  cases rest with
  | nil => exact fun _ mem => nomatch mem
  | cons char rest =>
    rintro _ ⟨⟩
    rcases delimited with rfl | rfl | rfl | rfl <;> rfl

/-- The digits of a number are all that is taken of a text behind which a number may end. -/
theorem takeWhile_decimalOnto (value : Nat) {rest : List Char} (delimited : Delimited rest) :
    (decimalOnto value rest).takeWhile isDigit = decimalOnto value [] ∧
      (decimalOnto value rest).dropWhile isDigit = rest := by
  have digits : ∀ char ∈ decimalOnto value [], isDigit char = true := isDigit_decimalOnto (List.forall_mem_nil _)
  have stops := delimited.not_isDigit
  rw [decimalOnto_eq_append, List.takeWhile_append_of_pos digits, List.dropWhile_append_of_pos digits]
  cases rest with
  | nil => exact ⟨List.append_nil _, rfl⟩
  | cons char rest =>
    have stop := stops char rfl
    simp [stop]

/-- **A written number is scanned up to its end**, and no farther. -/
theorem scanWhole_decimalOnto (line value : Nat) {rest : List Char} (delimited : Delimited rest) :
    scanWhole line (decimalOnto value rest) = .ok (decimalOnto value [], rest) := by
  obtain ⟨taken, dropped⟩ := takeWhile_decimalOnto value delimited
  unfold scanWhole
  rw [taken, dropped]
  split
  · rename_i empty
    obtain ⟨digit, tail, begins, -⟩ := exists_first_digit value []
    cases begins.symm.trans empty
  · rename_i second tail zero
    exact absurd zero (decimalOnto_ne_zero_cons value second tail)
  · rfl

/-- No written number has a sign. -/
theorem scanMinus_decimalOnto (value : Nat) (rest : List Char) :
    scanMinus (decimalOnto value rest) = ([], decimalOnto value rest) := by
  obtain ⟨digit, tail, begins, small, -⟩ := exists_first_digit value rest
  have other : ∀ digit < 10, digitChar digit ≠ '-' := by decide
  rw [begins]
  unfold scanMinus
  split
  · rename_i minus
    exact absurd (List.cons.inj minus).1 (other digit small)
  · rfl

/-- No fraction and no exponent begins where a number may end. -/
theorem Delimited.scan {rest : List Char} (delimited : Delimited rest) (line : Nat) :
    scanFraction line rest = .ok ([], rest) ∧ scanExponent line rest = .ok ([], rest) := by
  cases rest with
  | nil => exact ⟨rfl, rfl⟩
  | cons char rest => rcases delimited with rfl | rfl | rfl | rfl <;> exact ⟨rfl, rfl⟩

/-- **A written number is scanned as a whole.** -/
theorem scanNumber_decimalOnto (line value : Nat) {rest : List Char} (delimited : Delimited rest) :
    scanNumber line (decimalOnto value rest) = .ok (decimalOnto value [], rest) := by
  obtain ⟨fraction, exponent⟩ := delimited.scan line
  simp only [scanNumber, scanMinus_decimalOnto, scanWhole_decimalOnto line value delimited, fraction, exponent, bind,
    Except.bind, pure, Except.pure, List.nil_append, List.append_nil]

/-! ## Strings -/

/-- A hexadecimal digit is read as what it stands for. -/
theorem hexDigit?_digitChar : ∀ digit < 16, hexDigit? (digitChar digit) = some digit := by decide

/-- A control character is read back from its code. -/
theorem scanText_control (line : Nat) (read rest : List Char) {char : Char} (control : char.toNat < 32) :
    scanText line (.ok read) none
        ('\\' :: 'u' :: '0' :: '0' :: digitChar (char.toNat / 16) :: digitChar (char.toNat % 16) :: rest) =
      scanText line (.ok (char :: read)) none rest := by
  have value : hexValue? '0' '0' (digitChar (char.toNat / 16)) (digitChar (char.toNat % 16)) = some char.toNat := by
    have high := hexDigit?_digitChar (char.toNat / 16) (by omega)
    have low := hexDigit?_digitChar (char.toNat % 16) (by omega)
    have zero : hexDigit? '0' = some 0 := rfl
    simp only [hexValue?, high, low, zero, Option.bind_eq_bind, Option.bind_some, Option.pure_def, Option.some.injEq]
    omega
  have alone : isHighSurrogate char.toNat = false ∧ isLowSurrogate char.toNat = false := by
    simp only [isHighSurrogate, isLowSurrogate, Bool.and_eq_false_iff, decide_eq_false_iff_not]
    omega
  simp only [scanText, value, alone, Bool.false_eq_true, if_false, Content.settle, Content.push, Except.map,
    Char.ofNat_toNat]

/-- A character that needs no escape is read as it is. -/
theorem scanText_plain (line : Nat) (read rest : List Char) {char : Char} (quote : char ≠ '"') (slash : char ≠ '\\')
    (printed : ¬char.toNat < 32) :
    scanText line (.ok read) none (char :: rest) = scanText line (.ok (char :: read)) none rest := by
  rw [scanText]
  · simp only [if_neg printed, Content.settle, Content.push, Except.map]
  · exact quote
  all_goals intros; contradiction

/-- **A character inside a string is read back from its escape.** -/
theorem scanText_escaped (line : Nat) (read : List Char) (char : Char) (rest : List Char) :
    scanText line (.ok read) none (escaped char ++ rest) = scanText line (.ok (char :: read)) none rest := by
  unfold escaped
  split
  case h_8 quote slash _ _ _ _ _ =>
    split
    · rename_i control
      exact scanText_control line read rest control
    · rename_i printed
      exact scanText_plain line read rest quote slash printed
  all_goals rfl

/-- **An escaped text is scanned back**, up to the closing quote. -/
theorem scanText_flatMap_escaped (line : Nat) (read text rest : List Char) :
    scanText line (.ok read) none (text.flatMap escaped ++ '"' :: rest) =
      .closed (.ok (String.ofList (read.reverse ++ text))) rest := by
  induction text generalizing read with
  | nil =>
    rw [List.flatMap_nil, List.nil_append, scanText, List.append_nil]
    rfl
  | cons char text ih =>
    rw [List.flatMap_cons, List.append_assoc, scanText_escaped, ih, List.reverse_cons, List.append_assoc]
    rfl

/-! ## Tokens in front of a text -/

/-- **Whether a text begins with given lexemes**, followed by the rest: wherever the text stands, its tokens are those
of the lexemes and those of the rest. -/
def Lexes (lexemes : List Lexeme) (chars rest : List Char) : Prop :=
  ∀ line, ∃ found after, tokens line chars = found ++ tokens after rest ∧ found.map (·.lexeme) = lexemes

namespace Lexes

variable {lexemes later : List Lexeme} {chars middle rest : List Char}

/-- No tokens take no characters. -/
theorem refl (chars : List Char) : Lexes [] chars chars := fun line => ⟨[], line, rfl, rfl⟩

/-- Tokens in a row are read one after another. -/
theorem append (first : Lexes lexemes chars middle) (second : Lexes later middle rest) :
    Lexes (lexemes ++ later) chars rest := by
  intro line
  obtain ⟨found, after, split, here⟩ := first line
  obtain ⟨others, last, splitRest, there⟩ := second after
  refine ⟨found ++ others, last, ?_, ?_⟩
  · rw [split, splitRest, List.append_assoc]
  · rw [List.map_append, here, there]

/-- Blanks between tokens are skipped. -/
theorem blank {char : Char} (blank : isBlank char = true) (after : Lexes lexemes chars rest) :
    Lexes lexemes (char :: chars) rest := by
  intro line
  rw [tokens, if_pos blank]
  exact after _

/-- A token that is one character. -/
theorem punctuation (char : Char) {lexeme : Lexeme} (meant : punctuation? char = some lexeme)
    (after : Lexes lexemes chars rest) : Lexes (lexeme :: lexemes) (char :: chars) rest := by
  have solid : isBlank char = false := by
    unfold punctuation? at meant
    split at meant
    all_goals first | rfl | cases meant
  intro line
  obtain ⟨found, last, split, here⟩ := after line
  refine ⟨⟨line, lexeme⟩ :: found, last, ?_, ?_⟩
  · rw [tokens, if_neg (Bool.eq_false_iff.mp solid), meant]
    exact congrArg (⟨line, lexeme⟩ :: ·) split
  · rw [List.map_cons, here]

/-- A written text is read as one token. -/
theorem string (text : String) (rest : List Char) : Lexes [.text (.ok text)] (stringOnto text rest) rest := by
  intro line
  refine ⟨[⟨line, .text (.ok text)⟩], line, ?_, rfl⟩
  have scanned : scanText line (.ok []) none (text.toList.flatMap escaped ++ '"' :: rest) =
      .closed (.ok text) rest := by
    rw [scanText_flatMap_escaped, List.reverse_nil, List.nil_append, String.ofList_toList]
  rw [stringOnto, tokens, if_neg (by decide)]
  split
  · rename_i meant
    cases meant
  · rw [if_pos rfl]
    split
    · rename_i content after found
      cases scanned.symm.trans found
      rfl
    · rename_i found
      cases scanned.symm.trans found

/-- A written number is read as one token, where something ends it. -/
theorem number (value : Nat) (delimited : Delimited rest) :
    Lexes [.number (decimal value)] (decimalOnto value rest) rest := by
  intro line
  refine ⟨[⟨line, .number (decimal value)⟩], line, ?_, rfl⟩
  have scanned := scanNumber_decimalOnto line value delimited
  obtain ⟨digit, tail, begins, small, -⟩ := exists_first_digit value rest
  have begin : ∀ digit < 10, isBlank (digitChar digit) = false ∧ (punctuation? (digitChar digit)).isNone = true ∧
      digitChar digit ≠ '"' := by decide
  obtain ⟨solid, long, unquoted⟩ := begin digit small
  rw [begins] at scanned ⊢
  rw [tokens, if_neg (Bool.eq_false_iff.mp solid), Option.isNone_iff_eq_none.mp long]
  dsimp only
  rw [if_neg unquoted, if_pos (Or.inr (isDigit_digitChar digit small))]
  split
  · rename_i literal after found
    cases scanned.symm.trans found
    rfl
  · rename_i found
    cases scanned.symm.trans found

/-- A token that is a word. -/
theorem word (char : Char) {word : Word} (begins : word? char = some word) (rest : List Char) :
    Lexes [word.lexeme] (char :: (word.letters ++ rest)) rest := by
  have scanned : ∀ line, scanWord line word.letters (word.letters ++ rest) = .ok rest := by
    intro line
    induction word.letters with
    | nil => rfl
    | cons letter letters ih => rw [List.cons_append, scanWord, if_pos rfl, ih]
  intro line
  refine ⟨[⟨line, word.lexeme⟩], line, ?_, rfl⟩
  have letter : isBlank char = false ∧ (punctuation? char).isNone = true ∧ char ≠ '"' ∧
      ¬(char = '-' ∨ isDigit char = true) := by
    unfold word? at begins
    split at begins
    all_goals first | decide | cases begins
  obtain ⟨solid, long, unquoted, lettered⟩ := letter
  rw [tokens, if_neg (Bool.eq_false_iff.mp solid), Option.isNone_iff_eq_none.mp long]
  dsimp only
  rw [if_neg unquoted, if_neg lettered, begins]
  dsimp only
  split
  · rename_i after found
    cases (scanned line).symm.trans found
    rfl
  · rename_i found
    cases (scanned line).symm.trans found

/-- A written `null` is read as one token. -/
theorem null (rest : List Char) : Lexes [.null] ("null".toList ++ rest) rest :=
  word 'n' rfl rest

/-- So is a truth value. -/
theorem bool (value : Bool) (rest : List Char) : Lexes [.bool value] (boolOnto value rest) rest := by
  cases value with
  | true => exact word 't' rfl rest
  | false => exact word 'f' rfl rest

/-- A new line with its indentation is skipped. -/
theorem newLine (indent : Nat) (after : Lexes lexemes chars rest) : Lexes lexemes (newLine indent chars) rest := by
  have indented : Lexes lexemes (List.replicate indent ' ' ++ chars) rest := by
    induction indent with
    | zero => exact after
    | succ indent ih => exact blank rfl ih
  exact blank rfl indented

end Lexes

end DeclCheck.Json
