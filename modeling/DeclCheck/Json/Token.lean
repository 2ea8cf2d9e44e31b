/-!
# Tokens of a JSON text

The lexical structure of strict JSON, with line numbers. Lines count from one. The only blanks are the
space, the tab, the line feed and the carriage return.

A text may stop being JSON in the middle of a token. Such a token is the last one, and records the line
of the fault, which is the line reached after the offending character: a line feed where it may not
stand puts the fault on the line after it.

A string token has two readings. Whoever *reads* its text needs all escapes to form characters; whoever
*skips* it needs the string to be delimited only. A lone surrogate is a fault to the first and none to
the second, so the content of a string token may be a fault while the text goes on behind it.
-/

namespace DeclCheck.Json

/-- What a token is. -/
inductive Lexeme where
  | openBrace | closeBrace | openBracket | closeBracket | colon | comma
  | null
  | bool (value : Bool)
  /-- A number as written. -/
  | number (literal : String)
  /-- A delimited string: its text, or the line of the fault in it. -/
  | text (content : Except Nat String)
  /-- A string that is never delimited: the lines of the faults met when it is read and skipped. -/
  | badText (reading skipping : Nat)
  /-- A word that begins as `null` and is not: the line of the fault. -/
  | badNull (fault : Nat)
  /-- Anything else: the line of the fault. -/
  | bad (fault : Nat)
  /-- The end of the text. -/
  | finish
  deriving Repr

/-- **A token and the line it begins on.** -/
structure Token where
  line : Nat
  lexeme : Lexeme
  deriving Repr

/-- How many lines a character ends. -/
def lineFeeds (char : Char) : Nat := if char = '\n' then 1 else 0

/-- How many lines the next character ends, if there is one. -/
def nextLineFeeds : List Char → Nat
  | [] => 0
  | char :: _ => lineFeeds char

/-! ## Strings -/

/-- The value of a hexadecimal digit. -/
def hexDigit? (char : Char) : Option Nat :=
  if '0' ≤ char ∧ char ≤ '9' then some (char.toNat - 48)
  else if 'a' ≤ char ∧ char ≤ 'f' then some (char.toNat - 87)
  else if 'A' ≤ char ∧ char ≤ 'F' then some (char.toNat - 55)
  else none

/-- The value of four hexadecimal digits. -/
def hexValue? (first second third fourth : Char) : Option Nat := do
  let first ← hexDigit? first
  let second ← hexDigit? second
  let third ← hexDigit? third
  let fourth ← hexDigit? fourth
  return ((first * 16 + second) * 16 + third) * 16 + fourth

/-- Whether a code unit is the first half of a surrogate pair. -/
def isHighSurrogate (unit : Nat) : Bool := 0xD800 ≤ unit && unit ≤ 0xDBFF

/-- Whether a code unit is the second half of a surrogate pair. -/
def isLowSurrogate (unit : Nat) : Bool := 0xDC00 ≤ unit && unit ≤ 0xDFFF

/-- The character of a surrogate pair. -/
def pairChar (high low : Nat) : Char :=
  Char.ofNat ((high - 0xD800) * 1024 + (low - 0xDC00) + 0x10000)

/-- The character of an escape of one letter. -/
def letterEscape? : Char → Option Char
  | '"' => some '"'
  | '\\' => some '\\'
  | '/' => some '/'
  | 'b' => some '\x08'
  | 'f' => some '\x0c'
  | 'n' => some '\n'
  | 'r' => some '\r'
  | 't' => some '\t'
  | _ => none

/-- How many lines end within the given number of bytes. The digits of an escape are taken four bytes
at a time. -/
def lineFeedsWithin : Nat → List Char → Nat
  | 0, _ => 0
  | _, [] => 0
  | bytes + 1, char :: rest => lineFeeds char + lineFeedsWithin (bytes + 1 - char.utf8Size) rest

/-- The text of a string read so far, the latest character first, or the line of the first fault. -/
abbrev Content := Except Nat (List Char)

namespace Content

/-- One more character. -/
def push (content : Content) (char : Char) : Content := content.map (char :: ·)

/-- A fault, unless there was one before. -/
def fail (content : Content) (line : Nat) : Content := content.bind fun _ => .error line

/-- What was read, once something other than a second surrogate half follows. A first half that is left
alone is a fault. -/
def settle (content : Content) (half : Option Nat) (line : Nat) : Content :=
  match half with
  | none => content
  | some _ => content.fail line

/-- The line of the first fault, given one more. -/
def faultOr (content : Content) (line : Nat) : Nat :=
  match content with
  | .ok _ => line
  | .error earlier => earlier

/-- The text that was read. -/
def text (content : Content) : Except Nat String :=
  content.map fun chars => String.ofList chars.reverse

end Content

/-- The outcome of scanning a string: its content and what follows it, or the lines of its faults. -/
inductive TextScan where
  | closed (content : Except Nat String) (rest : List Char)
  | broken (reading skipping : Nat)

/-- The broken string whose last fault lies on the given line. -/
def TextScan.brokenAt (content : Content) (line : Nat) : TextScan :=
  .broken (content.faultOr line) line

/-- Scan a string behind its opening quotation mark. `half` is the first half of a surrogate pair that
was read last, if one was. -/
def scanText (line : Nat) (content : Content) (half : Option Nat) : List Char → TextScan
  | [] => .brokenAt (content.settle half line) line
  | '"' :: rest => .closed (content.settle half line).text rest
  | '\\' :: 'u' :: a :: b :: c :: d :: rest =>
    match hexValue? a b c d with
    | none =>
      let fault := line + lineFeedsWithin 4 (a :: b :: c :: d :: rest)
      .brokenAt (content.settle half fault) fault
    | some unit =>
      if isHighSurrogate unit then scanText line (content.settle half line) (some unit) rest
      else if isLowSurrogate unit then
        match half with
        | some high => scanText line (content.push (pairChar high unit)) none rest
        | none => scanText line (content.fail line) none rest
      else scanText line ((content.settle half line).push (Char.ofNat unit)) none rest
  | '\\' :: 'u' :: rest =>
    let fault := line + lineFeedsWithin 4 rest
    .brokenAt (content.settle half fault) fault
  | '\\' :: char :: rest =>
    match letterEscape? char with
    | some meant => scanText line ((content.settle half line).push meant) none rest
    | none =>
      let fault := line + lineFeeds char
      .brokenAt (content.settle half fault) fault
  | ['\\'] => .brokenAt (content.settle half line) line
  | char :: rest =>
    if char.toNat < 32 then
      let fault := line + lineFeeds char
      .broken ((content.settle half fault).faultOr fault) line
    else scanText line ((content.settle half line).push char) none rest

/-! ## Numbers and words -/

/-- Whether a character is a decimal digit. -/
def isDigit (char : Char) : Bool := '0' ≤ char && char ≤ '9'

/-- What is left of a token: the part scanned and the rest, or the line of the fault. -/
abbrev Scan := Except Nat (List Char × List Char)

/-- The whole part of a number. A leading zero stands alone. -/
def scanWhole (line : Nat) (chars : List Char) : Scan :=
  match chars.takeWhile isDigit with
  | [] => .error (line + nextLineFeeds chars)
  | '0' :: _ :: _ => .error line
  | digits => .ok (digits, chars.dropWhile isDigit)

/-- The fraction of a number, if it has one. -/
def scanFraction (line : Nat) (chars : List Char) : Scan :=
  match chars with
  | '.' :: rest =>
    match rest.takeWhile isDigit with
    | [] => .error (line + nextLineFeeds rest)
    | digits => .ok ('.' :: digits, rest.dropWhile isDigit)
  | _ => .ok ([], chars)

/-- The sign of an exponent, if it has one. -/
def scanSign (chars : List Char) : List Char × List Char :=
  match chars with
  | '+' :: rest => (['+'], rest)
  | '-' :: rest => (['-'], rest)
  | _ => ([], chars)

/-- The exponent of a number, if it has one. -/
def scanExponent (line : Nat) (chars : List Char) : Scan :=
  match chars with
  | char :: rest =>
    if char = 'e' ∨ char = 'E' then
      let (sign, rest) := scanSign rest
      match rest.takeWhile isDigit with
      | [] => .error (line + nextLineFeeds rest)
      | digits => .ok (char :: sign ++ digits, rest.dropWhile isDigit)
    else .ok ([], chars)
  | [] => .ok ([], [])

/-- The minus sign of a number, if it has one. -/
def scanMinus (chars : List Char) : List Char × List Char :=
  match chars with
  | '-' :: rest => (['-'], rest)
  | _ => ([], chars)

/-- Scan a number. -/
def scanNumber (line : Nat) (chars : List Char) : Scan := do
  let (minus, rest) := scanMinus chars
  let (whole, rest) ← scanWhole line rest
  let (fraction, rest) ← scanFraction line rest
  let (exponent, rest) ← scanExponent line rest
  return (minus ++ whole ++ fraction ++ exponent, rest)

/-- Scan what is left of a word: the rest behind it, or the line of the fault. -/
def scanWord (line : Nat) : List Char → List Char → Except Nat (List Char)
  | [], rest => .ok rest
  | expected :: word, char :: rest =>
    if char = expected then scanWord line word rest else .error (line + lineFeeds char)
  | _ :: _, [] => .error line

/-! ## What is scanned comes off the front -/

/-- A text that was closed took at least its quote. -/
theorem scanText_length {line : Nat} {content : Content} {half : Option Nat} {chars : List Char}
    {text : Except Nat String} {rest : List Char}
    (scanned : scanText line content half chars = .closed text rest) :
    rest.length < chars.length := by
  fun_induction scanText line content half chars <;>
    simp_all [TextScan.brokenAt] <;> omega

/-- The digits of a number and what follows are all there was. -/
theorem scanWhole_append {line : Nat} {chars digits rest : List Char}
    (scanned : scanWhole line chars = .ok (digits, rest)) :
    digits ++ rest = chars ∧ digits ≠ [] := by
  unfold scanWhole at scanned
  split at scanned
  · cases scanned
  · cases scanned
  · rename_i nonempty _
    obtain ⟨rfl, rfl⟩ := Prod.mk.inj (Except.ok.inj scanned)
    exact ⟨List.takeWhile_append_dropWhile, nonempty⟩

/-- So are a fraction and what follows. -/
theorem scanFraction_append {line : Nat} {chars part rest : List Char}
    (scanned : scanFraction line chars = .ok (part, rest)) : part ++ rest = chars := by
  unfold scanFraction at scanned
  split at scanned
  · split at scanned
    · cases scanned
    · obtain ⟨rfl, rfl⟩ := Prod.mk.inj (Except.ok.inj scanned)
      simp
  · obtain ⟨rfl, rfl⟩ := Prod.mk.inj (Except.ok.inj scanned)
    rfl

theorem scanSign_append (chars : List Char) : (scanSign chars).1 ++ (scanSign chars).2 = chars := by
  unfold scanSign
  split <;> rfl

/-- So are an exponent and what follows. -/
theorem scanExponent_append {line : Nat} {chars part rest : List Char}
    (scanned : scanExponent line chars = .ok (part, rest)) : part ++ rest = chars := by
  unfold scanExponent at scanned
  split at scanned
  · split at scanned
    · rename_i char tail _
      have signed := scanSign_append tail
      simp only at scanned
      split at scanned
      · cases scanned
      · obtain ⟨rfl, rfl⟩ := Prod.mk.inj (Except.ok.inj scanned)
        simp [signed]
    · obtain ⟨rfl, rfl⟩ := Prod.mk.inj (Except.ok.inj scanned)
      rfl
  · obtain ⟨rfl, rfl⟩ := Prod.mk.inj (Except.ok.inj scanned)
    rfl

theorem scanMinus_append (chars : List Char) :
    (scanMinus chars).1 ++ (scanMinus chars).2 = chars := by
  unfold scanMinus
  split <;> rfl

/-- The literal of a number and what follows it make up what was scanned. -/
theorem scanNumber_append {line : Nat} {chars literal rest : List Char}
    (scanned : scanNumber line chars = .ok (literal, rest)) :
    literal ++ rest = chars ∧ literal ≠ [] := by
  unfold scanNumber at scanned
  have minus := scanMinus_append chars
  cases whole : scanWhole line (scanMinus chars).2 with
  | error fault => simp [whole, bind, Except.bind] at scanned
  | ok wholeParts =>
    obtain ⟨wholeEq, wholeNe⟩ := scanWhole_append whole
    cases fraction : scanFraction line wholeParts.2 with
    | error fault => simp [whole, fraction, bind, Except.bind] at scanned
    | ok fractionParts =>
      have fractionEq := scanFraction_append fraction
      cases exponent : scanExponent line fractionParts.2 with
      | error fault => simp [whole, fraction, exponent, bind, Except.bind] at scanned
      | ok exponentParts =>
        have exponentEq := scanExponent_append exponent
        simp only [whole, fraction, exponent, bind, Except.bind, pure, Except.pure,
          Except.ok.injEq, Prod.mk.injEq] at scanned
        obtain ⟨rfl, rfl⟩ := scanned
        constructor
        · simp only [List.append_assoc]
          rw [exponentEq, fractionEq, wholeEq, minus]
        · simp [wholeNe]

/-- A word takes its characters. -/
theorem scanWord_length {line : Nat} {word chars rest : List Char}
    (scanned : scanWord line word chars = .ok rest) : rest.length ≤ chars.length := by
  fun_induction scanWord line word chars <;> simp_all
  omega

/-! ## The lexer -/

/-- The lexeme of a character that is a token by itself. -/
def punctuation? : Char → Option Lexeme
  | '\x7b' => some .openBrace
  | '\x7d' => some .closeBrace
  | '[' => some .openBracket
  | ']' => some .closeBracket
  | ':' => some .colon
  | ',' => some .comma
  | _ => none

/-- A word of the format: the letters after its first, what it is, and what it is when a letter is
wrong. -/
structure Word where
  letters : List Char
  lexeme : Lexeme
  broken : Nat → Lexeme

/-- The word that a letter begins. -/
def word? : Char → Option Word
  | 'n' => some ⟨"ull".toList, .null, .badNull⟩
  | 't' => some ⟨"rue".toList, .bool true, .bad⟩
  | 'f' => some ⟨"alse".toList, .bool false, .bad⟩
  | _ => none

/-- Whether a character separates tokens. -/
def isBlank (char : Char) : Bool := char = ' ' ∨ char = '\t' ∨ char = '\n' ∨ char = '\r'

set_option linter.unusedVariables false in
/-- **The tokens of a text from a line on.** The last one is the end of the text or a fault. -/
def tokens (line : Nat) (chars : List Char) : List Token :=
  match chars with
  | [] => [⟨line, .finish⟩]
  | char :: rest =>
    if isBlank char then tokens (line + lineFeeds char) rest
    else
      match punctuation? char with
      | some lexeme => ⟨line, lexeme⟩ :: tokens line rest
      | none =>
        if char = '"' then
          match scanned : scanText line (.ok []) none rest with
          | .closed content after => ⟨line, .text content⟩ :: tokens line after
          | .broken reading skipping => [⟨line, .badText reading skipping⟩]
        else if char = '-' ∨ isDigit char then
          match scanned : scanNumber line (char :: rest) with
          | .ok (literal, after) => ⟨line, .number (String.ofList literal)⟩ :: tokens line after
          | .error fault => [⟨line, .bad fault⟩]
        else
          match word? char with
          | none => [⟨line, .bad line⟩]
          | some word =>
            match scanned : scanWord line word.letters rest with
            | .ok after => ⟨line, word.lexeme⟩ :: tokens line after
            | .error fault => [⟨line, word.broken fault⟩]
termination_by chars.length
decreasing_by
  · simp
  · simp
  · have := scanText_length scanned
    simp only [List.length_cons]
    omega
  · obtain ⟨split, nonempty⟩ := scanNumber_append scanned
    rw [← split]
    have := List.length_pos_iff.mpr nonempty
    simp only [List.length_append]
    omega
  · have := scanWord_length scanned
    simp only [List.length_cons]
    omega

end DeclCheck.Json
