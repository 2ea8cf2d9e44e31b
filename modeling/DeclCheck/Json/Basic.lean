/-!
# JSON values and their texts

The values that the library writes: there are no numbers but naturals, and the fields of an object keep
their order. A value has two texts. The compact one has no blanks. The pretty one has one item or field
on each line, two blanks of indentation for each level, and a blank after each colon; empty arrays and
objects are written in one piece.

Every printing function puts its text in front of what follows, so that a statement about the text of a
value can speak of the rest of the document too.
-/

namespace DeclCheck

/-- **A JSON value.** -/
inductive Json where
  | null
  | bool (value : Bool)
  | number (value : Nat)
  | string (text : String)
  | array (items : List Json)
  | object (fields : List (String × Json))
  deriving Repr, Inhabited

namespace Json

/-! ## Small texts -/

/-- The digit of a number below the given base, at most sixteen. Letters are lower case. -/
def digitChar (digit : Nat) : Char :=
  if digit < 10 then Char.ofNat (48 + digit) else Char.ofNat (87 + digit)

/-- The decimal text of a natural, in front of the rest. -/
def decimalOnto (value : Nat) (rest : List Char) : List Char :=
  if value < 10 then digitChar value :: rest
  else decimalOnto (value / 10) (digitChar (value % 10) :: rest)

/-- The decimal text of a natural. -/
def decimal (value : Nat) : String := String.ofList (decimalOnto value [])

/-- A character inside a string. Quotation marks, backslashes and control characters are escaped, the
latter by their letter where they have one. -/
def escaped (char : Char) : List Char :=
  match char with
  | '"' => ['\\', '"']
  | '\\' => ['\\', '\\']
  | '\n' => ['\\', 'n']
  | '\t' => ['\\', 't']
  | '\r' => ['\\', 'r']
  | '\x08' => ['\\', 'b']
  | '\x0c' => ['\\', 'f']
  | char =>
    if char.toNat < 32 then
      ['\\', 'u', '0', '0', digitChar (char.toNat / 16), digitChar (char.toNat % 16)]
    else [char]

/-- The text of a string, in front of the rest. -/
def stringOnto (text : String) (rest : List Char) : List Char :=
  '"' :: (text.toList.flatMap escaped ++ '"' :: rest)

/-- The text of a truth value, in front of the rest. -/
def boolOnto (value : Bool) (rest : List Char) : List Char :=
  (if value then "true" else "false").toList ++ rest

/-! ## The compact text -/

mutual

/-- The compact text of a value, in front of the rest. -/
def compactOnto : Json → List Char → List Char
  | null, rest => "null".toList ++ rest
  | bool value, rest => boolOnto value rest
  | number value, rest => decimalOnto value rest
  | string text, rest => stringOnto text rest
  | array items, rest => '[' :: compactItems items (']' :: rest)
  | object fields, rest => '\x7b' :: compactFields fields ('\x7d' :: rest)

/-- The compact texts of items, with commas between them. -/
def compactItems : List Json → List Char → List Char
  | [], rest => rest
  | [item], rest => item.compactOnto rest
  | item :: items, rest => item.compactOnto (',' :: compactItems items rest)

/-- The compact texts of fields, with commas between them. -/
def compactFields : List (String × Json) → List Char → List Char
  | [], rest => rest
  | [(name, value)], rest => stringOnto name (':' :: value.compactOnto rest)
  | (name, value) :: fields, rest =>
    stringOnto name (':' :: value.compactOnto (',' :: compactFields fields rest))

end

/-- **The compact text of a value.** -/
def compact (json : Json) : String := String.ofList (json.compactOnto [])

/-! ## The pretty text -/

/-- The beginning of a line at an indentation. -/
def newLine (indent : Nat) (rest : List Char) : List Char :=
  '\n' :: (List.replicate indent ' ' ++ rest)

/-- How much deeper the parts of a value are indented. -/
def indentStep : Nat := 2

mutual

/-- The pretty text of a value that stands at an indentation, in front of the rest. -/
def prettyOnto (indent : Nat) : Json → List Char → List Char
  | null, rest => "null".toList ++ rest
  | bool value, rest => boolOnto value rest
  | number value, rest => decimalOnto value rest
  | string text, rest => stringOnto text rest
  | array [], rest => '[' :: ']' :: rest
  | array (item :: items), rest =>
    '[' :: newLine (indent + indentStep)
      (prettyItems (indent + indentStep) (item :: items) (newLine indent (']' :: rest)))
  | object [], rest => '\x7b' :: '\x7d' :: rest
  | object (field :: fields), rest =>
    '\x7b' :: newLine (indent + indentStep)
      (prettyFields (indent + indentStep) (field :: fields) (newLine indent ('\x7d' :: rest)))

/-- The pretty texts of items, each on its own line. -/
def prettyItems (indent : Nat) : List Json → List Char → List Char
  | [], rest => rest
  | [item], rest => item.prettyOnto indent rest
  | item :: items, rest =>
    item.prettyOnto indent (',' :: newLine indent (prettyItems indent items rest))

/-- The pretty texts of fields, each on its own line. -/
def prettyFields (indent : Nat) : List (String × Json) → List Char → List Char
  | [], rest => rest
  | [(name, value)], rest => stringOnto name (':' :: ' ' :: value.prettyOnto indent rest)
  | (name, value) :: fields, rest =>
    stringOnto name (':' :: ' ' :: value.prettyOnto indent
      (',' :: newLine indent (prettyFields indent fields rest)))

end

/-- **The pretty text of a value.** -/
def pretty (json : Json) : String := String.ofList (json.prettyOnto 0 [])

/-! ## Abbreviations -/

/-- A text that may be absent. -/
def ofText? (text : Option String) : Json := (text.map string).getD null

/-- Several texts. -/
def ofTexts (texts : List String) : Json := array (texts.map string)

end Json

end DeclCheck
