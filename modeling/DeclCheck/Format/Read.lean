import DeclCheck.Format.Grammar
import DeclCheck.Json.Located

/-!
# Reading documents by the grammar

A tree is read in the order of its text, and the first fault ends the reading. A fault is known by its
line. Most faults lie on the line of the token at fault; three kinds are noticed later and lie where the
reading has got to by then: a required field that is missing, on the line of the closing bracket; a
repeated field, on the line of the token behind its name; and a variant that lacks its data, on the line
of the token behind it.

A record may be written as an object or as the array of its fields in order. In an object, fields may be
missing if they have a default, and unknown fields are passed over. In an array, only fields at the end
may be missing. A variant without data is written as its name, or as an object with one field that is
`null`; a variant with data is an object with one field.

Arrays and objects may be nested to a limited depth, except inside of what is passed over.
-/

namespace DeclCheck.Format

open Json (Located NamedPart Ending Document)

/-- Arrays and objects may be nested this deep. -/
def depthLimit : Nat := 127

/-- **Where the reading of a document ends early.** -/
inductive Fault where
  /-- On a line. -/
  | on (line : Nat)
  /-- On the line of the token behind the part that was read. -/
  | behind
  deriving DecidableEq, Repr

/-- The fault with its line, given that of the token behind. -/
def Fault.place (after : Nat) : Fault → Fault
  | on line => on line
  | behind => on after

/-- The outcome of reading a part of a document. -/
abbrev Reading (α : Type) := Except Fault α

/-- The outcome with its fault placed, given the line of the token behind the part. -/
def placed {α : Type} (after : Nat) (reading : Reading α) : Reading α :=
  reading.mapError (Fault.place after)

/-- The number that a literal spells: digits only, and small enough for a word. -/
def countOf? (literal : String) : Option UInt64 :=
  let digits := literal.toList
  if digits.all Json.isDigit then
    let value := digits.foldl (fun value digit => value * 10 + (digit.toNat - 48)) 0
    if value < UInt64.size then some (UInt64.ofNat value) else none
  else none

/-- The line of the fault of finding a node where something else is expected. -/
def misfit : Located → Nat
  | .text line content =>
    match content with
    | .ok _ => line
    | .error fault => fault
  | .badText _ reading _ => reading
  | .badNull _ fault | .bad _ fault => fault
  | node => node.line

/-- The fault of finding a node where something else is expected. -/
def refused {α : Type} (node : Located) : Reading α := .error (.on (misfit node))

/-- The line of the fault of finding what is no value, given its line and that of the fault in it. A
choice begins with a string or an object, and what begins otherwise is not read any further. -/
def Slot.misspelt (slot : Slot) (line fault : Nat) : Nat :=
  match slot.expected with
  | .choice _ => line
  | _ => fault

/-- The `null` that stands for the data of a variant that has none. -/
def readNull : Located → Reading Unit
  | .null _ => .ok ()
  | node => refused node

/-- The variant that a string names. It has to be one without data. -/
def readTag (variants : List VariantRule) (line : Nat) (content : Except Nat String) :
    Reading Datum :=
  match content with
  | .error fault => .error (.on fault)
  | .ok name =>
    match variant? variants name with
    | none => .error (.on line)
    | some found => if found.slot.isNone then .ok (.tag name) else .error .behind

/-- The defaults of fields that are missing at the end. The line is that of the closing bracket. -/
def defaults (line : Nat) : List FieldRule → Reading (List Datum)
  | [] => .ok []
  | field :: fields =>
    match field.default? with
    | none => .error (.on line)
    | some datum => (defaults line fields).map (datum :: ·)

/-- The fields of a record in their declared order, from those found in an object. -/
def assemble (line : Nat) (found : List (String × Datum)) : List FieldRule → Reading (List Datum)
  | [] => .ok []
  | field :: fields =>
    match (found.lookup field.name).or field.default? with
    | none => .error (.on line)
    | some datum => (assemble line found fields).map (datum :: ·)

/-- The line of the token behind an item of an array, given what follows the item. -/
def lineBehind : List Located → Ending → Nat
  | [], ending => ending.line
  | next :: _, _ => next.line

/-- What an ending says to those who have read everything before it. -/
def readEnding : Ending → Reading Unit
  | .closed _ => .ok ()
  | .broken reading _ => .error (.on reading)

mutual

/-- **Read a node as what a slot holds**, with the given number of levels left for nesting. -/
def read (depth : Nat) (slot : Slot) : Located → Reading Datum
  | .null line => if slot.isOptional then .ok .absent else .error (.on line)
  | .bool line value =>
    match slot.expected with
    | .flag => .ok (.flag value)
    | _ => .error (.on line)
  | .number line literal =>
    match slot.expected, countOf? literal with
    | .count, some value => .ok (.count value)
    | _, _ => .error (.on line)
  | .text line content =>
    match slot.expected with
    | .text => (content.mapError Fault.on).map .text
    | .choice variants => readTag variants line content
    | _ => refused (.text line content)
  | .array line items ending =>
    match slot.expected, depth with
    | .many category, depth + 1 => (readItems depth category items ending).map .list
    | .record fields, depth + 1 => (readPositional depth fields items ending).map .record
    | _, _ => .error (.on line)
  | .object line fields ending =>
    match slot.expected, depth with
    | .record rules, depth + 1 => do
      let found ← readFields depth rules [] fields ending
      let data ← assemble ending.line found rules
      return .record data
    | .choice variants, depth + 1 => readVariant depth variants fields ending
    | _, _ => .error (.on line)
  | .badText _ reading _ => .error (.on reading)
  | .badNull line fault =>
    if slot.isOptional then .error (.on fault) else .error (.on (slot.misspelt line fault))
  | .bad line fault => .error (.on (slot.misspelt line fault))

/-- Read the items of an array, all of one category. -/
def readItems (depth : Nat) (category : Category) :
    List Located → Ending → Reading (List Datum)
  | [], ending => (readEnding ending).map fun _ => []
  | item :: items, ending => do
    let datum ← placed (lineBehind items ending) (read depth (.one category) item)
    let data ← readItems depth category items ending
    return datum :: data

/-- Read a record written as the array of its fields. -/
def readPositional (depth : Nat) (rules : List FieldRule) :
    List Located → Ending → Reading (List Datum)
  | [], ending => do
    readEnding ending
    defaults ending.line rules
  | item :: items, ending =>
    match rules with
    | [] => .error (.on item.line)
    | rule :: rules => do
      let datum ← placed (lineBehind items ending) (read depth rule.slot item)
      let data ← readPositional depth rules items ending
      return datum :: data

/-- Read the fields of a record written as an object, and add them to those found before. -/
def readFields (depth : Nat) (rules : List FieldRule) (found : List (String × Datum)) :
    List (NamedPart Located) → Ending → Reading (List (String × Datum))
  | [], ending => (readEnding ending).map fun _ => found
  | ⟨_, name, afterName, value, afterValue⟩ :: fields, ending =>
    match name with
    | .error fault => .error (.on fault)
    | .ok name =>
      match field? rules name with
      | none => do
        value.skip.mapError Fault.on
        readFields depth rules found fields ending
      | some rule =>
        if (found.lookup name).isSome then .error (.on afterName)
        else do
          let datum ← placed afterValue (read depth rule.slot value)
          readFields depth rules (found ++ [(name, datum)]) fields ending

/-- Read a variant written as an object with one field. -/
def readVariant (depth : Nat) (variants : List VariantRule) :
    List (NamedPart Located) → Ending → Reading Datum
  | [], ending => .error (.on ending.line)
  | ⟨line, name, _, value, afterValue⟩ :: fields, ending =>
    match name with
    | .error fault => .error (.on fault)
    | .ok name =>
      match variant? variants name with
      | none => .error (.on line)
      | some variant => do
        let datum ←
          match variant.slot with
          | none => (readNull value).map fun _ => Datum.tag name
          | some slot => (read depth slot value).map (Datum.tagged name)
        match fields, ending with
        | [], .closed _ => return datum
        | _, _ => .error (.on afterValue)

end

/-- Read a whole document. -/
def readDocument (category : Category) (document : Document) : Reading Datum := do
  let datum ← placed document.root.line (read depthLimit (.one category) document.root)
  match document.trailing with
  | none => return datum
  | some line => .error (.on line)

/-- **Read a text as a datum of a category**, or find the line of its first fault. -/
def readText (category : Category) (text : String) : Except Nat Datum :=
  match readDocument category (Document.ofText text) with
  | .ok datum => .ok datum
  | .error (.on line) => .error line
  | .error .behind => .error 1

end DeclCheck.Format
