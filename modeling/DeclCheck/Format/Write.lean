import DeclCheck.Format.Grammar
import DeclCheck.Json.Basic

/-!
# Writing data by the grammar

Every field of a record is written, in order and under its name; what is absent is written as `null`, a
variant without data as its name, and a variant with data as an object with one field.
-/

namespace DeclCheck.Format

/-- The field rules of a record slot. -/
def Slot.fieldRules (slot : Slot) : List FieldRule :=
  match slot.expected with
  | .record fields => fields
  | _ => []

/-- The slot of the items in a list slot. -/
def Slot.itemSlot : Slot → Slot
  | .many category => .one category
  | slot => slot

/-- The slot of what a variant of a choice slot carries. -/
def Slot.payloadSlot (slot : Slot) (name : String) : Slot :=
  match slot.expected with
  | .choice variants => ((variant? variants name).bind (·.slot)).getD slot
  | _ => slot

mutual

/-- **The JSON of a datum in a slot.** -/
def write (slot : Slot) : Datum → Json
  | .absent => .null
  | .flag value => .bool value
  | .count value => .number value.toNat
  | .text value => .string value
  | .list items => .array (writeItems slot.itemSlot items)
  | .record fields => .object (writeFields slot.fieldRules fields)
  | .tag variant => .string variant
  | .tagged variant payload => .object [(variant, write (slot.payloadSlot variant) payload)]

/-- The JSON of the items of a list. -/
def writeItems (slot : Slot) : List Datum → List Json
  | [] => []
  | item :: items => write slot item :: writeItems slot items

/-- The JSON of the fields of a record. -/
def writeFields : List FieldRule → List Datum → List (String × Json)
  | rule :: rules, datum :: data => (rule.name, write rule.slot datum) :: writeFields rules data
  | _, _ => []

end

end DeclCheck.Format
