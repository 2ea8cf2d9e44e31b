import DeclCheck.Format.Read
import DeclCheck.Format.Write
import DeclCheck.Proofs.Json.Documents

/-!
# Reading what is written

A datum *fits* a slot if the grammar forms it there. The JSON of such a datum is read back as the datum itself, from
any tree that spells it, as long as it is not nested too deep. The proof needs one thing of the grammar: no record has
two fields of one name.

Texts that no datum is written as are not looked at: neither which of them are read, nor how the others are refused.
-/

namespace DeclCheck

/-! ## Depth -/

namespace Json

mutual

/-- **How deep arrays and objects are nested in a value.** -/
def depth : Json → Nat
  | null | bool _ | number _ | string _ => 0
  | array items => itemsDepth items + 1
  | object fields => fieldsDepth fields + 1

/-- How deep items are nested at most. -/
def itemsDepth : List Json → Nat
  | [] => 0
  | item :: items => max item.depth (itemsDepth items)

/-- How deep the values of fields are nested at most. -/
def fieldsDepth : List (String × Json) → Nat
  | [] => 0
  | (_, value) :: fields => max value.depth (fieldsDepth fields)

end

end Json

namespace Format

open Json (Located NamedPart Ending Spells SpellItems SpellFields)

/-! ## Data that fit -/

mutual

/-- **Whether the grammar forms a datum in a slot.** -/
def Fits (slot : Slot) : Datum → Prop
  | .absent => slot.isOptional = true
  | .flag _ => slot.expected = .flag
  | .count _ => slot.expected = .count
  | .text _ => slot.expected = .text
  | .list items =>
    match slot.expected with
    | .many category => AllFit (.one category) items
    | _ => False
  | .record fields =>
    match slot.expected with
    | .record rules => FieldsFit rules fields
    | _ => False
  | .tag variant =>
    match slot.expected with
    | .choice variants => (variant? variants variant).map (·.slot) = some none
    | _ => False
  | .tagged variant payload =>
    match slot.expected with
    | .choice variants =>
      match (variant? variants variant).bind (·.slot) with
      | some slot => Fits slot payload
      | none => False
    | _ => False

/-- Whether the grammar forms all items of a list in a slot. -/
def AllFit (slot : Slot) : List Datum → Prop
  | [] => True
  | item :: items => Fits slot item ∧ AllFit slot items

/-- Whether the grammar forms the fields of a record, one for each rule. -/
def FieldsFit : List FieldRule → List Datum → Prop
  | [], [] => True
  | rule :: rules, datum :: data => Fits rule.slot datum ∧ FieldsFit rules data
  | _, _ => False

end

/-! ## Counts -/

/-- Reading the digits of a number in order gives the number. -/
theorem foldl_decimalOnto (value : Nat) (rest : List Char) :
    (Json.decimalOnto value rest).foldl (fun value digit => value * 10 + (digit.toNat - 48)) 0 =
      rest.foldl (fun value digit => value * 10 + (digit.toNat - 48)) value := by
  fun_induction Json.decimalOnto value rest with
  | case1 value rest small =>
    rw [List.foldl_cons, Json.toNat_digitChar value small, Nat.zero_mul, Nat.zero_add, Nat.add_sub_cancel_left]
  | case2 value rest large ih =>
    have digit : value % 10 < 10 := Nat.mod_lt _ (by decide)
    rw [ih, List.foldl_cons, Json.toNat_digitChar _ digit, Nat.add_sub_cancel_left, Nat.div_add_mod']

/-- **A count is read back from its decimal text.** -/
theorem countOf?_decimal (value : UInt64) : countOf? (Json.decimal value.toNat) = some value := by
  have digits : (Json.decimalOnto value.toNat []).all Json.isDigit = true :=
    List.all_eq_true.mpr (Json.isDigit_decimalOnto (List.forall_mem_nil _))
  simp only [countOf?, Json.decimal, String.toList_ofList, digits, if_true, foldl_decimalOnto, List.foldl_nil,
    if_pos value.toNat_lt_size, UInt64.ofNat_toNat]

/-! ## Records -/

/-- **No record has two fields of one name.** -/
theorem nodup_fieldNames {category : Category} {fields : List FieldRule} (record : rule category = .record fields) :
    (fields.map (·.name)).Nodup := by
  cases category
  all_goals first | cases record; decide | cases record

/-- A field is found by its name, if names are unique. -/
theorem field?_eq_some {rules : List FieldRule} (unique : (rules.map (·.name)).Nodup) {rule : FieldRule}
    (mem : rule ∈ rules) : field? rules rule.name = some rule := by
  induction rules with
  | nil => cases mem
  | cons first rest ih =>
    obtain ⟨apart, unique⟩ := List.nodup_cons.mp unique
    rw [field?, List.find?_cons]
    rcases List.mem_cons.mp mem with rfl | later
    · rw [beq_self_eq_true]
    · have other : (first.name == rule.name) = false :=
        beq_eq_false_iff_ne.mpr fun same => apart (List.mem_map.mpr ⟨rule, later, same.symm⟩)
      rw [other]
      exact ih unique later

/-- Whether the fields that are left of a record differ from each other and from those found. -/
structure Fresh (found : List (String × Datum)) (left : List FieldRule) : Prop where
  unique : (left.map (·.name)).Nodup
  unseen : ∀ rule ∈ left, found.lookup rule.name = none

/-- A field that was read is no longer left. -/
theorem Fresh.step {found : List (String × Datum)} {rule : FieldRule} {left : List FieldRule}
    (fresh : Fresh found (rule :: left)) (datum : Datum) : Fresh (found ++ [(rule.name, datum)]) left := by
  obtain ⟨apart, unique⟩ := List.nodup_cons.mp fresh.unique
  refine ⟨unique, fun other later => ?_⟩
  have differs : (other.name == rule.name) = false :=
    beq_eq_false_iff_ne.mpr fun same => apart (List.mem_map.mpr ⟨other, later, same⟩)
  rw [List.lookup_append, fresh.unseen other (List.mem_cons_of_mem _ later), List.lookup_cons, differs]
  rfl

/-- The fields of a record that were all found are assembled in their order. -/
theorem assemble_append {left : List FieldRule} {data : List Datum} (fit : FieldsFit left data)
    {found : List (String × Datum)} (fresh : Fresh found left) (line : Nat) :
    assemble line (found ++ (left.map (·.name)).zip data) left = .ok data := by
  induction left generalizing data found with
  | nil =>
    cases data with
    | nil => rfl
    | cons datum data => cases fit
  | cons rule left ih =>
    cases data with
    | nil => cases fit
    | cons datum data =>
      have others := ih fit.2 (fresh.step datum)
      rw [List.append_assoc, List.singleton_append] at others
      rw [List.map_cons, List.zip_cons_cons, assemble, List.lookup_append, fresh.unseen rule List.mem_cons_self,
        List.lookup_cons_self, others]
      rfl

/-! ## Slots -/

/-- Only a slot for many expects many. -/
theorem Slot.eq_many_of_expected {slot : Slot} {category : Category} (expected : slot.expected = .many category) :
    slot = .many category := by
  cases slot with
  | many other =>
    cases expected
    rfl
  | text | count | flag => cases expected
  | one other | optional other =>
    simp only [Slot.expected] at expected
    split at expected <;> cases expected

/-- The fields of a record have different names. -/
theorem Slot.nodup_of_expected {slot : Slot} {rules : List FieldRule} (expected : slot.expected = .record rules) :
    (rules.map (·.name)).Nodup := by
  cases slot with
  | text | count | flag | many => cases expected
  | one category | optional category =>
    simp only [Slot.expected] at expected
    split at expected
    · rename_i record
      cases expected
      exact nodup_fieldNames record
    · cases expected

section

variable {slot : Slot} {depth line : Nat} {ending : Ending}

/-- An array is read item by item where many are expected. -/
theorem read_array_of_many {category : Category} (expected : slot.expected = .many category) (items : List Located) :
    read (depth + 1) slot (.array line items ending) = (readItems depth category items ending).map .list := by
  simp only [read, expected]

/-- An object is read field by field where a record is expected. -/
theorem read_object_of_record {rules : List FieldRule} (expected : slot.expected = .record rules)
    (parts : List (NamedPart Located)) :
    read (depth + 1) slot (.object line parts ending) = (do
      let found ← readFields depth rules [] parts ending
      let data ← assemble ending.line found rules
      return .record data) := by
  simp only [read, expected]

/-- It is read as a variant where there is a choice. -/
theorem read_object_of_choice {variants : List VariantRule} (expected : slot.expected = .choice variants)
    (parts : List (NamedPart Located)) :
    read (depth + 1) slot (.object line parts ending) = readVariant depth variants parts ending := by
  simp only [read, expected]

end

/-! ## The way back -/

mutual

/-- **What is written for a datum is read as that datum.** -/
theorem read_write : ∀ (datum : Datum) {slot : Slot} {node : Located} {depth : Nat}, Fits slot datum →
    Spells node (write slot datum) → (write slot datum).depth ≤ depth → read depth slot node = .ok datum
  | .absent, slot, _, depth, fit, .null line, _ => by
    rw [Fits] at fit
    rw [read, if_pos fit]
  | .flag value, slot, _, depth, fit, .bool line _, _ => by
    rw [Fits] at fit
    simp only [read, fit]
  | .count value, slot, _, depth, fit, .number line _, _ => by
    rw [Fits] at fit
    simp only [read, fit, countOf?_decimal]
  | .text value, slot, _, depth, fit, .text line _, _ => by
    rw [Fits] at fit
    simp only [read, fit]
    rfl
  | .list items, slot, _, depth, fit, .array line closing each, shallow => by
    simp only [Fits] at fit
    split at fit
    · rename_i category expected
      cases Slot.eq_many_of_expected expected
      cases depth with
      | zero => cases shallow
      | succ depth =>
        rw [read_array_of_many expected, readItems_write items closing fit each (Nat.le_of_succ_le_succ shallow)]
        rfl
    · cases fit
  | .record data, slot, _, depth, fit, .object line closing each, shallow => by
    simp only [Fits] at fit
    split at fit
    · rename_i rules expected
      have unique := Slot.nodup_of_expected expected
      have fresh : Fresh [] rules := ⟨unique, fun _ _ => rfl⟩
      have named : slot.fieldRules = rules := by simp only [Slot.fieldRules, expected]
      rw [named] at each
      rw [write, named] at shallow
      cases depth with
      | zero => cases shallow
      | succ depth =>
        rw [read_object_of_record expected, readFields_write data closing fit each (Nat.le_of_succ_le_succ shallow)
          (fun _ => field?_eq_some unique) fresh]
        show assemble closing ([] ++ _) rules >>= _ = _
        rw [assemble_append fit fresh]
        rfl
    · cases fit
  | .tag variant, slot, _, depth, fit, .text line _, _ => by
    simp only [Fits] at fit
    split at fit
    · rename_i variants expected
      obtain ⟨found, known, plain⟩ := Option.map_eq_some_iff.mp fit
      simp only [read, expected, readTag, known, plain]
      rfl
    · cases fit
  | .tagged variant payload, slot, _, depth, fit, .object line closing (.cons _ _ _ _ given .nil), shallow => by
    simp only [Fits] at fit
    split at fit
    · rename_i variants expected
      split at fit
      · rename_i payloadSlot carries
        obtain ⟨found, known, carried⟩ := Option.bind_eq_some_iff.mp carries
        have own : slot.payloadSlot variant = payloadSlot := by
          simp only [Slot.payloadSlot, expected, carries, Option.getD_some]
        rw [own] at given
        rw [write, own] at shallow
        cases depth with
        | zero => cases shallow
        | succ depth =>
          have inner : (write payloadSlot payload).depth ≤ depth := by
            simpa [Json.depth, Json.fieldsDepth] using shallow
          rw [read_object_of_choice expected]
          simp only [readVariant, known, carried, read_write payload fit given inner]
          rfl
      · cases fit
    · cases fit

/-- **Written items are read back.** -/
theorem readItems_write : ∀ (items : List Datum) (closing : Nat) {category : Category} {nodes : List Located}
    {depth : Nat}, AllFit (.one category) items → SpellItems nodes (writeItems (.one category) items) →
    Json.itemsDepth (writeItems (.one category) items) ≤ depth →
    readItems depth category nodes (.closed closing) = .ok items
  | [], _, _, _, _, _, .nil, _ => rfl
  | item :: items, closing, category, _, depth, fit, .cons first others, shallow => by
    obtain ⟨here, there⟩ := Nat.max_le.mp shallow
    rw [readItems, read_write item fit.1 first here, readItems_write items closing fit.2 others there]
    rfl

/-- The fields of a record are read one by one. What carries the induction is that none of those left was found
before. -/
theorem readFields_write : ∀ (data : List Datum) (closing : Nat) {rules left : List FieldRule}
    {found : List (String × Datum)} {parts : List (NamedPart Located)} {depth : Nat}, FieldsFit left data →
    SpellFields parts (writeFields left data) → Json.fieldsDepth (writeFields left data) ≤ depth →
    (∀ rule ∈ left, field? rules rule.name = some rule) → Fresh found left →
    readFields depth rules found parts (.closed closing) = .ok (found ++ (left.map (·.name)).zip data)
  | [], closing, rules, left, found, parts, depth, fit, each, _, _, _ => by
    cases left with
    | nil =>
      cases each
      rw [readFields, List.map_nil, List.zip_nil_left, List.append_nil]
      rfl
    | cons rule left => cases fit
  | datum :: data, closing, rules, left, found, parts, depth, fit, each, shallow, known, fresh => by
    cases left with
    | nil => cases fit
    | cons rule left =>
      obtain ⟨here, there⟩ := Nat.max_le.mp shallow
      cases each with
      | cons line _ afterName afterValue first others =>
        have next := readFields_write data closing fit.2 others there
          (fun rule mem => known rule (List.mem_cons_of_mem _ mem)) (fresh.step datum)
        have unseen := fresh.unseen rule List.mem_cons_self
        simp only [readFields, known rule List.mem_cons_self, unseen, read_write datum fit.1 first here]
        rw [List.append_assoc, List.singleton_append] at next
        exact next

end

end Format

end DeclCheck
