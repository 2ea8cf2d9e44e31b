import Mathlib.Data.String.Basic

/-!
# The order of texts by bytes

Texts are ordered by code points, the first difference deciding. Their UTF-8 encodings, ordered by bytes in the same
way, stand in the same order. A smaller code point takes no more bytes than a greater one, the first byte tells how
many there are, and among encodings of one length the bytes carry the code point, its highest bits first. So two
different characters differ in a byte that both have, and whatever follows them in their texts is not looked at.

Nothing is said of orders that take case or accents into account.
-/

namespace DeclCheck.Text

/-- **The bytes of a text in UTF-8.** -/
def bytes (text : String) : List UInt8 := text.toUTF8.data.toList

/-- The bytes of a text are those of its characters in a row. -/
theorem bytes_eq_flatMap (text : String) : bytes text = text.toList.flatMap String.utf8EncodeChar := by
  unfold bytes
  rw [String.toUTF8_eq_toByteArray, ← String.utf8Encode_toList, List.utf8Encode]
  exact List.toList_data_toByteArray

/-! ## Characters -/

/-- Bytes are compared one after another. -/
theorem ofNat_cons_lt_iff {first second : Nat} (one : first < 256) (two : second < 256) {rest others : List UInt8} :
    UInt8.ofNat first :: rest < UInt8.ofNat second :: others ↔ first < second ∨ first = second ∧ rest < others := by
  rw [List.cons_lt_cons_iff, UInt8.lt_iff_toNat_lt, ← UInt8.toNat_inj, UInt8.toNat_ofNat_of_lt' one,
    UInt8.toNat_ofNat_of_lt' two]

/-- Numbers are compared at their last six bits where all bits above these are equal. -/
theorem lt_iff_sextets {low high : Nat} :
    low < high ↔ low / 64 < high / 64 ∨ low / 64 = high / 64 ∧ low % 64 < high % 64 := by
  omega

/-- **Of two characters the smaller one has the smaller bytes**, whatever follows. -/
theorem utf8EncodeChar_append_lt {first second : Char} (less : first < second) (rest others : List UInt8) :
    String.utf8EncodeChar first ++ rest < String.utf8EncodeChar second ++ others := by
  have order : first.val.toNat < second.val.toNat := less
  have bound : second.val.toNat < 0x110000 := by
    rcases second.valid with low | high
    · exact Nat.lt_trans low (by decide)
    · exact high.2
  unfold String.utf8EncodeChar
  generalize first.val.toNat = low at order
  generalize second.val.toNat = high at order bound
  -- a code point of four bytes is compared sextet by sextet, from the last one up to the three bits of the first byte
  have last := lt_iff_sextets.mp order
  have third (above : low / 64 < high / 64) := lt_iff_sextets.mp above
  have next (above : low / 4096 < high / 4096) := lt_iff_sextets.mp above
  simp only [Nat.div_div_eq_div_mul, Nat.reduceMul] at third next
  have lowTop : low / 262144 % 8 = low / 262144 := Nat.mod_eq_of_lt (by omega)
  have highTop : high / 262144 % 8 = high / 262144 := Nat.mod_eq_of_lt (by omega)
  dsimp only
  split_ifs <;> simp only [List.cons_append, List.nil_append] <;>
    repeat rw [ofNat_cons_lt_iff (by omega) (by omega)]
  all_goals omega

/-- Every character has bytes. -/
theorem utf8EncodeChar_ne_nil (char : Char) : String.utf8EncodeChar char ≠ [] := by
  unfold String.utf8EncodeChar
  dsimp only
  split_ifs <;> exact List.cons_ne_nil _ _

/-! ## Texts -/

/-- **Texts that are smaller by code points are smaller by bytes.** -/
theorem flatMap_utf8EncodeChar_lt {first second : List Char} (less : first < second) :
    first.flatMap String.utf8EncodeChar < second.flatMap String.utf8EncodeChar := by
  induction first generalizing second with
  | nil =>
    cases second with
    | nil => exact absurd less (List.not_lt_nil [])
    | cons other others =>
      obtain ⟨byte, later, encoded⟩ := List.exists_cons_of_ne_nil (utf8EncodeChar_ne_nil other)
      rw [List.flatMap_nil, List.flatMap_cons, encoded]
      exact List.nil_lt_cons byte _
  | cons char rest ih =>
    cases second with
    | nil => exact absurd less (List.not_lt_nil _)
    | cons other others =>
      rw [List.flatMap_cons, List.flatMap_cons]
      rcases List.cons_lt_cons_iff.mp less with smaller | ⟨rfl, later⟩
      · exact utf8EncodeChar_append_lt smaller _ _
      · exact List.append_left_lt (ih later)

/-- **Texts are in the order of their bytes.** -/
theorem bytes_lt_iff {first second : String} : bytes first < bytes second ↔ first < second := by
  have forward {one two : String} (less : one < two) : bytes one < bytes two := by
    rw [bytes_eq_flatMap, bytes_eq_flatMap]
    exact flatMap_utf8EncodeChar_lt (String.lt_iff_toList_lt.mp less)
  constructor
  · intro less
    rcases lt_trichotomy first second with before | rfl | after
    · exact before
    · exact absurd less (List.lt_irrefl _)
    · exact absurd (forward after) (List.lt_asymm less)
  · exact forward

end DeclCheck.Text
