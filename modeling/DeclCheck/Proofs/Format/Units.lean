import DeclCheck.Format.Codec
import DeclCheck.Proofs.Format.Trees

/-!
# Units and their texts

The unit format loses nothing: both texts of a unit are read as the unit itself. A unit has a name of its own then, so
the name offered to those without one is not taken; and it may not be nested deeper than the reader goes.

Nothing is said of texts that no unit is written as: some of these are read as units too, and what is reported of the
others is the reader's own.
-/

namespace DeclCheck

namespace Format.Codec

variable {α : Type} (codec : Codec α) {value : α}

/-- A document that spells the JSON of a value is read as the value, if the grammar forms its data and they lead back
to it. -/
theorem ofText_eq_ok (fit : Fits (.one codec.category) (codec.datum value))
    (back : codec.value? (codec.datum value) = some value) (shallow : (codec.toJson value).depth ≤ depthLimit)
    {text : String} {node : Json.Located} (spells : Json.Spells node (codec.toJson value))
    (made : Json.Document.ofText text = ⟨node, none⟩) : codec.ofText text = .ok value := by
  have datum : readText codec.category text = .ok (codec.datum value) := by
    rw [readText, made, readDocument, read_write _ fit spells shallow]
    rfl
  rw [ofText, datum]
  show codec.valueOn 1 (codec.datum value) = .ok value
  rw [valueOn, back]

end Format.Codec

namespace SourceUnit

theorem named_of_ne {unit : SourceUnit} (own : unit.filename ≠ "") (fallback : String) :
    unit.named fallback = unit := by
  rw [named, if_neg]
  rwa [String.isEmpty_iff]

/-- A text that spells the JSON of a unit is read as the unit. -/
theorem ofText_eq_ok {unit : SourceUnit} (own : unit.filename ≠ "") (shallow : unit.toJson.depth ≤ 127) {text : String}
    (spelled : ∃ node, Json.Spells node unit.toJson ∧ Json.Document.ofText text = ⟨node, none⟩) (notes : ReaderNotes)
    (fallback : String) : ofText notes text fallback = .ok unit := by
  obtain ⟨node, spells, made⟩ := spelled
  have read := Format.Codec.unit.ofText_eq_ok (Format.fits_ofUnit unit) (Format.toUnit?_ofUnit unit) shallow spells
    made
  rw [ofText, read]
  exact congrArg Except.ok (named_of_ne own fallback)

/-- **Both texts of a unit are read as the unit itself**, whatever name is offered. -/
theorem ofText_toJson (notes : ReaderNotes) (unit : SourceUnit) (own : unit.filename ≠ "")
    (shallow : unit.toJson.depth ≤ 127) (fallback : String) :
    ofText notes unit.toJson.compact fallback = .ok unit ∧ ofText notes unit.toJson.pretty fallback = .ok unit :=
  ⟨ofText_eq_ok own shallow (Json.exists_document_compact _) notes fallback,
    ofText_eq_ok own shallow (Json.exists_document_pretty _) notes fallback⟩

/-- A unit with characters that need an escape, numbers at both ends, absent parts and filled slots. -/
def awkwardUnit : SourceUnit where
  filename := "awkward \"name\"\\.pine"
  content := "\x00\x1f\t\r\n/ é 😀"
  declarations := [
    .group ⟨⟨"", ⟨0, 10, 18446744073709551615, 9⟩⟩, "", .nowhere⟩,
    .exampleBlock {
      body := [
        .branch (.mk [] [.returns none .nowhere]
          (some (.mk [⟨some .or, .mk (.boolean true) (some Ty.boolean) .nowhere⟩] [.pass .nowhere] none .nowhere))
          .nowhere),
        .call ⟨[⟨"print", .nowhere⟩], .after, [.mk (.list []) none .nowhere], some ⟨[], Ty.void⟩⟩ .nowhere]
      origin := "elsewhere"
      location := .onLine 1 2 3 }]

/-- A reader that says nothing. -/
def silent : ReaderNotes := ⟨fun _ => "", fun _ => 0⟩

theorem ofText_awkwardUnit :
    awkwardUnit.filename ≠ "" ∧ awkwardUnit.toJson.depth ≤ 127 ∧
      ofText silent awkwardUnit.toJson.compact "other" = .ok awkwardUnit ∧
      ofText silent awkwardUnit.toJson.pretty "other" = .ok awkwardUnit := by
  have own : awkwardUnit.filename ≠ "" := by decide
  have shallow : awkwardUnit.toJson.depth ≤ 127 := by decide
  exact ⟨own, shallow, ofText_toJson silent awkwardUnit own shallow "other"⟩

end SourceUnit

end DeclCheck
