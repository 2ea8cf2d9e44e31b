import DeclCheck.Config
import DeclCheck.Format.Read
import DeclCheck.Format.Tree
import DeclCheck.Format.Write
import DeclCheck.Problem

/-!
# Values in the unit format

A codec says how the values of one type are written in the unit format: by the data of a category. With
it come the writing of a value as JSON and the reading of a value from a text or from a part of one.

A unit that is read takes a given name if it has none of its own. What is said about a text that is no
unit comes from whoever reads the JSON: the line of the fault is found here, the words and the column are
given.
-/

namespace DeclCheck.Format

open Json (Located)

/-- **How the values of a type are written**: their category, their data, and the way back. -/
structure Codec (α : Type) where
  category : Category
  datum : α → Datum
  value? : Datum → Option α

namespace Codec

variable {α : Type}

/-- The JSON of a value. -/
def toJson (codec : Codec α) (value : α) : Json := write (.one codec.category) (codec.datum value)

/-- The value of a datum that was read on a line. -/
def valueOn (codec : Codec α) (line : Nat) (datum : Datum) : Except Nat α :=
  match codec.value? datum with
  | some value => .ok value
  | none => .error line

/-- **Read a text as a value**, or find the line of its first fault. -/
def ofText (codec : Codec α) (text : String) : Except Nat α :=
  readText codec.category text >>= codec.valueOn 1

/-- Read a part of a text as a value. -/
def ofPart? (codec : Codec α) (part : Located) : Option α :=
  (read depthLimit (.one codec.category) part).toOption.bind codec.value?

/-! ## The codecs of the library's types -/

def location : Codec Location := ⟨.location, ofLocation, toLocation?⟩

def affix : Codec Affix := ⟨.affix, ofAffix, toAffix?⟩

def ty : Codec Ty := ⟨.ty, ofTy, toTy?⟩

def expr : Codec Expr := ⟨.expr, ofExpr, toExpr?⟩

def function : Codec FunctionDecl := ⟨.function, ofFunction, toFunction?⟩

def struct : Codec StructDecl := ⟨.struct, ofStruct, toStruct?⟩

def enum : Codec EnumDecl := ⟨.enum, ofEnum, toEnum?⟩

def group : Codec GroupDecl := ⟨.group, ofGroup, toGroup?⟩

def declaration : Codec Decl := ⟨.declaration, ofDecl, toDecl?⟩

def unit : Codec SourceUnit := ⟨.unit, ofUnit, toUnit?⟩

def ofFormat (format : OutputFormat) : Datum := .tag format.word

def toFormat? : Datum → Option OutputFormat
  | .tag word => OutputFormat.ofWord? word
  | _ => none

def format : Codec OutputFormat := ⟨.outputFormat, ofFormat, toFormat?⟩

def ofConfig (config : Config) : Datum :=
  .record [ofFormat config.format, .count config.contextLines, .flag config.emitTyped]

def toConfig? : Datum → Option Config
  | .record [format, .count contextLines, .flag emitTyped] => do
    return { format := ← toFormat? format, contextLines, emitTyped }
  | _ => none

def config : Codec Config := ⟨.config, ofConfig, toConfig?⟩

end Codec

end DeclCheck.Format

namespace DeclCheck

/-- **What the reader of JSON says about a text that is no unit**: its words, and the column where it
stopped. -/
structure ReaderNotes where
  message : String → String
  column : String → UInt64

namespace SourceUnit

/-- The unit, named if it has no name yet. -/
def named (unit : SourceUnit) (fallback : String) : SourceUnit :=
  if unit.filename.isEmpty then { unit with filename := fallback } else unit

/-- The error of a text that is no unit, with the line of its first fault. -/
def unreadable (notes : ReaderNotes) (text : String) (line : Nat) : Error :=
  .found (.unreadable (notes.message text))
    (.onLine (UInt64.ofNat line) (notes.column text) (notes.column text))

/-- **Read a unit.** One without a name takes the fallback. -/
def ofText (notes : ReaderNotes) (text fallback : String) : Except Error SourceUnit :=
  match Format.Codec.unit.ofText text with
  | .ok unit => .ok (unit.named fallback)
  | .error line => .error (unreadable notes text line)

/-- The JSON of a unit. -/
def toJson (unit : SourceUnit) : Json := Format.Codec.unit.toJson unit

end SourceUnit

end DeclCheck
