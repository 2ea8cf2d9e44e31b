import DeclCheck.Format.Datum

/-!
# The grammar of the unit format

The grammar has one *category* for each record and each choice that documents are made of, and one rule
for each category. A record lists its fields in order, each with what it holds and, unless it is
required, the datum that a missing field stands for. A choice lists its variants, with what they carry.

The grammar is data. Reading and writing are defined once, for all grammars of this kind, so that the
names of fields and variants occur here and nowhere else.
-/

namespace DeclCheck.Format

/-- The records and choices of the format. -/
inductive Category where
  | unit | declaration
  | function | struct | enum | group | binding | importing | exampleBlock
  | ident | location | affix | param | genericParam | member
  | ty | tyKind | builtin | unresolvedTy | genericTy | builtinTy | structTy | namedTy
  | stmt | assignment | variable | returns | callStmt | branch | guardTerm | junction
  | forEach | whileTrue | pass | hostCode
  | expr | exprKind | object | memberValue | access | enumCase | call | overload
  | config | outputFormat
  deriving DecidableEq, Repr, Inhabited

/-- What a field or a variant holds. -/
inductive Slot where
  | text
  | count
  | flag
  | one (category : Category)
  /-- The category, or nothing. -/
  | optional (category : Category)
  /-- Any number of data of the category. -/
  | many (category : Category)
  deriving DecidableEq, Repr, Inhabited

/-- A field of a record. -/
structure FieldRule where
  name : String
  slot : Slot
  /-- What a missing field stands for. A field without it is required. -/
  default? : Option Datum
  deriving Repr

/-- A variant of a choice, and what it carries. -/
structure VariantRule where
  name : String
  slot : Option Slot
  deriving Repr

/-- **How the data of a category are formed.** -/
inductive Rule where
  | record (fields : List FieldRule)
  | choice (variants : List VariantRule)
  deriving Repr

/-! ## Fields and variants -/

/-- A field that has to be there. -/
def required (name : String) (slot : Slot) : FieldRule := ⟨name, slot, none⟩

/-- A list that is empty when it is missing. -/
def manyField (name : String) (category : Category) : FieldRule :=
  ⟨name, .many category, some (.list [])⟩

/-- Something that is absent when it is missing. -/
def optionalField (name : String) (category : Category) : FieldRule :=
  ⟨name, .optional category, some .absent⟩

/-- A flag that is down when it is missing. -/
def flagField (name : String) : FieldRule := ⟨name, .flag, some (.flag false)⟩

/-- A text that is empty when it is missing. -/
def textField (name : String) : FieldRule := ⟨name, .text, some (.text "")⟩

/-- A count that is zero when it is missing. -/
def countField (name : String) : FieldRule := ⟨name, .count, some (.count 0)⟩

/-- The location of what is written nowhere. -/
def nowhere : Datum := .record [.count 0, .count 0, .count 0, .count 0]

/-- A location that points nowhere when it is missing. -/
def locationField : FieldRule := ⟨"location", .one .location, some nowhere⟩

/-- The name of the file a declaration came from. -/
def originField : FieldRule := textField "origin"

/-- A required identifier. -/
def identField (name : String) : FieldRule := required name (.one .ident)

/-- The type of what yields no value. -/
def voidTy : Datum := .record [.tag "Void", .flag false]

/-- A variant with data of a category. -/
def carrying (name : String) (category : Category) : VariantRule := ⟨name, some (.one category)⟩

/-- A variant without data. -/
def plain (name : String) : VariantRule := ⟨name, none⟩

/-! ## The rules -/

/-- **The grammar of the unit format.** -/
def rule : Category → Rule
  | .unit =>
    .record [required "filename" .text, textField "content", manyField "declarations" .declaration]
  | .declaration =>
    .choice [carrying "Function" .function, carrying "Struct" .struct, carrying "Enum" .enum,
      carrying "Group" .group, carrying "GroupBinding" .binding, carrying "Import" .importing,
      carrying "Example" .exampleBlock]
  | .function =>
    .record [required "signature" (.many .ident), required "affix" (.one .affix),
      ⟨"return_type", .one .ty, some voidTy⟩, manyField "params" .param, manyField "body" .stmt,
      manyField "generics" .genericParam, originField, locationField]
  | .struct =>
    .record [identField "name", manyField "members" .member, manyField "generics" .ident,
      originField, locationField]
  | .enum => .record [identField "name", manyField "cases" .ident, originField, locationField]
  | .group => .record [identField "name", originField, locationField]
  | .binding =>
    .record [required "child" (.one .ty), required "parent" (.one .ty), originField,
      locationField]
  | .importing => .record [identField "filename", originField, locationField]
  | .exampleBlock => .record [manyField "body" .stmt, originField, locationField]
  | .ident => .record [required "name" .text, locationField]
  | .location =>
    .record [countField "first_line", countField "first_column", countField "last_line",
      countField "last_column"]
  | .affix =>
    .choice [plain "Nofix", plain "Prefix", plain "Suffix", plain "Infix", plain "Mixfix"]
  | .param => .record [identField "name", required "ty" (.one .ty), flagField "mutable"]
  | .genericParam => .record [identField "name", optionalField "constraint" .ty]
  | .member => .record [identField "name", required "ty" (.one .ty)]
  | .ty => .record [required "kind" (.one .tyKind), flagField "nullable"]
  | .tyKind =>
    .choice [carrying "Unresolved" .unresolvedTy, carrying "Generic" .genericTy, plain "Void",
      carrying "Builtin" .builtinTy, carrying "Struct" .structTy, carrying "Enum" .namedTy,
      carrying "Group" .namedTy]
  | .builtin =>
    .choice [plain "Any", plain "Number", plain "Integer", plain "String", plain "Date",
      plain "List", plain "Table", plain "Struct", plain "Tuple", plain "Enum"]
  | .unresolvedTy => .record [required "name" .text, manyField "args" .ty, locationField]
  | .genericTy => .record [required "name" .text, locationField]
  | .builtinTy => .record [required "kind" (.one .builtin), manyField "args" .ty]
  | .structTy => .record [required "name" .text, manyField "args" .ty]
  | .namedTy => .record [required "name" .text]
  | .stmt =>
    .choice [carrying "Assignment" .assignment, carrying "Return" .returns,
      carrying "Call" .callStmt, carrying "Branch" .branch, carrying "For" .forEach,
      carrying "While" .whileTrue, carrying "Pass" .pass, carrying "HostCode" .hostCode]
  | .assignment =>
    .record [required "variable" (.one .variable), flagField "is_declaration",
      required "value" (.one .expr), locationField]
  | .variable =>
    .record [identField "name", optionalField "declared_type" .ty, flagField "mutable",
      optionalField "resolved_type" .ty]
  | .returns => .record [optionalField "value" .expr, locationField]
  | .callStmt => .record [required "call" (.one .call), locationField]
  | .branch =>
    .record [manyField "guard" .guardTerm, manyField "body" .stmt,
      optionalField "else_branch" .branch, locationField]
  | .guardTerm => .record [optionalField "junction" .junction, required "test" (.one .expr)]
  | .junction => .choice [plain "And", plain "Or"]
  | .forEach =>
    .record [required "iterator" (.one .variable), required "iterable" (.one .expr),
      manyField "body" .stmt, locationField]
  | .whileTrue =>
    .record [required "guard" (.many .guardTerm), manyField "body" .stmt, locationField]
  | .pass => .record [locationField]
  | .hostCode => .record [required "code" .text, locationField]
  | .expr => .record [required "kind" (.one .exprKind), optionalField "ty" .ty, locationField]
  | .exprKind =>
    .choice [⟨"Number", some .text⟩, ⟨"String", some .text⟩, ⟨"Boolean", some .flag⟩, plain "Nil",
      carrying "Variable" .ident, carrying "Call" .call, ⟨"List", some (.many .expr)⟩,
      ⟨"Tuple", some (.many .expr)⟩, carrying "Object" .object, carrying "ObjectAccess" .access,
      carrying "EnumCase" .enumCase]
  | .object => .record [required "constructor" (.one .ty), manyField "members" .memberValue]
  | .memberValue => .record [identField "member", required "value" (.one .expr)]
  | .access => .record [required "subject" (.one .expr), identField "key"]
  | .enumCase => .record [optionalField "enum_name" .ident, identField "case"]
  | .call =>
    .record [required "signature" (.many .ident), required "affix" (.one .affix),
      manyField "args" .expr, optionalField "resolved" .overload]
  | .overload => .record [required "params" (.many .ty), required "return_type" (.one .ty)]
  | .config =>
    .record [⟨"format", .one .outputFormat, some (.tag "human")⟩,
      ⟨"context_lines", .count, some (.count 5)⟩, flagField "emit_typed"]
  | .outputFormat => .choice [plain "human", plain "json"]

/-- What is expected of a datum in a slot, with the rule of its category looked up. -/
inductive Expected where
  | text
  | count
  | flag
  | record (fields : List FieldRule)
  | choice (variants : List VariantRule)
  | many (category : Category)

namespace Slot

/-- What is expected in a slot that is not left empty. -/
def expected : Slot → Expected
  | text => .text
  | count => .count
  | flag => .flag
  | many category => .many category
  | one category | optional category =>
    match rule category with
    | .record fields => .record fields
    | .choice variants => .choice variants

/-- Whether the slot may be left empty. -/
def isOptional : Slot → Bool
  | optional _ => true
  | _ => false

end Slot

/-- The rule of a variant. -/
def variant? (variants : List VariantRule) (name : String) : Option VariantRule :=
  variants.find? (·.name == name)

/-- The rule of a field. -/
def field? (fields : List FieldRule) (name : String) : Option FieldRule :=
  fields.find? (·.name == name)

end DeclCheck.Format
