import DeclCheck.Json.Token

/-!
# JSON texts as trees with lines

Reading a text never fails as a whole. A text that is not JSON becomes a tree all the same: where it
stops being JSON, the tree has a *fault* that records the line. Whoever walks the tree in the order of
the text meets the faults of the text and the faults that they find themselves in that same order, so
the first one met is the first one there is.

Every part of the tree records the line it begins on, and every field of an object the lines of the
tokens that follow its name and its value: a fault that is noticed only behind a value is reported on
the line of the token after it.

The tree is built by a machine with a stack of the arrays and objects that are still open. The machine
takes one token at a time.
-/

namespace DeclCheck.Json

/-- How an array or object ends: with its closing bracket on a line, or with a fault there. A fault in
the name of a field has two lines, one for those who read the name and one for those who skip it. -/
inductive Ending where
  | closed (line : Nat)
  | broken (reading skipping : Nat)
  deriving Repr

/-- The line of an ending, as those who read it see it. -/
def Ending.line : Ending → Nat
  | closed line => line
  | broken reading _ => reading

/-- The ending by a fault that is the same for both. -/
def Ending.fault (line : Nat) : Ending := broken line line

/-- A field of an object, with the lines of its name and of the tokens behind its name and value. -/
structure NamedPart (ν : Type) where
  line : Nat
  name : Except Nat String
  afterName : Nat
  value : ν
  afterValue : Nat
  deriving Repr

/-- **A JSON text as a tree.** The first number of each node is the line it begins on. -/
inductive Located where
  | null (line : Nat)
  | bool (line : Nat) (value : Bool)
  | number (line : Nat) (literal : String)
  | text (line : Nat) (content : Except Nat String)
  | array (line : Nat) (items : List Located) (ending : Ending)
  | object (line : Nat) (fields : List (NamedPart Located)) (ending : Ending)
  /-- A string that is never delimited. -/
  | badText (line reading skipping : Nat)
  /-- A word that begins as `null` and is not. -/
  | badNull (line fault : Nat)
  /-- What is no value. -/
  | bad (line fault : Nat)
  deriving Repr

namespace Located

/-- The line a node begins on. -/
def line : Located → Nat
  | null line | bool line _ | number line _ | text line _ | array line _ _ | object line _ _
  | badText line _ _ | badNull line _ | bad line _ => line

mutual

/-- Pass over a value. It may be anything, nested to any depth, as long as it is delimited. -/
def skip : Located → Except Nat Unit
  | null _ | bool _ _ | number _ _ | text _ _ => .ok ()
  | array _ items ending => skipItems items ending
  | object _ fields ending => skipFields fields ending
  | badText _ _ skipping => .error skipping
  | badNull _ fault | bad _ fault => .error fault

/-- Pass over the items of an array. -/
def skipItems : List Located → Ending → Except Nat Unit
  | [], .closed _ => .ok ()
  | [], .broken _ skipping => .error skipping
  | item :: items, ending => do
    item.skip
    skipItems items ending

/-- Pass over the fields of an object. -/
def skipFields : List (NamedPart Located) → Ending → Except Nat Unit
  | [], .closed _ => .ok ()
  | [], .broken _ skipping => .error skipping
  | ⟨_, _, _, value, _⟩ :: fields, ending => do
    value.skip
    skipFields fields ending

end

end Located

/-! ## The machine -/

/-- An array or object that is still open. What it holds so far is listed with the latest first. -/
inductive Frame where
  | array (line : Nat) (items : List Located)
  | object (line : Nat) (fields : List (NamedPart Located))
  /-- An object whose next value belongs to the given name. -/
  | field (line : Nat) (fields : List (NamedPart Located)) (nameLine : Nat) (name : Except Nat String)
    (afterName : Nat)
  deriving Repr

/-- What the machine expects next. -/
inductive Expecting where
  /-- A value. -/
  | value
  /-- The first item of an array, or its end. -/
  | firstItem
  /-- The first field of an object, or its end. -/
  | firstField
  /-- A further field of an object. -/
  | nextField
  /-- The colon behind a name. -/
  | colon (line : Nat) (name : Except Nat String)
  /-- What may follow a value. -/
  | after (value : Located)
  deriving Repr

/-- **A document**: its tree, and the line of the first token behind it, if there is one. -/
structure Document where
  root : Located
  trailing : Option Nat
  deriving Repr

/-- The whole tree when a fault ends everything that is still open. -/
def abandon (fault : Nat) : List Frame → Located → Located
  | [], value => value
  | .array line items :: frames, value =>
    abandon fault frames (.array line (items.reverse ++ [value]) (.fault fault))
  | .object line fields :: frames, _ =>
    abandon fault frames (.object line fields.reverse (.fault fault))
  | .field line fields nameLine name afterName :: frames, value =>
    abandon fault frames
      (.object line (fields.reverse ++ [⟨nameLine, name, afterName, value, fault⟩])
        (.fault fault))

/-- The document that a fault ends. -/
def abandoned (frames : List Frame) (value : Located) : Document :=
  ⟨abandon value.line frames value, none⟩

/-- The node of a token that is a value by itself, or else a fault on the token's line. -/
def leaf (token : Token) : Located :=
  match token.lexeme with
  | .null => .null token.line
  | .bool value => .bool token.line value
  | .number literal => .number token.line literal
  | .text content => .text token.line content
  | .badText reading skipping => .badText token.line reading skipping
  | .badNull fault => .badNull token.line fault
  | .bad fault => .bad token.line fault
  | _ => .bad token.line token.line

/-- Whether a token is a value by itself. -/
def Token.isLeaf (token : Token) : Bool :=
  match token.lexeme with
  | .null | .bool _ | .number _ | .text _ => true
  | _ => false

/-- How an object ends with a token that is no name. -/
def nameFault (token : Token) : Ending :=
  match token.lexeme with
  | .badText reading skipping => .broken reading skipping
  | _ => .fault token.line

/-- The machine's stack and expectation when a value begins with a token. There are none when no value
does. -/
def beginValue (frames : List Frame) (token : Token) : Option (List Frame × Expecting) :=
  match token.lexeme with
  | .openBracket => some (.array token.line [] :: frames, .firstItem)
  | .openBrace => some (.object token.line [] :: frames, .firstField)
  | _ => if token.isLeaf then some (frames, .after (leaf token)) else none

/-- The outcome of one token: the machine goes on, or the document is complete. -/
abbrev Step := Sum (List Frame × Expecting) Document

/-- One token where a value is expected. -/
def stepValue (frames : List Frame) (token : Token) : Step :=
  match beginValue frames token with
  | some next => .inl next
  | none => .inr (abandoned frames (leaf token))

/-- One token where a name is expected. -/
def stepName (frames : List Frame) (token : Token) : Step :=
  match token.lexeme, frames with
  | .text content, frames => .inl (frames, .colon token.line content)
  | _, .object line fields :: frames =>
    .inr (abandoned frames (.object line fields.reverse (nameFault token)))
  | _, frames => .inr (abandoned frames (.bad token.line token.line))

/-- One token behind a complete value. -/
def stepAfter (frames : List Frame) (value : Located) (token : Token) : Step :=
  match frames with
  | [] =>
    match token.lexeme with
    | .finish => .inr ⟨value, none⟩
    | _ => .inr ⟨value, some token.line⟩
  | .array line items :: frames =>
    match token.lexeme with
    | .comma => .inl (.array line (value :: items) :: frames, .value)
    | .closeBracket =>
      .inl (frames, .after (.array line (value :: items).reverse (.closed token.line)))
    | _ =>
      .inr (abandoned frames
        (.array line (value :: items).reverse (.fault token.line)))
  | .field line fields nameLine name afterName :: frames =>
    let fields := ⟨nameLine, name, afterName, value, token.line⟩ :: fields
    match token.lexeme with
    | .comma => .inl (.object line fields :: frames, .nextField)
    | .closeBrace => .inl (frames, .after (.object line fields.reverse (.closed token.line)))
    | _ =>
      .inr (abandoned frames (.object line fields.reverse (.fault token.line)))
  | .object line fields :: frames =>
    .inr (abandoned frames (.object line fields.reverse (.fault token.line)))

/-- One token in any situation. -/
def step (frames : List Frame) (expecting : Expecting) (token : Token) : Step :=
  match expecting, frames, token.lexeme with
  | .firstItem, .array line _ :: frames, .closeBracket =>
    .inl (frames, .after (.array line [] (.closed token.line)))
  | .firstField, .object line _ :: frames, .closeBrace =>
    .inl (frames, .after (.object line [] (.closed token.line)))
  | .colon nameLine name, .object line fields :: frames, .colon =>
    .inl (.field line fields nameLine name token.line :: frames, .value)
  | .colon nameLine name, .object line fields :: frames, _ =>
    .inr (abandoned (.field line fields nameLine name token.line :: frames)
      (.bad token.line token.line))
  | .colon _ _, frames, _ => .inr (abandoned frames (.bad token.line token.line))
  | .firstField, frames, _ => stepName frames token
  | .nextField, frames, _ => stepName frames token
  | .firstItem, frames, _ => stepValue frames token
  | .value, frames, _ => stepValue frames token
  | .after value, frames, _ => stepAfter frames value token

/-- Run the machine over tokens. -/
def build (frames : List Frame) (expecting : Expecting) : List Token → Document
  | [] => abandoned frames (.bad 0 0)
  | token :: tokens =>
    match step frames expecting token with
    | .inl (frames, expecting) => build frames expecting tokens
    | .inr document => document

/-- **Read a text as a document.** -/
def Document.ofText (text : String) : Document := build [] .value (tokens 1 text.toList)

end DeclCheck.Json
