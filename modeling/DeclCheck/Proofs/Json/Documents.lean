import DeclCheck.Json.Located
import DeclCheck.Proofs.Json.Tokens

/-!
# Written texts as documents

Both texts of a value are made of the same lexemes, and the machine makes of these lexemes a tree that spells the
value: the same shape, the same names and texts, numbers by their digits, and no fault anywhere. So both texts of a
value are read as documents that spell it.

The converse is not established: many other texts spell the value, with other blanks, escapes or digits, and nothing is
said of them or of texts that are no JSON.
-/

namespace DeclCheck.Json

/-! ## The lexemes of a value -/

mutual

/-- **The lexemes that a value is written with.** -/
def lexemes : Json → List Lexeme
  | null => [.null]
  | bool value => [.bool value]
  | number value => [.number (decimal value)]
  | string text => [.text (.ok text)]
  | array items => .openBracket :: itemLexemes items ++ [.closeBracket]
  | object fields => .openBrace :: fieldLexemes fields ++ [.closeBrace]

/-- The lexemes of items, with commas between them. -/
def itemLexemes : List Json → List Lexeme
  | [] => []
  | [item] => item.lexemes
  | item :: items => item.lexemes ++ .comma :: itemLexemes items

/-- The lexemes of fields, with commas between them. -/
def fieldLexemes : List (String × Json) → List Lexeme
  | [] => []
  | [(name, value)] => .text (.ok name) :: .colon :: value.lexemes
  | (name, value) :: fields => .text (.ok name) :: .colon :: value.lexemes ++ .comma :: fieldLexemes fields

end

mutual

/-- **The compact text of a value is made of its lexemes.** -/
theorem lexes_compactOnto : ∀ (json : Json) {rest : List Char}, Delimited rest →
    Lexes json.lexemes (json.compactOnto rest) rest
  | null, rest, _ => Lexes.null rest
  | bool value, rest, _ => Lexes.bool value rest
  | number value, _, delimited => Lexes.number value delimited
  | string text, rest, _ => Lexes.string text rest
  | array items, rest, _ => by
    have inside := lexes_compactItems items (Delimited.closeBracket rest)
    exact Lexes.punctuation '[' rfl (inside.append (Lexes.punctuation ']' rfl (Lexes.refl rest)))
  | object fields, rest, _ => by
    have inside := lexes_compactFields fields (Delimited.closeBrace rest)
    exact Lexes.punctuation '\x7b' rfl (inside.append (Lexes.punctuation '\x7d' rfl (Lexes.refl rest)))

/-- The items of an array are read as their tokens. -/
theorem lexes_compactItems : ∀ (items : List Json) {rest : List Char}, Delimited rest →
    Lexes (itemLexemes items) (compactItems items rest) rest
  | [], rest, _ => Lexes.refl rest
  | [item], _, delimited => lexes_compactOnto item delimited
  | item :: next :: items, rest, delimited => by
    have others := lexes_compactItems (next :: items) delimited
    exact (lexes_compactOnto item (Delimited.comma _)).append (Lexes.punctuation ',' rfl others)

/-- So are the fields of an object. -/
theorem lexes_compactFields : ∀ (fields : List (String × Json)) {rest : List Char}, Delimited rest →
    Lexes (fieldLexemes fields) (compactFields fields rest) rest
  | [], rest, _ => Lexes.refl rest
  | [(name, value)], _, delimited => by
    have given := lexes_compactOnto value delimited
    exact (Lexes.string name _).append (Lexes.punctuation ':' rfl given)
  | (name, value) :: next :: fields, rest, delimited => by
    have others := lexes_compactFields (next :: fields) delimited
    have given := (lexes_compactOnto value (Delimited.comma _)).append (Lexes.punctuation ',' rfl others)
    exact (Lexes.string name _).append (Lexes.punctuation ':' rfl given)

end

mutual

/-- **The pretty text of a value is made of its lexemes**, with blanks between them. -/
theorem lexes_prettyOnto (indent : Nat) : ∀ (json : Json) {rest : List Char}, Delimited rest →
    Lexes json.lexemes (json.prettyOnto indent rest) rest
  | null, rest, _ => Lexes.null rest
  | bool value, rest, _ => Lexes.bool value rest
  | number value, _, delimited => Lexes.number value delimited
  | string text, rest, _ => Lexes.string text rest
  | array [], rest, _ => Lexes.punctuation '[' rfl (Lexes.punctuation ']' rfl (Lexes.refl rest))
  | array (item :: items), rest, _ => by
    have inside := lexes_prettyItems (indent + indentStep) (item :: items) (Delimited.newLine indent (']' :: rest))
    have closing := (Lexes.punctuation ']' rfl (Lexes.refl rest)).newLine indent
    exact Lexes.punctuation '[' rfl ((inside.append closing).newLine _)
  | object [], rest, _ => Lexes.punctuation '\x7b' rfl (Lexes.punctuation '\x7d' rfl (Lexes.refl rest))
  | object (field :: fields), rest, _ => by
    have inside := lexes_prettyFields (indent + indentStep) (field :: fields)
      (Delimited.newLine indent ('\x7d' :: rest))
    have closing := (Lexes.punctuation '\x7d' rfl (Lexes.refl rest)).newLine indent
    exact Lexes.punctuation '\x7b' rfl ((inside.append closing).newLine _)

/-- The same for items on lines of their own. -/
theorem lexes_prettyItems (indent : Nat) : ∀ (items : List Json) {rest : List Char}, Delimited rest →
    Lexes (itemLexemes items) (prettyItems indent items rest) rest
  | [], rest, _ => Lexes.refl rest
  | [item], _, delimited => lexes_prettyOnto indent item delimited
  | item :: next :: items, rest, delimited => by
    have others := (lexes_prettyItems indent (next :: items) delimited).newLine indent
    exact (lexes_prettyOnto indent item (Delimited.comma _)).append (Lexes.punctuation ',' rfl others)

/-- The same for fields on lines of their own. -/
theorem lexes_prettyFields (indent : Nat) : ∀ (fields : List (String × Json)) {rest : List Char}, Delimited rest →
    Lexes (fieldLexemes fields) (prettyFields indent fields rest) rest
  | [], rest, _ => Lexes.refl rest
  | [(name, value)], _, delimited => by
    have given := lexes_prettyOnto indent value delimited
    exact (Lexes.string name _).append (Lexes.punctuation ':' rfl (Lexes.blank rfl given))
  | (name, value) :: next :: fields, rest, delimited => by
    have others := (lexes_prettyFields indent (next :: fields) delimited).newLine indent
    have given := (lexes_prettyOnto indent value (Delimited.comma _)).append (Lexes.punctuation ',' rfl others)
    exact (Lexes.string name _).append (Lexes.punctuation ':' rfl (Lexes.blank rfl given))

end

/-! ## Trees that spell a value -/

mutual

/-- **Whether a tree spells a value**: without any fault, on whatever lines. -/
inductive Spells : Located → Json → Prop
  | null (line : Nat) : Spells (.null line) .null
  | bool (line : Nat) (value : Bool) : Spells (.bool line value) (.bool value)
  | number (line value : Nat) : Spells (.number line (decimal value)) (.number value)
  | text (line : Nat) (text : String) : Spells (.text line (.ok text)) (.string text)
  | array (line closing : Nat) {nodes : List Located} {items : List Json} (each : SpellItems nodes items) :
    Spells (.array line nodes (.closed closing)) (.array items)
  | object (line closing : Nat) {parts : List (NamedPart Located)} {fields : List (String × Json)}
    (each : SpellFields parts fields) : Spells (.object line parts (.closed closing)) (.object fields)

/-- Whether trees spell the items of an array. -/
inductive SpellItems : List Located → List Json → Prop
  | nil : SpellItems [] []
  | cons {node : Located} {json : Json} {nodes : List Located} {items : List Json} (first : Spells node json)
    (others : SpellItems nodes items) : SpellItems (node :: nodes) (json :: items)

/-- Whether named trees spell the fields of an object. -/
inductive SpellFields : List (NamedPart Located) → List (String × Json) → Prop
  | nil : SpellFields [] []
  | cons (line : Nat) (name : String) (afterName : Nat) {node : Located} {json : Json} (afterValue : Nat)
    {parts : List (NamedPart Located)} {fields : List (String × Json)} (value : Spells node json)
    (others : SpellFields parts fields) :
    SpellFields (⟨line, .ok name, afterName, node, afterValue⟩ :: parts) ((name, json) :: fields)

end

/-! ## The machine -/

/-- The first item of an array is a value like all others. -/
theorem build_firstItem {frames : List Frame} {token : Token} (opens : token.lexeme ≠ .closeBracket)
    (more : List Token) : build frames .firstItem (token :: more) = build frames .value (token :: more) := by
  have same : step frames .firstItem token = step frames .value token := by
    cases token with
    | mk line lexeme =>
      cases frames with
      | nil => cases lexeme <;> rfl
      | cons frame frames => cases frame <;> cases lexeme <;> first | rfl | exact absurd rfl opens
  rw [build, build, same]

/-- Tokens with the lexemes of two parts fall into two parts. -/
theorem exists_append_of_lexemes {found : List Token} {first later : List Lexeme}
    (here : found.map (·.lexeme) = first ++ later) :
    ∃ front back, found = front ++ back ∧ front.map (·.lexeme) = first ∧ back.map (·.lexeme) = later :=
  List.map_eq_append_iff.mp here

/-- Tokens that begin with a lexeme begin with a token of it. -/
theorem exists_cons_of_lexemes {found : List Token} {first : Lexeme} {later : List Lexeme}
    (here : found.map (·.lexeme) = first :: later) :
    ∃ line back, found = ⟨line, first⟩ :: back ∧ back.map (·.lexeme) = later := by
  obtain ⟨⟨line, lexeme⟩, back, rfl, rfl, rest⟩ := List.map_eq_cons_iff.mp here
  exact ⟨line, back, rfl, rest⟩

/-- One lexeme comes from one token. -/
theorem exists_singleton_of_lexemes {found : List Token} {lexeme : Lexeme}
    (here : found.map (·.lexeme) = [lexeme]) : ∃ line, found = [⟨line, lexeme⟩] := by
  obtain ⟨line, back, rfl, rest⟩ := exists_cons_of_lexemes here
  exact ⟨line, by rw [List.map_eq_nil_iff.mp rest]⟩

/-- Tokens of items begin with one that no array ends with. -/
theorem exists_first_token (item : Json) (items : List Json) {found : List Token}
    (here : found.map (·.lexeme) = itemLexemes (item :: items)) :
    ∃ first back, found = first :: back ∧ first.lexeme ≠ .closeBracket := by
  have begins : ∃ lexeme later, itemLexemes (item :: items) = lexeme :: later ∧ lexeme ≠ .closeBracket := by
    cases items with
    | nil => cases item <;> exact ⟨_, _, rfl, fun same => nomatch same⟩
    | cons next items => cases item <;> exact ⟨_, _, rfl, fun same => nomatch same⟩
  obtain ⟨lexeme, later, first, solid⟩ := begins
  obtain ⟨line, back, rfl, -⟩ := exists_cons_of_lexemes (here.trans first)
  exact ⟨_, back, rfl, solid⟩

mutual

/-- **The machine makes a tree that spells a value of the value's lexemes**, and goes on behind it. -/
theorem build_value : ∀ (json : Json) {found : List Token}, found.map (·.lexeme) = json.lexemes →
    ∀ (frames : List Frame) (more : List Token),
      ∃ node, Spells node json ∧ build frames .value (found ++ more) = build frames (.after node) more
  | null, _, here, frames, more => by
    obtain ⟨line, rfl⟩ := exists_singleton_of_lexemes here
    exact ⟨_, .null line, rfl⟩
  | bool value, _, here, frames, more => by
    obtain ⟨line, rfl⟩ := exists_singleton_of_lexemes here
    exact ⟨_, .bool line value, rfl⟩
  | number value, _, here, frames, more => by
    obtain ⟨line, rfl⟩ := exists_singleton_of_lexemes here
    exact ⟨_, .number line value, rfl⟩
  | string text, _, here, frames, more => by
    obtain ⟨line, rfl⟩ := exists_singleton_of_lexemes here
    exact ⟨_, .text line text, rfl⟩
  | array [], _, here, frames, more => by
    obtain ⟨line, back, rfl, rest⟩ := exists_cons_of_lexemes here
    obtain ⟨closing, rfl⟩ := exists_singleton_of_lexemes rest
    exact ⟨_, .array line closing .nil, rfl⟩
  | array (item :: items), _, here, frames, more => by
    obtain ⟨line, back, rfl, rest⟩ := exists_cons_of_lexemes here
    obtain ⟨inside, back, rfl, itemsHere, last⟩ := exists_append_of_lexemes rest
    obtain ⟨closing, rfl⟩ := exists_singleton_of_lexemes last
    obtain ⟨nodes, each, built⟩ := build_items (item :: items) (List.cons_ne_nil _ _) itemsHere frames line [] closing
      more
    refine ⟨_, .array line closing each, Eq.trans ?_ built⟩
    -- the array might still end where its first item begins, so the machine expects the two alike
    obtain ⟨first, back, rfl, solid⟩ := exists_first_token item items itemsHere
    rw [List.cons_append, List.append_assoc]
    exact build_firstItem solid _
  | object [], _, here, frames, more => by
    obtain ⟨line, back, rfl, rest⟩ := exists_cons_of_lexemes here
    obtain ⟨closing, rfl⟩ := exists_singleton_of_lexemes rest
    exact ⟨_, .object line closing .nil, rfl⟩
  | object (field :: fields), _, here, frames, more => by
    obtain ⟨line, back, rfl, rest⟩ := exists_cons_of_lexemes here
    obtain ⟨inside, back, rfl, fieldsHere, last⟩ := exists_append_of_lexemes rest
    obtain ⟨closing, rfl⟩ := exists_singleton_of_lexemes last
    obtain ⟨parts, each, built⟩ := build_fields (field :: fields) (List.cons_ne_nil _ _) fieldsHere frames line []
      closing more (Or.inl rfl)
    refine ⟨_, .object line closing each, Eq.trans ?_ built⟩
    rw [List.cons_append, List.append_assoc]
    rfl

/-- The items of an array are built one after another, and the array when it is closed. -/
theorem build_items : ∀ (items : List Json), items ≠ [] → ∀ {found : List Token},
    found.map (·.lexeme) = itemLexemes items →
    ∀ (frames : List Frame) (line : Nat) (before : List Located) (closing : Nat) (more : List Token),
      ∃ nodes, SpellItems nodes items ∧
        build (.array line before :: frames) .value (found ++ ⟨closing, .closeBracket⟩ :: more) =
          build frames (.after (.array line (before.reverse ++ nodes) (.closed closing))) more
  | [], filled, _, _, _, _, _, _, _ => absurd rfl filled
  | [item], _, _, here, frames, line, before, closing, more => by
    obtain ⟨node, spells, built⟩ := build_value item here (.array line before :: frames)
      (⟨closing, .closeBracket⟩ :: more)
    refine ⟨[node], .cons spells .nil, built.trans ?_⟩
    rw [← List.reverse_cons]
    rfl
  | item :: next :: items, _, _, here, frames, line, before, closing, more => by
    obtain ⟨front, back, rfl, itemHere, rest⟩ := exists_append_of_lexemes here
    obtain ⟨comma, back, rfl, itemsHere⟩ := exists_cons_of_lexemes rest
    obtain ⟨node, spells, built⟩ := build_value item itemHere (.array line before :: frames)
      (⟨comma, .comma⟩ :: back ++ ⟨closing, .closeBracket⟩ :: more)
    obtain ⟨nodes, each, builtRest⟩ := build_items (next :: items) (List.cons_ne_nil _ _) itemsHere frames line
      (node :: before) closing more
    refine ⟨node :: nodes, .cons spells each, ?_⟩
    rw [List.append_assoc, built]
    rw [List.reverse_cons, List.append_assoc] at builtRest
    exact builtRest

/-- The fields of an object are built one after another, and the object when it is closed. -/
theorem build_fields : ∀ (fields : List (String × Json)), fields ≠ [] → ∀ {found : List Token},
    found.map (·.lexeme) = fieldLexemes fields →
    ∀ (frames : List Frame) (line : Nat) (before : List (NamedPart Located)) (closing : Nat) (more : List Token)
      {expecting : Expecting}, expecting = .firstField ∨ expecting = .nextField →
      ∃ parts, SpellFields parts fields ∧
        build (.object line before :: frames) expecting (found ++ ⟨closing, .closeBrace⟩ :: more) =
          build frames (.after (.object line (before.reverse ++ parts) (.closed closing))) more
  | [], filled, _, _, _, _, _, _, _, _, _ => absurd rfl filled
  | [(name, value)], _, _, here, frames, line, before, closing, more, _, expected => by
    obtain ⟨nameLine, back, rfl, rest⟩ := exists_cons_of_lexemes here
    obtain ⟨colon, back, rfl, valueHere⟩ := exists_cons_of_lexemes rest
    obtain ⟨node, spells, built⟩ := build_value value valueHere
      (.field line before nameLine (.ok name) colon :: frames) (⟨closing, .closeBrace⟩ :: more)
    refine ⟨[⟨nameLine, .ok name, colon, node, closing⟩], .cons _ _ _ _ spells .nil, ?_⟩
    rw [← List.reverse_cons]
    rcases expected with rfl | rfl <;> exact built
  | (name, value) :: next :: fields, _, _, here, frames, line, before, closing, more, _, expected => by
    obtain ⟨nameLine, back, rfl, afterName⟩ := exists_cons_of_lexemes here
    obtain ⟨colon, back, rfl, afterColon⟩ := exists_cons_of_lexemes afterName
    obtain ⟨front, back, rfl, valueHere, afterValue⟩ := exists_append_of_lexemes afterColon
    obtain ⟨comma, back, rfl, fieldsHere⟩ := exists_cons_of_lexemes afterValue
    obtain ⟨node, spells, built⟩ := build_value value valueHere
      (.field line before nameLine (.ok name) colon :: frames)
      (⟨comma, .comma⟩ :: back ++ ⟨closing, .closeBrace⟩ :: more)
    obtain ⟨parts, each, builtRest⟩ := build_fields (next :: fields) (List.cons_ne_nil _ _) fieldsHere frames line
      (⟨nameLine, .ok name, colon, node, comma⟩ :: before) closing more (Or.inr rfl)
    refine ⟨⟨nameLine, .ok name, colon, node, comma⟩ :: parts, .cons _ _ _ _ spells each, ?_⟩
    rw [List.reverse_cons, List.append_assoc] at builtRest
    rw [← List.append_assoc] at built
    rcases expected with rfl | rfl <;> exact built.trans builtRest

end

/-! ## Documents -/

/-- A text that is made of the lexemes of a value is read as a document that spells it. -/
theorem exists_document {json : Json} {chars : List Char} (lexes : Lexes json.lexemes chars []) :
    ∃ node, Spells node json ∧ Document.ofText (String.ofList chars) = ⟨node, none⟩ := by
  obtain ⟨found, after, split, here⟩ := lexes 1
  obtain ⟨node, spells, built⟩ := build_value json here [] (tokens after [])
  refine ⟨node, spells, ?_⟩
  rw [Document.ofText, String.toList_ofList, split, built, tokens]
  rfl

/-- **Both texts of a value are read as documents that spell it.** -/
theorem exists_document_compact (json : Json) :
    ∃ node, Spells node json ∧ Document.ofText json.compact = ⟨node, none⟩ :=
  exists_document (lexes_compactOnto json trivial)

/-- **A text that was printed with line breaks is read back.** -/
theorem exists_document_pretty (json : Json) :
    ∃ node, Spells node json ∧ Document.ofText json.pretty = ⟨node, none⟩ :=
  exists_document (lexes_prettyOnto 0 json trivial)

end DeclCheck.Json
