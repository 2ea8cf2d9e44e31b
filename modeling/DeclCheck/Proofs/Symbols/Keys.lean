import DeclCheck.Tree.Basic

/-!
# When signatures share a key

The key of a signature has its tokens joined by underscores, and a call finds its overloads by the key alone. A token
may itself contain underscores, and nothing tells these from the ones between the tokens. What a key does keep are the
*pieces* between underscores of either kind: cutting the joined text at all underscores gives the pieces of the tokens
one after another, and joining the pieces gives the text back. So two signatures share a key just if they have the same
pieces, and if no token has an underscore, the pieces are the tokens.

Keys are listed in the tables by name and then by arity, which is a total order.

The empty signature is left out. That two signatures of one program have different pieces is not established anywhere:
they may meet in a key.
-/

namespace DeclCheck

/-! ## Pieces -/

namespace Text

/-- **The pieces of a text between its underscores.** A text without an underscore is one piece, also if it is
empty. -/
def pieces (text : String) : List String := (text.toList.splitOn '_').map String.ofList

/-- An underscore between two texts separates their pieces. -/
theorem pieces_append (before after : String) : pieces (before ++ "_" ++ after) = pieces before ++ pieces after := by
  have chars : (before ++ "_" ++ after).toList = before.toList ++ '_' :: after.toList := by
    rw [String.toList_append, String.toList_append, List.append_assoc]
    rfl
  rw [pieces, chars, List.splitOn_append_cons_self, List.map_append]
  rfl

/-- **A joined text has the pieces of all parts.** -/
theorem pieces_intercalate {texts : List String} (nonempty : texts ≠ []) :
    pieces ("_".intercalate texts) = texts.flatMap pieces := by
  induction texts with
  | nil => exact absurd rfl nonempty
  | cons text rest ih =>
    cases rest with
    | nil => rw [String.intercalate_singleton, List.flatMap_singleton]
    | cons next others =>
      rw [String.intercalate_cons_cons, pieces_append, ih (List.cons_ne_nil _ _)]
      exact List.flatMap_cons.symm

/-- **The pieces joined are the text.** -/
theorem intercalate_pieces (text : String) : "_".intercalate (pieces text) = text := by
  apply String.toList_inj.mp
  have same : (pieces text).map String.toList = text.toList.splitOn '_' := by
    rw [pieces, List.map_map]
    exact List.map_id'' (fun _ => String.toList_ofList) _
  rw [String.toList_intercalate, same]
  exact List.intercalate_splitOn '_'

theorem pieces_inj {first second : String} : pieces first = pieces second ↔ first = second := by
  constructor
  · intro same
    rw [← intercalate_pieces first, same, intercalate_pieces]
  · exact congrArg pieces

theorem pieces_eq_singleton {text : String} (plain : '_' ∉ text.toList) : pieces text = [text] := by
  rw [pieces, List.splitOn_eq_singleton plain, List.map_singleton, String.ofList_toList]

theorem flatMap_pieces {texts : List String} (plain : ∀ text ∈ texts, '_' ∉ text.toList) :
    texts.flatMap pieces = texts := by
  induction texts with
  | nil => rfl
  | cons text rest ih =>
    obtain ⟨head, tail⟩ := List.forall_mem_cons.mp plain
    rw [List.flatMap_cons, pieces_eq_singleton head, ih tail, List.singleton_append]

end Text

/-- **The pieces of all tokens**, in order. -/
def Signature.pieces (signature : Signature) : List String := signature.tokens.flatMap Text.pieces

theorem Signature.tokens_ne_nil {signature : Signature} (nonempty : signature ≠ []) : signature.tokens ≠ [] :=
  mt List.map_eq_nil_iff.mp nonempty

/-- The signature of tokens that no source text spells. -/
def Signature.ofTokens (tokens : List String) : Signature := tokens.map (⟨·, .nowhere⟩)

namespace FunctionKey

/-! ## Keys -/

/-- **Signatures share a key just if they have the same pieces**, for one number of arguments. If no token has an
underscore, they have to be the same token by token. -/
theorem ofSignature_eq_iff_pieces {first second : Signature} (nonempty : first ≠ []) (alsoNonempty : second ≠ [])
    (arity other : Nat) :
    (ofSignature first arity = ofSignature second other ↔ arity = other ∧ first.pieces = second.pieces) ∧
    ((∀ token ∈ first.tokens ++ second.tokens, '_' ∉ token.toList) →
      (ofSignature first arity = ofSignature second other ↔ arity = other ∧ first.tokens = second.tokens)) := by
  have shared : ofSignature first arity = ofSignature second other ↔ arity = other ∧ first.pieces = second.pieces := by
    rw [ofSignature, ofSignature, mk.injEq, and_comm, ← Text.pieces_inj,
      Text.pieces_intercalate (Signature.tokens_ne_nil nonempty),
      Text.pieces_intercalate (Signature.tokens_ne_nil alsoNonempty)]
    rfl
  refine ⟨shared, fun plain => ?_⟩
  obtain ⟨left, right⟩ := List.forall_mem_append.mp plain
  rw [shared, Signature.pieces, Text.flatMap_pieces left, Signature.pieces, Text.flatMap_pieces right]

/-- Two signatures share a key although only their last tokens are the same. Two that differ in where a word ends do
not. -/
theorem ofSignature_eq_iff_pieces_lookUp :
    let shifted := Signature.ofTokens ["", "look_", "up"]
    let other := Signature.ofTokens ["_look", "", "up"]
    let early := Signature.ofTokens ["look", "sup"]
    let late := Signature.ofTokens ["looks", "up"]
    (shifted ≠ [] ∧ other ≠ [] ∧ shifted.pieces = ["", "look", "", "up"] ∧
        ofSignature shifted 2 = ofSignature other 2) ∧
      early ≠ [] ∧ late ≠ [] ∧ (∀ token ∈ early.tokens ++ late.tokens, '_' ∉ token.toList) ∧
        ofSignature early 2 ≠ ofSignature late 2 := by
  intro shifted other early late
  have plain : ∀ token ∈ early.tokens ++ late.tokens, '_' ∉ token.toList := by decide
  have shared := ofSignature_eq_iff_pieces (List.cons_ne_nil _ _ : shifted ≠ []) (List.cons_ne_nil _ _ : other ≠ []) 2 2
  have apart := ofSignature_eq_iff_pieces (List.cons_ne_nil _ _ : early ≠ []) (List.cons_ne_nil _ _ : late ≠ []) 2 2
  refine ⟨⟨List.cons_ne_nil _ _, List.cons_ne_nil _ _, by decide, shared.1.mpr ⟨rfl, by decide⟩⟩,
    List.cons_ne_nil _ _, List.cons_ne_nil _ _, plain, ?_⟩
  intro same
  have tokens : early.tokens = late.tokens := ((apart.2 plain).mp same).2
  exact absurd tokens (by decide)

/-! ## Order -/

instance : Std.TransOrd FunctionKey :=
  inferInstanceAs (Std.TransCmp (compareLex (compareOn FunctionKey.name) (compareOn FunctionKey.arity)))

instance : Std.LawfulEqOrd FunctionKey where
  eq_of_compare {first second} equal := by
    obtain ⟨names, arities⟩ := Ordering.then_eq_eq.mp equal
    cases first
    cases second
    exact congr (congrArg mk (Std.LawfulEqOrd.eq_of_compare names)) (Std.LawfulEqOrd.eq_of_compare arities)

end FunctionKey

end DeclCheck
