import DeclCheck.Proofs.Annotation.Erasure
import DeclCheck.Proofs.Typing.Soundness

/-!
# Accepted units are well typed

Whatever a session accepts, in whatever state it is, is right by the typing rules, at every place of every
body. The type tables of the rules are those after the unit: no body changes them.

Not established is the converse, that the checker accepts whatever is right by the rules: a call is bound to the
overload that the choice prefers, and to no other that would do.
-/

namespace DeclCheck

open FunctionTable (Keyed)

/-- The last pass keeps the type tables and the keys, and leaves bodies that are right. -/
theorem Analysis.checkBody_typed {types : TypeTable} {decl result : Decl} {before after : Analysis}
    (holds : before.symbols.types = types ∧ before.symbols.functions.Keyed)
    (reached : checkBody decl before = .ok result after) :
    (after.symbols.types = types ∧ after.symbols.functions.Keyed) ∧ result.Typed types := by
  obtain ⟨rfl, keyed⟩ := holds
  cases decl with
  | function decl =>
    obtain ⟨body, returned, functions, seen, rfl, walked, checked, symbols⟩ :=
      checkBody_function_eq_ok reached
    rw [symbols]
    refine ⟨⟨rfl, walked.keeps (keptByCalls_keyed _) keyed⟩, seen, walked.typed keyed ?_⟩
    intro entry mem declared same
    cases same
    exact checkReturns_eq_ok checked entry mem
  | exampleBlock decl =>
    obtain ⟨body, returned, functions, seen, rfl, walked, symbols⟩ := checkBody_example_eq_ok reached
    rw [symbols]
    refine ⟨⟨rfl, walked.keeps (keptByCalls_keyed _) keyed⟩, seen, walked.typed keyed ?_⟩
    intro entry mem declared same
    cases same
  | struct | enum | group | binding | importing =>
    cases reached
    exact ⟨⟨rfl, keyed⟩, trivial⟩

/-- **Acceptance is sound.** What a session accepts is the unit that it was given, annotated, and its bodies are right
under the tables after it. -/
theorem Session.addUnit_typed {session after : Session} {unit annotated : SourceUnit}
    (reachable : session.Reachable) (accepted : session.addUnit unit = (.ok annotated, after)) :
    annotated.erased = unit.withOrigins.erased ∧
      ∀ decl ∈ annotated.declarations, decl.Typed after.symbols.types := by
  refine ⟨erased_eq accepted, ?_⟩
  obtain ⟨analysis, checked, symbols⟩ := addUnit_eq_ok accepted
  obtain ⟨_, _, resolved, closed, _, _, _, -, -, -, functions, collecting, checking⟩ :=
    Analysis.declarations_eq_ok checked
  have keyedResolved : Analysis.Knows Keyed resolved := by
    show resolved.symbols.functions.Keyed
    rw [functions]
    exact reachable.keyed
  have keyedClosed : Analysis.Knows Keyed closed :=
    (Keeps.mapM (Analysis.keeps_collect fun _ decl keyed => Keyed.insert keyed decl) _).of_eq_ok
      keyedResolved collecting
  obtain ⟨⟨types, -⟩, typed⟩ :=
    mapM_eq_ok (fun decl _ => Analysis.checkBody_typed) ⟨rfl, keyedClosed⟩ checking
  rw [symbols, types]
  exact typed

theorem Session.twiceUnit_typed : ∃ annotated after,
    initial.addUnit twiceUnit = (.ok annotated, after) ∧ annotated.erased = twiceUnit.withOrigins.erased ∧
      ∀ decl ∈ annotated.declarations, decl.Typed after.symbols.types := by
  obtain ⟨annotated, after, accepted⟩ := accepts_twiceUnit
  exact ⟨annotated, after, accepted, addUnit_typed .initial accepted⟩

end DeclCheck
