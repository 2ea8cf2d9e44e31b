import DeclCheck.Proofs.Lattice.Rooted

/-!
# What can be called stays callable

Between two states of a session the lattice and the function table grow, so every step of a resolution may go
another way: new overloads compete, restrictions of placeholders are asked again, and all costs are counted
anew. None of this takes a call its last candidate. A candidate that qualified still qualifies, since no cost
rises to that of unrelated types and no restriction that was met is violated later. And a candidate that
matches exactly is still the first to do so, since new overloads come after it.

It is not established that the winner stays the same, unless it matches exactly. Nor that a call still returns: bindings
that lead round in a circle may be added in between, and this is about outcomes only.
-/

namespace DeclCheck

namespace Overloading

/-! ## When a call is bound -/

section

variable {lattice : Lattice} {functions : FunctionTable} {key : FunctionKey} {signature : String}
  {actuals : List Ty} {location : Location}

/-- A call is bound to the first candidate that it matches exactly. -/
theorem resolve_of_find? {decl : FunctionDecl}
    (found : (functions.overloads key).find? (·.matchesExactly actuals) = some decl) :
    resolve lattice functions key signature actuals location = .ok (decl, functions) := by
  have some : (functions.overloads key).isEmpty = false :=
    List.isEmpty_eq_false_iff_exists_mem.mpr ⟨decl, List.mem_of_find?_eq_some found⟩
  simp only [resolve, some, found]
  rfl

/-- **A call is bound exactly if one of its candidates matches exactly or bids.** -/
theorem exists_resolve_iff :
    (∃ bound, resolve lattice functions key signature actuals location = .ok bound) ↔
      ∃ candidate ∈ functions.overloads key, candidate.matchesExactly actuals = true ∨
        ∃ bid, assess lattice actuals candidate = .ok bid := by
  constructor
  · rintro ⟨⟨decl, after⟩, bound⟩
    rcases resolve_eq_ok bound with ⟨found, -⟩ | ⟨-, bid, won, -, -⟩
    · have matching : decl.matchesExactly actuals = true := by simpa using List.find?_some found
      exact ⟨decl, List.mem_of_find?_eq_some found, Or.inl matching⟩
    · obtain ⟨candidate, listed, assessed⟩ := exists_assess_of_cheapest won
      exact ⟨candidate, listed, Or.inr ⟨bid, assessed⟩⟩
  · rintro ⟨candidate, listed, qualifies⟩
    cases exact : (functions.overloads key).find? (·.matchesExactly actuals) with
    | some decl => exact ⟨_, resolve_of_find? exact⟩
    | none =>
      have some : (functions.overloads key).isEmpty = false :=
        List.isEmpty_eq_false_iff_exists_mem.mpr ⟨candidate, listed⟩
      simp only [resolve, some, exact]
      rcases qualifies with matching | ⟨bid, assessed⟩
      · exact absurd matching (List.find?_eq_none.mp exact candidate listed)
      · have offered : bid ∈ bids ((functions.overloads key).map (assess lattice actuals)) :=
          mem_bids.mpr (List.mem_map.mpr ⟨candidate, listed, assessed⟩)
        cases won : cheapest (bids ((functions.overloads key).map (assess lattice actuals))) with
        | some winner => exact ⟨_, rfl⟩
        | none =>
          rw [cheapest_eq_none.mp won] at offered
          cases offered

end

/-! ## Candidates in a grown lattice -/

section

variable {lattice after : Lattice} (rooted : lattice.Rooted) (rootedAfter : after.Rooted)
  (grown : lattice.nodes <+: after.nodes)

include rooted rootedAfter grown

/-- Costs that added up still add up, to whatever total. -/
theorem exists_totalCost_of_grown {position total : Nat} {params actuals : List Ty}
    (added : totalCost lattice position params actuals = .ok total) :
    ∃ other, totalCost after position params actuals = .ok other := by
  induction params generalizing actuals position total with
  | nil => exact ⟨0, rfl⟩
  | cons declared rest ih =>
    cases actuals with
    | nil => exact ⟨0, rfl⟩
    | cons actual actuals =>
      simp only [totalCost] at added ⊢
      split at added
      · cases added
      · rename_i cheap
        have still := rooted.cost_lt rootedAfter grown (Nat.lt_of_not_le cheap)
        rw [if_neg (Nat.not_le_of_lt still)]
        cases remaining : totalCost lattice (position + 1) rest actuals with
        | error failed => simp only [remaining] at added; cases added
        | ok sum =>
          obtain ⟨other, kept⟩ := ih remaining
          exact ⟨_, by rw [kept]; rfl⟩

/-- A restriction that is met stays met. -/
theorem violates_of_grown {bindings : Bindings} {generic : GenericParam}
    (met : violates lattice bindings generic = false) : violates after bindings generic = false := by
  unfold violates at met ⊢
  split
  · rename_i constraint bound restricted named
    simp only [restricted, named] at met
    cases found : lattice.distance bound constraint with
    | none => rw [found] at met; cases met
    | some length =>
      obtain ⟨shorter, -, reached⟩ :=
        Lattice.distance_of_grown rooted.resolved rootedAfter.resolved grown found
      rw [reached]
      rfl
  · rfl

theorem specialise_of_grown {candidate decl : FunctionDecl} {actuals : List Ty}
    (specialised : specialise lattice candidate actuals = .ok decl) :
    specialise after candidate actuals = .ok decl := by
  simp only [specialise] at specialised ⊢
  split at specialised
  · cases specialised
  · rename_i met
    have still : candidate.generics.find? (violates after (bindings candidate actuals)) = none := by
      rw [List.find?_eq_none] at met ⊢
      intro generic listed violated
      have kept := violates_of_grown rooted rootedAfter grown (Bool.eq_false_iff.mpr (met generic listed))
      rw [kept] at violated
      cases violated
    rw [still]
    exact specialised

/-- **A candidate that bid still bids.** -/
theorem exists_assess_of_grown {actuals : List Ty} {candidate : FunctionDecl} {bid : Bid}
    (assessed : assess lattice actuals candidate = .ok bid) :
    ∃ other, assess after actuals candidate = .ok other := by
  obtain ⟨-, total, source⟩ := assess_eq_ok assessed
  obtain ⟨cost, added⟩ := exists_totalCost_of_grown rooted rootedAfter grown total
  rcases source with ⟨plain, same⟩ | ⟨generic, special⟩
  · rw [same] at added
    refine ⟨⟨cost, candidate, candidate.isGeneric⟩, ?_⟩
    simp only [assess, plain]
    exact bind_eq_ok.mpr ⟨candidate, rfl, bind_eq_ok.mpr ⟨cost, added, rfl⟩⟩
  · have kept := specialise_of_grown rooted rootedAfter grown special
    refine ⟨⟨cost, bid.decl, candidate.isGeneric⟩, ?_⟩
    simp only [assess, generic, if_true]
    exact bind_eq_ok.mpr ⟨bid.decl, kept, bind_eq_ok.mpr ⟨cost, added, rfl⟩⟩

/-- **A call that is bound stays bound** as the lattice and the function table grow. -/
theorem exists_resolve_of_grown {functions more : FunctionTable} (extended : functions.Extends more)
    {key : FunctionKey} {signature : String} {actuals : List Ty} {location : Location}
    (bound : ∃ found, resolve lattice functions key signature actuals location = .ok found) :
    ∃ found, resolve after more key signature actuals location = .ok found := by
  obtain ⟨candidate, listed, qualifies⟩ := exists_resolve_iff.mp bound
  refine exists_resolve_iff.mpr ⟨candidate, (extended key).subset listed, ?_⟩
  rcases qualifies with matching | ⟨bid, assessed⟩
  · exact Or.inl matching
  · exact Or.inr (exists_assess_of_grown rooted rootedAfter grown assessed)

end

end Overloading

/-! ## Sessions -/

namespace Session

/-- **The later states of a session that is given written units**, accepted or not. -/
inductive Later (session : Session) : Session → Prop
  | now : Later session session
  | add {after : Session} (before : Later session after) {unit : SourceUnit}
      (written : unit.isWritten = true) : Later session (after.addUnit unit).2

theorem Later.written {session after : Session} (later : session.Later after)
    (written : session.Written) : after.Written := by
  induction later with
  | now => exact written
  | add _ unit ih => exact .add ih unit

theorem Later.extends {session after : Session} (later : session.Later after) :
    session.symbols.Extends after.symbols := by
  induction later with
  | now => exact .refl _
  | add _ _ ih => exact ih.trans (symbols_extends_addUnit _ _)

/-- **What can be called stays callable.** A call that is bound in some state of a session is bound in all later
states; and the overload that it matches exactly, if there is one, is the one that it is bound to in all of
them. -/
theorem resolve_persists {session after : Session} (written : session.Written)
    (later : session.Later after) (key : FunctionKey) (signature : String) (actuals : List Ty)
    (location : Location) :
    ((∃ found, Overloading.resolve session.symbols.types.lattice session.symbols.functions key signature
          actuals location = .ok found) →
        ∃ found, Overloading.resolve after.symbols.types.lattice after.symbols.functions key signature
          actuals location = .ok found) ∧
      ∀ decl, (session.symbols.functions.overloads key).find? (·.matchesExactly actuals) = some decl →
        Overloading.resolve session.symbols.types.lattice session.symbols.functions key signature actuals
            location = .ok (decl, session.symbols.functions) ∧
          Overloading.resolve after.symbols.types.lattice after.symbols.functions key signature actuals
            location = .ok (decl, after.symbols.functions) := by
  have extended := later.extends
  constructor
  · intro bound
    exact Overloading.exists_resolve_of_grown written.rooted (later.written written).rooted
      extended.types.nodes extended.functions bound
  · intro decl found
    have still := (extended.functions key).find?_eq_some found
    exact ⟨Overloading.resolve_of_find? found, Overloading.resolve_of_find? still⟩

/-- A unit that binds the integers into a group of its own, and is rejected for a struct of which nobody knows
the type of a member. -/
def halfUnit : SourceUnit where
  filename := "half.pine"
  content := ""
  declarations :=
    [.group ⟨⟨"Countable", .nowhere⟩, "", .nowhere⟩,
      .binding ⟨Ty.written "Integer" [], Ty.written "Countable" [], "", .nowhere⟩,
      .struct ⟨⟨"Half", .nowhere⟩,
        [⟨⟨"whole", .nowhere⟩, Ty.written "Missing" []⟩], [], "", .nowhere⟩]

theorem twice_persists :
    let session := (initial.addUnit twiceUnit).2
    let after := (session.addUnit halfUnit).2
    (session.addUnit halfUnit).1.isOk = false ∧ session.Written ∧ session.Later after ∧
      ∃ found, Overloading.resolve after.symbols.types.lattice after.symbols.functions ⟨"twice", 1⟩
        "_.twice" [.builtin .integer] .nowhere = .ok found := by
  have written : (initial.addUnit twiceUnit).2.Written := .add .initial rfl
  have later : (initial.addUnit twiceUnit).2.Later ((initial.addUnit twiceUnit).2.addUnit halfUnit).2 :=
    .add .now rfl
  refine ⟨rfl, written, later, ?_⟩
  exact (resolve_persists written later ⟨"twice", 1⟩ "_.twice" [.builtin .integer] .nowhere).1 ⟨_, rfl⟩

end Session

end DeclCheck
