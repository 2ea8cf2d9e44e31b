import DeclCheck.Proofs.Overloading.Searches
import Mathlib.Data.List.Induction

/-!
# What earlier calls leave behind

A call may add the specialisation it was bound to, and later calls of its key see one more overload. So
the outcome of a call can depend on the calls before it. It does in one way only: a specialisation that
joined the group *takes over* a call that no overload listed before matches exactly, by matching it
exactly or by bidding less than each of them. Every other call has the outcome that it would have had
without the calls before it.

All this is about calls that return. It takes that every search ends which the calls before make, and the
call itself after them; that it would have returned without them is part of the result. Nothing is said
of a call that returns at first and, with a specialisation that has joined, never again.
-/

namespace DeclCheck

namespace Overloading

/-! ## The cheapest of two lists -/

/-- Candidates bid one by one. -/
theorem bids_append (first second : List (Except Nat Bid)) :
    bids (first ++ second) = bids first ++ bids second := by
  induction first with
  | nil => rfl
  | cons outcome rest ih =>
    cases outcome with
    | error position => simp only [List.cons_append, bids, ih]
    | ok bid => simp only [List.cons_append, bids, ih]

/-- No bid is below the cheapest one. -/
theorem cost_le_of_cheapest {offers : List Bid} {bid : Bid} (won : cheapest offers = some bid) :
    ∀ other ∈ offers, bid.cost ≤ other.cost := by
  induction offers generalizing bid with
  | nil => cases won
  | cons offer rest ih =>
    intro other mem
    simp only [cheapest] at won
    cases hrest : cheapest rest with
    | none =>
      simp only [hrest, Option.some.injEq] at won
      rw [cheapest_eq_none.mp hrest] at mem
      have same : bid.cost = other.cost := by rw [List.mem_singleton.mp mem, won]
      exact Nat.le_of_eq same
    | some best =>
      simp only [hrest] at won
      have below := ih hrest
      split at won
      · rename_i lower
        cases won
        rcases List.mem_cons.mp mem with rfl | later
        · exact Nat.le_of_lt lower
        · exact below other later
      · rename_i notLower
        cases won
        rcases List.mem_cons.mp mem with rfl | later
        · exact Nat.le_refl _
        · exact Nat.le_trans (Nat.le_of_not_lt notLower) (below other later)

/-- What comes first wins unless what comes later is strictly cheaper. -/
theorem cheapest_append (first second : List Bid) :
    cheapest (first ++ second) =
      match cheapest first, cheapest second with
      | none, other => other
      | some bid, none => some bid
      | some bid, some other => if other.cost < bid.cost then some other else some bid := by
  induction first with
  | nil => rfl
  | cons offer rest ih =>
    simp only [List.cons_append, cheapest, ih]
    cases cheapest rest with
    | none => cases cheapest second <;> rfl
    | some bid =>
      cases cheapest second with
      | none => simp only; split <;> rfl
      | some other => grind

/-! ## The winner among candidates -/

/-- The overload that a call is bound to when these are its candidates. -/
def winner (lattice : Lattice) (candidates : List FunctionDecl) (actuals : List Ty) :
    Option FunctionDecl :=
  match candidates.find? (·.matchesExactly actuals) with
  | some decl => some decl
  | none => (cheapest (bids (candidates.map (assess lattice actuals)))).map (·.decl)

/-- **Whether overloads that joined a group take over a call from those listed before.** No overload
listed before matches the call exactly, and one that joined does, or bids less than each of them. -/
def TakesOver (lattice : Lattice) (listed joined : List FunctionDecl) (actuals : List Ty) : Prop :=
  (∀ decl ∈ listed, ¬ decl.matchesExactly actuals = true) ∧
  ((∃ decl ∈ joined, decl.matchesExactly actuals = true) ∨
    ∃ decl ∈ joined, ∃ bid, assess lattice actuals decl = .ok bid ∧
      ∀ earlier ∈ listed, ∀ other, assess lattice actuals earlier = .ok other → bid.cost < other.cost)

section

variable {lattice : Lattice} {listed joined : List FunctionDecl} {actuals : List Ty}

/-- Where a joined specialisation takes over, it wins. -/
theorem TakesOver.winner_append (takes : TakesOver lattice listed joined actuals) :
    ∃ decl, winner lattice joined actuals = some decl ∧
      winner lattice (listed ++ joined) actuals = some decl := by
  obtain ⟨inexact, taken⟩ := takes
  have missed : listed.find? (·.matchesExactly actuals) = none := List.find?_eq_none.mpr inexact
  simp only [winner, List.find?_append, missed, Option.none_or]
  cases exact : joined.find? (·.matchesExactly actuals) with
  | some decl => exact ⟨decl, rfl, rfl⟩
  | none =>
    rcases taken with ⟨decl, mem, matched⟩ | ⟨decl, mem, bid, assessed, under⟩
    · exact absurd matched (List.find?_eq_none.mp exact decl mem)
    · have offered : bid ∈ bids (joined.map (assess lattice actuals)) :=
        mem_bids.mpr (List.mem_map.mpr ⟨decl, mem, assessed⟩)
      simp only [List.map_append, bids_append, cheapest_append]
      cases best : cheapest (bids (joined.map (assess lattice actuals))) with
      | none =>
        rw [cheapest_eq_none.mp best] at offered
        cases offered
      | some least =>
        refine ⟨least.decl, rfl, ?_⟩
        cases before : cheapest (bids (listed.map (assess lattice actuals))) with
        | none => rfl
        | some other =>
          obtain ⟨earlier, old, assessedOld⟩ := exists_assess_of_cheapest before
          have lower : least.cost < other.cost :=
            Nat.lt_of_le_of_lt (cost_le_of_cheapest best bid offered)
              (under earlier old other assessedOld)
          simp only [if_pos lower, Option.map_some]

/-- Where none does, the winner stays. -/
theorem winner_append_of_not_takesOver (stays : ¬ TakesOver lattice listed joined actuals) :
    winner lattice (listed ++ joined) actuals = winner lattice listed actuals := by
  simp only [winner, List.find?_append]
  cases exact : listed.find? (·.matchesExactly actuals) with
  | some decl => rfl
  | none =>
    have inexact := List.find?_eq_none.mp exact
    have missed : joined.find? (·.matchesExactly actuals) = none :=
      List.find?_eq_none.mpr fun decl mem matched =>
        stays ⟨inexact, Or.inl ⟨decl, mem, matched⟩⟩
    simp only [missed, Option.none_or, List.map_append, bids_append, cheapest_append]
    cases best : cheapest (bids (joined.map (assess lattice actuals))) with
    | none => cases cheapest (bids (listed.map (assess lattice actuals))) <;> rfl
    | some least =>
      obtain ⟨decl, mem, assessed⟩ := exists_assess_of_cheapest best
      cases before : cheapest (bids (listed.map (assess lattice actuals))) with
      | none =>
        refine absurd ⟨inexact, Or.inr ⟨decl, mem, least, assessed, fun earlier old other bid => ?_⟩⟩ stays
        have offered := mem_bids.mpr (List.mem_map.mpr ⟨earlier, old, bid⟩)
        rw [cheapest_eq_none.mp before] at offered
        cases offered
      | some first =>
        have notLower : ¬ least.cost < first.cost := fun lower =>
          stays ⟨inexact, Or.inr ⟨decl, mem, least, assessed, fun earlier old other bid =>
            Nat.lt_of_lt_of_le lower (cost_le_of_cheapest before other
              (mem_bids.mpr (List.mem_map.mpr ⟨earlier, old, bid⟩)))⟩⟩
        simp only [if_neg notLower]

end

/-! ## Requests one after another -/

/-- A call to be bound. -/
structure Request where
  key : FunctionKey
  signature : String
  actuals : List Ty
  location : Location

namespace Request

/-- What can be seen of a bound call: the parameter types and the return type of the winner, or the name
of the error. -/
def outcome (lattice : Lattice) (functions : FunctionTable) (request : Request) :
    Except String (List Ty × Ty) :=
  match resolve lattice functions request.key request.signature request.actuals request.location with
  | .ok (decl, _) => .ok (decl.paramTypes, decl.returnType)
  | .error error => .error error.name

/-- The function table after a call. A call that fails leaves it as it is. -/
def tableAfter (lattice : Lattice) (functions : FunctionTable) (request : Request) : FunctionTable :=
  match resolve lattice functions request.key request.signature request.actuals request.location with
  | .ok (_, after) => after
  | .error _ => functions

/-- The outcome of a call, as far as it returns. -/
def outcome? (lattice : Lattice) (functions : FunctionTable) (request : Request) :
    Option (Except String (List Ty × Ty)) :=
  (resolve? lattice functions request.key request.signature request.actuals request.location).map fun
    | .ok (decl, _) => .ok (decl.paramTypes, decl.returnType)
    | .error error => .error error.name

/-- The function table after a call, as far as it returns. -/
def tableAfter? (lattice : Lattice) (functions : FunctionTable) (request : Request) : Option FunctionTable :=
  (resolve? lattice functions request.key request.signature request.actuals request.location).map fun
    | .ok (_, after) => after
    | .error _ => functions

/-- The function table after calls one after another, as far as all of them return. -/
def tableAfterAll? (lattice : Lattice) (functions : FunctionTable) : List Request → Option FunctionTable
  | [] => some functions
  | request :: rest => (request.tableAfter? lattice functions).bind fun after => tableAfterAll? lattice after rest

/-- The function table after calls one after another. -/
def tableAfterAll (lattice : Lattice) (functions : FunctionTable) (requests : List Request) :
    FunctionTable :=
  requests.foldl (tableAfter lattice) functions

/-- The ascents of a call. -/
def ascents (lattice : Lattice) (functions : FunctionTable) (request : Request) : List Ascent :=
  callAscents lattice (functions.overloads request.key) request.actuals

/-- **The ascents of calls one after another**, each in the table that those before it leave. -/
def allAscents (lattice : Lattice) (functions : FunctionTable) : List Request → List Ascent
  | [] => []
  | request :: rest =>
    request.ascents lattice functions ++ allAscents lattice (request.tableAfter lattice functions) rest

variable {lattice : Lattice} {functions : FunctionTable}

/-- The outcome of a call waits for its searches. -/
theorem awaits_outcome (request : Request) :
    lattice.Awaits (request.ascents lattice functions) (request.outcome? lattice functions)
      (request.outcome lattice functions) :=
  (awaits_resolve lattice functions request.key request.signature request.actuals request.location).map _

/-- So does the table after it. -/
theorem awaits_tableAfter (request : Request) :
    lattice.Awaits (request.ascents lattice functions) (request.tableAfter? lattice functions)
      (request.tableAfter lattice functions) :=
  (awaits_resolve lattice functions request.key request.signature request.actuals request.location).map _

/-- **After calls in a row, the table waits for the searches of all.** -/
theorem awaits_tableAfterAll (requests : List Request) :
    lattice.Awaits (allAscents lattice functions requests) (tableAfterAll? lattice functions requests)
      (tableAfterAll lattice functions requests) := by
  induction requests generalizing functions with
  | nil => exact .pure lattice functions
  | cons request rest ih => exact (awaits_tableAfter request).bind ih

/-- A further call makes its searches in the table that the others leave. -/
theorem allAscents_append (requests : List Request) (further : Request) :
    allAscents lattice functions (requests ++ [further]) =
      allAscents lattice functions requests ++ further.ascents lattice (tableAfterAll lattice functions requests) := by
  induction requests generalizing functions with
  | nil => exact List.append_nil _
  | cons request rest ih =>
    rw [List.cons_append, allAscents, ih, ← List.append_assoc]
    rfl

end Request

/-- An outcome that has nothing to bid has a position that disqualifies. -/
theorem exists_failure {outcomes : List (Except Nat Bid)} (some : outcomes ≠ [])
    (none : bids outcomes = []) : ∃ position, (failures outcomes).min? = .some position := by
  cases outcomes with
  | nil => exact absurd rfl some
  | cons outcome rest =>
    cases outcome with
    | ok bid => cases none
    | error position => exact ⟨_, List.min?_cons'⟩

/-- **The outcome of a call depends on the overloads of its key only.** -/
theorem outcome_eq (lattice : Lattice) (functions : FunctionTable) (request : Request) :
    request.outcome lattice functions =
      if functions.overloads request.key = [] then
        .error (Problem.unknownFunction request.signature).name
      else
        match winner lattice (functions.overloads request.key) request.actuals with
        | some decl => .ok (decl.paramTypes, decl.returnType)
        | none => .error "NoConformingFunction" := by
  by_cases listed : functions.overloads request.key = []
  · simp only [Request.outcome, resolve, listed, List.isEmpty_nil, if_true]
    rfl
  · simp only [Request.outcome, resolve, winner, List.isEmpty_iff, listed, if_false]
    cases (functions.overloads request.key).find? (·.matchesExactly request.actuals) with
    | some decl => rfl
    | none =>
      cases best : cheapest (bids ((functions.overloads request.key).map
          (assess lattice request.actuals))) with
      | some bid => rfl
      | none =>
        obtain ⟨position, failed⟩ := exists_failure
          (fun empty => listed (List.map_eq_nil_iff.mp empty)) (cheapest_eq_none.mp best)
        simp only [failed, Option.map_none]
        rfl

/-- **Whether overloads joined a group by calls**: each is what a call of the group's key was bound to, the
specialisation to its arguments of a generic overload that was in the group by then. -/
inductive Joined (lattice : Lattice) (key : FunctionKey) (requests : List Request)
    (listed : List FunctionDecl) : List FunctionDecl → Prop
  | none : Joined lattice key requests listed []
  | last {joined : List FunctionDecl} {request : Request} {generic decl : FunctionDecl}
      (before : Joined lattice key requests listed joined) (called : request ∈ requests)
      (own : request.key = key) (won : winner lattice (listed ++ joined) request.actuals = some decl)
      (there : generic ∈ listed ++ joined) (isGeneric : generic.isGeneric = true)
      (special : specialise lattice generic request.actuals = .ok decl) :
      Joined lattice key requests listed (joined ++ [decl])

/-- What joined by some calls joined by more of them. -/
theorem Joined.mono {lattice : Lattice} {key : FunctionKey} {requests more : List Request}
    {listed joined : List FunctionDecl} (subset : requests ⊆ more)
    (before : Joined lattice key requests listed joined) : Joined lattice key more listed joined := by
  induction before with
  | none => exact .none
  | last _ called own won there isGeneric special ih =>
    exact .last ih (subset called) own won there isGeneric special

/-- Nothing joins a group without overloads. -/
theorem Joined.eq_nil {lattice : Lattice} {key : FunctionKey} {requests : List Request}
    {joined : List FunctionDecl} (before : Joined lattice key requests [] joined) : joined = [] := by
  induction before with
  | none => rfl
  | last _ _ _ _ there _ _ ih =>
    subst ih
    cases there

/-- A call is bound to the winner among the overloads of its key. -/
theorem winner_of_resolve {lattice : Lattice} {functions after : FunctionTable} {key : FunctionKey} {signature : String}
    {actuals : List Ty} {location : Location} {decl : FunctionDecl}
    (bound : resolve lattice functions key signature actuals location = .ok (decl, after)) :
    winner lattice (functions.overloads key) actuals = some decl := by
  rcases resolve_eq_ok bound with ⟨found, -⟩ | ⟨missed, bid, won, rfl, -⟩
  · simp only [winner, found]
  · simp only [winner, missed, won, Option.map_some]

/-- Calls keep overloads under their keys. -/
theorem keyed_tableAfter {lattice : Lattice} {functions : FunctionTable} (keyed : functions.Keyed)
    (request : Request) : (request.tableAfter lattice functions).Keyed := by
  simp only [Request.tableAfter]
  split
  · rename_i bound
    exact keyed_resolve keyed bound
  · exact keyed

/-- One call adds at most one overload to a group, the one that it was bound to, and only to the group of
its own key. -/
theorem overloads_tableAfter {lattice : Lattice} {functions : FunctionTable} (keyed : functions.Keyed)
    (request : Request) (key : FunctionKey) :
    (request.tableAfter lattice functions).overloads key = functions.overloads key ∨
    (request.key = key ∧ ∃ generic ∈ functions.overloads key, ∃ decl,
      winner lattice (functions.overloads key) request.actuals = some decl ∧ generic.isGeneric = true ∧
      specialise lattice generic request.actuals = .ok decl ∧
      (request.tableAfter lattice functions).overloads key = functions.overloads key ++ [decl]) := by
  simp only [Request.tableAfter]
  split
  · rename_i decl after bound
    have won := winner_of_resolve bound
    rcases resolve_listed_or_specialised bound with ⟨-, rfl⟩ | ⟨generic, there, isGeneric, special, rfl⟩
    · exact Or.inl rfl
    · have own : decl.key = request.key := by
        rw [specialise_eq_ok special, key_substituted]
        exact keyed.of_mem there
      rw [FunctionTable.overloads_insert, own]
      split
      · rename_i new
        rw [← new.1] at there won
        exact Or.inr ⟨new.1.symm, generic, there, decl, won, isGeneric, special, rfl⟩
      · exact Or.inl rfl
  · exact Or.inl rfl

/-- **What calls one after another add to a group** are specialisations that joined it. -/
theorem overloads_tableAfterAll (lattice : Lattice) {functions : FunctionTable}
    (keyed : functions.Keyed) (requests : List Request) (key : FunctionKey) :
    (Request.tableAfterAll lattice functions requests).Keyed ∧
    ∃ joined, Joined lattice key requests (functions.overloads key) joined ∧
      (Request.tableAfterAll lattice functions requests).overloads key =
        functions.overloads key ++ joined := by
  -- from the last call backwards, since an overload joins a group that earlier calls have left
  induction requests using List.reverseRecOn with
  | nil => exact ⟨keyed, [], .none, (List.append_nil _).symm⟩
  | append_singleton earlier request ih =>
    obtain ⟨stillKeyed, joined, before, grown⟩ := ih
    have more : Joined lattice key (earlier ++ [request]) (functions.overloads key) joined :=
      before.mono (List.subset_append_left _ _)
    rw [Request.tableAfterAll, List.foldl_append, ← Request.tableAfterAll]
    refine ⟨keyed_tableAfter stillKeyed request, ?_⟩
    rcases overloads_tableAfter stillKeyed request key with
      same | ⟨own, generic, there, decl, won, isGeneric, special, added⟩
    · exact ⟨joined, more, same.trans grown⟩
    · rw [grown] at there added won
      refine ⟨joined ++ [decl], .last more ?_ own won there isGeneric special, ?_⟩
      · exact List.mem_append_right _ List.mem_cons_self
      · exact added.trans (List.append_assoc _ _ _)

/-- A call that returns with overloads that joined the group returns without them, unless they take it over. -/
theorem ends_callAscents_of_append {lattice : Lattice} {listed joined : List FunctionDecl} {actuals : List Ty}
    (stays : ¬ TakesOver lattice listed joined actuals)
    (ends : ∀ ascent ∈ callAscents lattice (listed ++ joined) actuals, ascent.Ends lattice) :
    ∀ ascent ∈ callAscents lattice listed actuals, ascent.Ends lattice := by
  by_cases exact : ∃ decl ∈ listed, decl.matchesExactly actuals = true
  · obtain ⟨decl, mem, matched⟩ := exact
    rw [callAscents_of_exact mem matched]
    exact fun _ mem => nomatch mem
  · have inexact : ∀ decl ∈ listed, ¬ decl.matchesExactly actuals = true :=
      fun decl mem matched => exact ⟨decl, mem, matched⟩
    have missed : ∀ decl ∈ listed ++ joined, ¬ decl.matchesExactly actuals = true := by
      intro decl mem matched
      rcases List.mem_append.mp mem with old | new
      · exact inexact decl old matched
      · exact stays ⟨inexact, Or.inl ⟨decl, new, matched⟩⟩
    rw [callAscents_of_inexact missed, List.flatMap_append] at ends
    rw [callAscents_of_inexact inexact]
    exact (List.forall_mem_append.mp ends).1

/-! ## A call that another one lets through -/

/-- A function of two parameters of one placeholder, which it returns. -/
def pick : FunctionDecl where
  signature := [⟨"pick", .nowhere⟩]
  affix := .between
  returnType := .generic "T"
  params := [⟨⟨"left", .nowhere⟩, .generic "T", false⟩, ⟨⟨"right", .nowhere⟩, .generic "T", false⟩]
  body := []
  generics := [⟨⟨"T", .nowhere⟩, none⟩]
  origin := ""
  location := .nowhere

/-- The table whose one overload is `pick`. -/
def picking : FunctionTable := FunctionTable.empty.insert pick

theorem keyed_picking : picking.Keyed := FunctionTable.keyed_empty.insert pick

/-- A call of `pick` with arguments of two builtin types. -/
def pickWith (left right : Builtin) : Request :=
  ⟨pick.key, pick.shown, [.builtin left, .builtin right], .nowhere⟩

/-- **The outcome of a call after other calls.** If all their searches end, the calls return. Those before
add, to the group of the further call's key, specialisations that they were bound to. If these take over the
further call, it is bound to one of them, as if they alone were listed; otherwise it returns without the
calls before it too, and its outcome is the same. -/
theorem outcome_tableAfterAll (lattice : Lattice) (functions : FunctionTable)
    (keyed : functions.Keyed) (requests : List Request) (further : Request)
    (ends : ∀ ascent ∈ Request.allAscents lattice functions (requests ++ [further]), ascent.Ends lattice) :
    ∃ after seen joined, Request.tableAfterAll? lattice functions requests = some after ∧
      further.outcome? lattice after = some seen ∧
      Joined lattice further.key requests (functions.overloads further.key) joined ∧
      after.overloads further.key = functions.overloads further.key ++ joined ∧
      (¬ TakesOver lattice (functions.overloads further.key) joined further.actuals →
        further.outcome? lattice functions = some seen) ∧
      (TakesOver lattice (functions.overloads further.key) joined further.actuals →
        ∃ decl, winner lattice joined further.actuals = some decl ∧
          seen = .ok (decl.paramTypes, decl.returnType)) := by
  rw [Request.allAscents_append] at ends
  have before : ∀ ascent ∈ Request.allAscents lattice functions requests, ascent.Ends lattice :=
    fun ascent mem => ends ascent (List.mem_append_left _ mem)
  have last : ∀ ascent ∈ further.ascents lattice (Request.tableAfterAll lattice functions requests),
      ascent.Ends lattice :=
    fun ascent mem => ends ascent (List.mem_append_right _ mem)
  obtain ⟨-, joined, specialisations, grown⟩ :=
    overloads_tableAfterAll lattice keyed requests further.key
  refine ⟨_, _, joined, (Request.awaits_tableAfterAll requests).returns before,
    (Request.awaits_outcome further).returns last, specialisations, grown, fun stays => ?_, fun takes => ?_⟩
  · have unknown : functions.overloads further.key ++ joined = [] ↔
        functions.overloads further.key = [] := by
      refine ⟨fun empty => (List.append_eq_nil_iff.mp empty).1, fun empty => ?_⟩
      rw [empty] at specialisations
      rw [empty, specialisations.eq_nil]
      rfl
    have same : further.outcome lattice functions =
        further.outcome lattice (Request.tableAfterAll lattice functions requests) := by
      simp only [outcome_eq, grown, winner_append_of_not_takesOver stays, unknown]
    rw [Request.ascents, grown] at last
    rw [← same]
    exact (Request.awaits_outcome further).returns (ends_callAscents_of_append stays last)
  · obtain ⟨decl, alone, together⟩ := takes.winner_append
    refine ⟨decl, alone, ?_⟩
    rw [outcome_eq, grown, together, if_neg]
    intro empty
    rw [empty] at together
    cases together

/-- All searches of the two calls end. -/
theorem ends_pickWith : ∀ ascent ∈ Request.allAscents .initial picking
    [pickWith .number .integer, pickWith .integer .number], ascent.Ends .initial :=
  Ascent.ends_of_all (by decide)

theorem outcome_pickWith_after : picking.Keyed ∧
    ∃ after seen joined, Request.tableAfterAll? .initial picking [pickWith .number .integer] = some after ∧
      (pickWith .integer .number).outcome? .initial after = some seen ∧
      Joined .initial pick.key [pickWith .number .integer] (picking.overloads pick.key) joined ∧
      after.overloads pick.key = picking.overloads pick.key ++ joined ∧
      (¬ TakesOver .initial (picking.overloads pick.key) joined [.builtin .integer, .builtin .number] →
        (pickWith .integer .number).outcome? .initial picking = some seen) ∧
      (TakesOver .initial (picking.overloads pick.key) joined [.builtin .integer, .builtin .number] →
        ∃ decl, winner .initial joined [.builtin .integer, .builtin .number] = some decl ∧
          seen = .ok (decl.paramTypes, decl.returnType)) :=
  ⟨keyed_picking, outcome_tableAfterAll .initial picking keyed_picking [pickWith .number .integer]
    (pickWith .integer .number) ends_pickWith⟩

/-- **A call can let another one through.** An integer and a number have no common type as arguments of
`pick`, for the first argument decides what the placeholder stands for. They conform to the
specialisation that a call with a number and an integer leaves behind. All three calls return. -/
theorem exists_outcome_changed : ∃ functions requests further, FunctionTable.Keyed functions ∧
    Request.outcome? .initial functions further = some (.error "NoConformingFunction") ∧
    ∃ after, Request.tableAfterAll? .initial functions requests = some after ∧
      Request.outcome? .initial after further =
        some (.ok ([.builtin .number, .builtin .number], .builtin .number)) := by
  have alone : ∀ ascent ∈ (pickWith .integer .number).ascents .initial picking, ascent.Ends .initial :=
    Ascent.ends_of_all (by decide)
  have ends := ends_pickWith
  rw [Request.allAscents] at ends
  have before := (List.forall_mem_append.mp ends).1
  have later := (List.forall_mem_append.mp ends).2
  refine ⟨picking, [pickWith .number .integer], pickWith .integer .number, keyed_picking,
    (Request.awaits_outcome _).returns alone, _,
    (Request.awaits_tableAfterAll [pickWith .number .integer]).returns ?_, ?_⟩
  · rw [Request.allAscents, Request.allAscents, List.append_nil]
    exact before
  · rw [Request.allAscents, Request.allAscents, List.append_nil] at later
    exact (Request.awaits_outcome _).returns later

end Overloading

end DeclCheck
