import DeclCheck.Check.Analysis
import DeclCheck.Proofs.Lattice.Termination
import DeclCheck.Proofs.Overloading.History
import DeclCheck.Proofs.Overloading.Persistence
import DeclCheck.Proofs.Walk.Keeps
import Mathlib.Algebra.Ring.Nat

/-!
# The best overload

A candidate that does not match a call exactly has a *price*: what it costs to pass all arguments to it, after its
placeholders were replaced. The rule of the choice is said here without the assessments that make it. The first
candidate that matches exactly is taken; if none does, the cheapest one, and the first of them if several are; and if
no candidate has a price the call is refused. Of all tables only the function table may change, by the one
specialisation that was taken.

A price is a fact about the lattice, and finding it takes searches. A call that matches nothing exactly looks for the
prices of all its candidates, so the rule holds of it if the searches of all assessments end. If one of them does not,
the call never returns, even where the best candidate has no price to look for. Which searches end is left open here.
-/

namespace DeclCheck

namespace Overloading

/-! ## A call on the tables of a check -/

namespace Request

/-- **Bind a call against the tables of a check**, as a walk does that makes this call and nothing else. -/
def bound (request : Request) : EStateM Error Symbols FunctionDecl := fun symbols =>
  match Analysis.walk [] .empty
      (fun env => Check.bindCall env request.key request.signature request.actuals request.location)
      (.start symbols) with
  | .ok found analysis => .ok found.1 analysis.symbols
  | .error error analysis => .error error analysis.symbols

/-- A call in a symbol table is one in its lattice and its functions. -/
theorem bound_apply (request : Request) (symbols : Symbols) :
    request.bound symbols =
      match resolve symbols.types.lattice symbols.functions request.key request.signature request.actuals
          request.location with
      | .ok found => .ok found.1 { symbols with functions := found.2 }
      | .error error => .error error symbols := by
  simp only [bound, Analysis.walk, Analysis.start, Check.bindCall_apply]
  cases resolve symbols.types.lattice symbols.functions request.key request.signature request.actuals
    request.location with
  | ok found => rfl
  | error error => rfl

/-- A call against the tables of a check, as far as it returns. -/
def bound? (request : Request) (symbols : Symbols) : Option (EStateM.Result Error Symbols FunctionDecl) :=
  (resolve? symbols.types.lattice symbols.functions request.key request.signature request.actuals
      request.location).map fun
    | .ok found => .ok found.1 { symbols with functions := found.2 }
    | .error error => .error error symbols

/-- It waits for the searches of its candidates. -/
theorem awaits_bound (request : Request) (symbols : Symbols) :
    symbols.types.lattice.Awaits (request.ascents symbols.types.lattice symbols.functions) (request.bound? symbols)
      (request.bound symbols) := by
  rw [bound_apply]
  exact (awaits_resolve symbols.types.lattice symbols.functions request.key request.signature request.actuals
    request.location).map _

end Request

/-! ## Prices -/

/-- What a candidate offers for a call: itself, or its specialisation to the arguments if it is generic. -/
def offer (actuals : List Ty) (candidate : FunctionDecl) : FunctionDecl :=
  if candidate.isGeneric then substituted candidate (bindings candidate actuals) else candidate

/-- The costs of passing arguments to parameters, position by position. -/
def positionCosts (lattice : Lattice) (params actuals : List Ty) : List Nat :=
  List.zipWith (fun declared actual => lattice.cost actual declared) params actuals

/-- **The price of a candidate**: the sum of the costs of all positions of what it offers. There is none if an argument
violates a restriction of its placeholders, or some position costs as much as unrelated types do. -/
def price? (lattice : Lattice) (actuals : List Ty) (candidate : FunctionDecl) : Option Nat :=
  let costs := positionCosts lattice (offer actuals candidate).paramTypes actuals
  if candidate.isGeneric && candidate.generics.any (violates lattice (bindings candidate actuals)) then none
  else if costs.any (Lattice.unrelatedCost ≤ ·) then none
  else some costs.sum

variable {lattice : Lattice} {actuals : List Ty}

/-- Costs add up as long as no argument is unrelated. -/
theorem totalCost_eq_ok_iff {position total : Nat} {params actuals : List Ty} :
    totalCost lattice position params actuals = .ok total ↔
      (positionCosts lattice params actuals).any (Lattice.unrelatedCost ≤ ·) = false ∧
        (positionCosts lattice params actuals).sum = total := by
  induction params generalizing position total actuals with
  | nil => simp [totalCost, positionCosts]
  | cons declared rest ih =>
    cases actuals with
    | nil => simp [totalCost, positionCosts]
    | cons actual actuals =>
      simp only [positionCosts, List.zipWith_cons_cons, List.any_cons, List.sum_cons, totalCost] at ih ⊢
      by_cases dear : Lattice.unrelatedCost ≤ lattice.cost actual declared
      · simp [dear]
      · simp only [dear, if_false, decide_false, Bool.false_or]
        constructor
        · intro added
          cases later : totalCost lattice (position + 1) rest actuals with
          | error failed => simp [later, Except.map] at added
          | ok sum =>
            obtain ⟨near, total⟩ := ih.mp later
            simp only [later, Except.map, Except.ok.injEq] at added
            exact ⟨near, by omega⟩
        · rintro ⟨near, rfl⟩
          rw [ih.mpr ⟨near, rfl⟩]
          rfl

/-- A candidate can be specialised if no restriction is violated. -/
theorem specialise_eq_ok_iff {candidate decl : FunctionDecl} :
    specialise lattice candidate actuals = .ok decl ↔
      candidate.generics.any (violates lattice (bindings candidate actuals)) = false ∧
        decl = substituted candidate (bindings candidate actuals) := by
  simp only [specialise]
  cases violated : candidate.generics.find? (violates lattice (bindings candidate actuals)) with
  | none =>
    have met := List.any_eq_false.mpr (List.find?_eq_none.mp violated)
    constructor
    · intro made
      cases made
      exact ⟨met, rfl⟩
    · rintro ⟨-, rfl⟩
      rfl
  | some generic =>
    have broken := List.any_eq_true.mpr ⟨generic, List.mem_of_find?_eq_some violated, List.find?_some violated⟩
    constructor
    · intro made
      cases made
    · rintro ⟨met, -⟩
      rw [broken] at met
      cases met

/-- **A candidate has a price if it can be specialised and its costs add up.** -/
theorem price?_eq_some_iff {candidate : FunctionDecl} {cost : Nat} :
    price? lattice actuals candidate = some cost ↔
      (candidate.isGeneric = true →
        candidate.generics.any (violates lattice (bindings candidate actuals)) = false) ∧
      totalCost lattice 0 (offer actuals candidate).paramTypes actuals = .ok cost := by
  rw [price?, totalCost_eq_ok_iff]
  cases candidate.isGeneric <;>
    cases candidate.generics.any (violates lattice (bindings candidate actuals)) <;>
    cases (positionCosts lattice (offer actuals candidate).paramTypes actuals).any (Lattice.unrelatedCost ≤ ·) <;>
    simp

/-- **An assessment bids what a candidate offers, for its price.** -/
theorem assess_eq_ok_iff {candidate : FunctionDecl} {bid : Bid} :
    assess lattice actuals candidate = .ok bid ↔
      price? lattice actuals candidate = some bid.cost ∧ bid.decl = offer actuals candidate ∧
        bid.specialised = candidate.isGeneric := by
  rw [price?_eq_some_iff]
  constructor
  · intro assessed
    obtain ⟨flag, total, ⟨plain, same⟩ | ⟨generic, special⟩⟩ := assess_eq_ok assessed
    · have own : bid.decl = offer actuals candidate := by rw [same, offer, plain]; rfl
      rw [own] at total
      refine ⟨⟨fun generic => ?_, total⟩, own, flag⟩
      rw [plain] at generic
      cases generic
    · obtain ⟨met, made⟩ := specialise_eq_ok_iff.mp special
      have own : bid.decl = offer actuals candidate := by rw [made, offer, if_pos generic]
      rw [own] at total
      exact ⟨⟨fun _ => met, total⟩, own, flag⟩
  · rintro ⟨⟨met, total⟩, own, flag⟩
    obtain ⟨cost, decl, specialised⟩ := bid
    obtain rfl : decl = offer actuals candidate := own
    obtain rfl : specialised = candidate.isGeneric := flag
    by_cases generic : candidate.isGeneric = true
    · have special : specialise lattice candidate actuals = .ok (offer actuals candidate) := by
        rw [offer, if_pos generic]
        exact specialise_eq_ok_iff.mpr ⟨met generic, rfl⟩
      rw [assess, if_pos generic]
      exact bind_eq_ok.mpr ⟨_, special, bind_eq_ok.mpr ⟨cost, total, rfl⟩⟩
    · have same : offer actuals candidate = candidate := if_neg generic
      rw [same] at total ⊢
      rw [assess, if_neg generic]
      exact bind_eq_ok.mpr ⟨_, rfl, bind_eq_ok.mpr ⟨cost, total, rfl⟩⟩

/-! ## The rule of the choice -/

/-- Whether a candidate is the first of several that match the arguments exactly. -/
structure FirstExact (actuals : List Ty) (candidates : List FunctionDecl) (decl : FunctionDecl) : Prop where
  matching : decl.matchesExactly actuals = true
  first : ∃ before after, candidates = before ++ decl :: after ∧
    ∀ earlier ∈ before, ¬ earlier.matchesExactly actuals = true

/-- **Whether a candidate is the best of several**: it has a price, each earlier one has a higher price or none, and
each later one has no lower price. -/
structure Best (lattice : Lattice) (actuals : List Ty) (candidates : List FunctionDecl) (candidate : FunctionDecl)
    (cost : Nat) : Prop where
  priced : price? lattice actuals candidate = some cost
  least : ∃ before after, candidates = before ++ candidate :: after ∧
    (∀ earlier ∈ before, ∀ other, price? lattice actuals earlier = some other → cost < other) ∧
    ∀ later ∈ after, ∀ other, price? lattice actuals later = some other → cost ≤ other

/-- The best candidate is one of the candidates. -/
theorem Best.mem {candidates : List FunctionDecl} {candidate : FunctionDecl} {cost : Nat}
    (best : Best lattice actuals candidates candidate cost) : candidate ∈ candidates := by
  obtain ⟨before, after, rfl, -, -⟩ := best.least
  exact List.mem_append_right _ List.mem_cons_self

/-- No candidate is cheaper than the best. -/
theorem Best.le {candidates : List FunctionDecl} {candidate other : FunctionDecl} {cost price : Nat}
    (best : Best lattice actuals candidates candidate cost) (listed : other ∈ candidates)
    (priced : price? lattice actuals other = some price) : cost ≤ price := by
  obtain ⟨before, after, rfl, earlier, later⟩ := best.least
  rcases List.mem_append.mp listed with old | rest
  · exact Nat.le_of_lt (earlier other old price priced)
  · rcases List.mem_cons.mp rest with rfl | new
    · rw [best.priced] at priced
      exact Nat.le_of_eq (Option.some.inj priced)
    · exact later other new price priced

/-- The first candidate that matches exactly is found. -/
theorem firstExact_of_find? {candidates : List FunctionDecl} {decl : FunctionDecl}
    (found : candidates.find? (·.matchesExactly actuals) = some decl) : FirstExact actuals candidates decl := by
  obtain ⟨matching, before, after, split, first⟩ := List.find?_eq_some_iff_append.mp found
  refine ⟨matching, before, after, split, fun earlier mem matched => ?_⟩
  have missed := first earlier mem
  rw [matched] at missed
  cases missed

/-- Whether a bid comes from a candidate such that all earlier bids are higher. -/
def LeadingBid (lattice : Lattice) (actuals : List Ty) (candidates : List FunctionDecl) (bid : Bid) : Prop :=
  ∃ before candidate after, candidates = before ++ candidate :: after ∧ assess lattice actuals candidate = .ok bid ∧
    ∀ earlier ∈ before, ∀ other, assess lattice actuals earlier = .ok other → bid.cost < other.cost

/-- A leading bid stays one behind a candidate that does not bid, or bids more. -/
theorem LeadingBid.cons {head : FunctionDecl} {rest : List FunctionDecl} {bid : Bid}
    (leading : LeadingBid lattice actuals rest bid)
    (dearer : ∀ other, assess lattice actuals head = .ok other → bid.cost < other.cost) :
    LeadingBid lattice actuals (head :: rest) bid := by
  obtain ⟨before, candidate, after, rfl, assessed, first⟩ := leading
  exact ⟨head :: before, candidate, after, rfl, assessed, List.forall_mem_cons.mpr ⟨dearer, first⟩⟩

/-- The first candidate leads as long as it is the only one. -/
theorem leadingBid_head {head : FunctionDecl} {bid : Bid} (assessed : assess lattice actuals head = .ok bid)
    (rest : List FunctionDecl) : LeadingBid lattice actuals (head :: rest) bid :=
  ⟨[], head, rest, rfl, assessed, fun _ mem => nomatch mem⟩

/-- **The cheapest bid is a leading one.** -/
theorem leadingBid_of_cheapest {candidates : List FunctionDecl} {bid : Bid}
    (won : cheapest (bids (candidates.map (assess lattice actuals))) = some bid) :
    LeadingBid lattice actuals candidates bid := by
  induction candidates generalizing bid with
  | nil => cases won
  | cons head rest ih =>
    rw [List.map_cons] at won
    cases assessed : assess lattice actuals head with
    | error position =>
      rw [assessed, bids] at won
      refine (ih won).cons fun other offered => ?_
      rw [assessed] at offered
      cases offered
    | ok own =>
      rw [assessed, bids, cheapest] at won
      cases later : cheapest (bids (rest.map (assess lattice actuals))) with
      | none =>
        rw [later] at won
        obtain rfl := Option.some.inj won
        exact leadingBid_head assessed rest
      | some least =>
        rw [later] at won
        dsimp only at won
        -- the head gives way only to a lower bid
        split at won
        next lower =>
          obtain rfl := Option.some.inj won
          refine (ih later).cons fun other offered => ?_
          rw [assessed] at offered
          obtain rfl := Except.ok.inj offered
          exact lower
        next =>
          obtain rfl := Option.some.inj won
          exact leadingBid_head assessed rest

/-- **The cheapest bid is that of the best candidate.** -/
theorem exists_best_of_cheapest {candidates : List FunctionDecl} {bid : Bid}
    (won : cheapest (bids (candidates.map (assess lattice actuals))) = some bid) :
    ∃ candidate, assess lattice actuals candidate = .ok bid ∧
      Best lattice actuals candidates candidate bid.cost := by
  obtain ⟨before, candidate, after, rfl, assessed, first⟩ := leadingBid_of_cheapest won
  have bids_of_price {other : FunctionDecl} {cost : Nat} (priced : price? lattice actuals other = some cost) :
      assess lattice actuals other = .ok ⟨cost, offer actuals other, other.isGeneric⟩ :=
    assess_eq_ok_iff.mpr ⟨priced, rfl, rfl⟩
  refine ⟨candidate, assessed, (assess_eq_ok_iff.mp assessed).1, before, after, rfl, ?_, ?_⟩
  · intro earlier mem cost priced
    exact first earlier mem _ (bids_of_price priced)
  · intro later mem cost priced
    have listed : later ∈ before ++ candidate :: after := List.mem_append_right _ (List.mem_cons_of_mem _ mem)
    exact cost_le_of_cheapest won _ (mem_bids.mpr (List.mem_map.mpr ⟨later, listed, bids_of_price priced⟩))

/-- There is no cheapest bid exactly if no candidate has a price. -/
theorem cheapest_eq_none_iff {candidates : List FunctionDecl} :
    cheapest (bids (candidates.map (assess lattice actuals))) = none ↔
      ∀ candidate ∈ candidates, price? lattice actuals candidate = none := by
  constructor
  · intro lost candidate mem
    cases priced : price? lattice actuals candidate with
    | none => rfl
    | some cost =>
      have assessed : assess lattice actuals candidate = .ok ⟨cost, offer actuals candidate, candidate.isGeneric⟩ :=
        assess_eq_ok_iff.mpr ⟨priced, rfl, rfl⟩
      have offered := mem_bids.mpr (List.mem_map.mpr ⟨candidate, mem, assessed⟩)
      rw [cheapest_eq_none.mp lost] at offered
      cases offered
  · intro unpriced
    cases won : cheapest (bids (candidates.map (assess lattice actuals))) with
    | none => rfl
    | some bid =>
      obtain ⟨candidate, mem, assessed⟩ := exists_assess_of_cheapest won
      have priced := (assess_eq_ok_iff.mp assessed).1
      rw [unpriced candidate mem] at priced
      cases priced

/-! ## What a call is bound to, and what it leaves -/

end Overloading

/-- **Whether a table has one overload more than another**, at the end of the group of a key. -/
def FunctionTable.Gains (table after : FunctionTable) (key : FunctionKey) (decl : FunctionDecl) : Prop :=
  ∀ other, after.overloads other = if other = key then table.overloads key ++ [decl] else table.overloads other

namespace FunctionTable

variable {table : FunctionTable} {decl other : FunctionDecl} {key : FunctionKey}

/-- A function that is new joins at the end of its group. -/
theorem gains_insert (own : decl.key = key)
    (new : ∀ other ∈ table.overloads key, ¬ other.sameOverload decl = true) :
    table.Gains (table.insert decl) key decl := by
  subst own
  have absent := Bool.eq_false_iff.mp (List.any_eq_false.mpr new)
  intro group
  rw [overloads_insert]
  by_cases same : group = decl.key
  · subst same
    rw [if_pos rfl, if_pos ⟨rfl, absent⟩]
  · rw [if_neg same, if_neg fun both => same both.1]

/-- One that is there already does not. -/
theorem insert_of_sameOverload (own : decl.key = key) (there : other ∈ table.overloads key)
    (same : other.sameOverload decl = true) : table.insert decl = table := by
  subst own
  rw [insert_eq, if_pos (List.any_eq_true.mpr ⟨other, there, same⟩)]

end FunctionTable

namespace Overloading

/-- What a candidate offers has its key. -/
theorem key_offer (actuals : List Ty) (candidate : FunctionDecl) : (offer actuals candidate).key = candidate.key := by
  rw [offer]
  split
  · exact key_substituted _ _
  · rfl

section

variable {functions : FunctionTable} {key : FunctionKey} {signature : String} {location : Location}

/-- A call that matches nothing exactly is bound to the cheapest bid. -/
theorem resolve_of_cheapest {bid : Bid}
    (inexact : (functions.overloads key).find? (·.matchesExactly actuals) = none)
    (won : cheapest (bids ((functions.overloads key).map (assess lattice actuals))) = some bid) :
    resolve lattice functions key signature actuals location =
      .ok (bid.decl, if bid.specialised then functions.insert bid.decl else functions) := by
  obtain ⟨candidate, mem, -⟩ := exists_assess_of_cheapest won
  have some : (functions.overloads key).isEmpty = false := List.isEmpty_eq_false_iff_exists_mem.mpr ⟨candidate, mem⟩
  simp only [resolve, some, inexact, won]
  rfl

/-- A call without bids is refused at some position. -/
theorem exists_resolve_eq_refuse (listed : functions.overloads key ≠ [])
    (inexact : (functions.overloads key).find? (·.matchesExactly actuals) = none)
    (lost : cheapest (bids ((functions.overloads key).map (assess lattice actuals))) = none) :
    ∃ position, resolve lattice functions key signature actuals location =
      refuse (noConforming (functions.overloads key) signature actuals position) location := by
  obtain ⟨position, failed⟩ := exists_failure (fun none => listed (List.map_eq_nil_iff.mp none))
    (cheapest_eq_none.mp lost)
  refine ⟨position, ?_⟩
  simp only [resolve, List.isEmpty_eq_false_iff.mpr listed, inexact, lost, failed]
  rfl

end

/-- A call that matches nothing exactly is bound by the bids, or refused. -/
theorem bound_of_inexact (symbols : Symbols) (keyed : symbols.functions.Keyed) (request : Request)
    (listed : symbols.functions.overloads request.key ≠ [])
    (inexact : ∀ candidate ∈ symbols.functions.overloads request.key,
      ¬ candidate.matchesExactly request.actuals = true) :
    let lattice := symbols.types.lattice
    let candidates := symbols.functions.overloads request.key
    ((∃ candidate ∈ candidates, (price? lattice request.actuals candidate).isSome = true) →
      ∃ candidate cost after, Best lattice request.actuals candidates candidate cost ∧
        request.bound symbols = .ok (offer request.actuals candidate) after ∧
        (candidate.isGeneric = true →
          (∀ other ∈ candidates, ¬ other.sameOverload (offer request.actuals candidate) = true) →
          symbols.functions.Gains after.functions request.key (offer request.actuals candidate)) ∧
        ((candidate.isGeneric = false ∨
            ∃ other ∈ candidates, other.sameOverload (offer request.actuals candidate) = true) →
          after = symbols)) ∧
    ((∀ candidate ∈ candidates, price? lattice request.actuals candidate = none) →
      ∃ position, request.bound symbols =
        .error (.found (noConforming candidates request.signature request.actuals position) request.location)
          symbols) := by
  intro lattice candidates
  have missed := List.find?_eq_none.mpr inexact
  cases won : cheapest (bids (candidates.map (assess lattice request.actuals))) with
  | none =>
    have unpriced := cheapest_eq_none_iff.mp won
    refine ⟨fun ⟨candidate, mem, priced⟩ => ?_, fun _ => ?_⟩
    · rw [unpriced candidate mem] at priced
      cases priced
    · obtain ⟨position, refused⟩ := exists_resolve_eq_refuse listed missed won
      refine ⟨position, ?_⟩
      rw [Request.bound_apply, refused]
      rfl
  | some bid =>
    obtain ⟨candidate, assessed, best⟩ := exists_best_of_cheapest won
    obtain ⟨priced, offered, flag⟩ := assess_eq_ok_iff.mp assessed
    have own : (offer request.actuals candidate).key = request.key :=
      (key_offer _ _).trans (keyed.of_mem best.mem)
    have reached := Request.bound_apply request symbols
    rw [resolve_of_cheapest missed won, offered, flag] at reached
    refine ⟨fun _ => ⟨candidate, bid.cost, _, best, reached, ?_, ?_⟩, fun unpriced => ?_⟩
    · intro generic new
      rw [if_pos generic]
      exact FunctionTable.gains_insert own new
    · rintro (plain | ⟨other, there, same⟩)
      · rw [plain]
        rfl
      · rw [FunctionTable.insert_of_sameOverload own there same, ite_self]
    · rw [unpriced candidate best.mem] at priced
      cases priced

/-- **A call is bound to the best overload, if it returns.** Where some candidate matches exactly, the first such is
taken and nothing changes. Otherwise all candidates are assessed, and the call returns just if the searches of all
assessments end. Then the best candidate is taken as specialised; if it is generic and the group has no such overload
yet, its specialisation is added there. If no candidate has a price, the call is refused and nothing changes. In no case
do the types change. -/
theorem bound_best (symbols : Symbols) (keyed : symbols.functions.Keyed) (request : Request)
    (listed : symbols.functions.overloads request.key ≠ []) :
    let lattice := symbols.types.lattice
    let candidates := symbols.functions.overloads request.key
    (∀ outcome, request.bound? symbols = some outcome → (stateAfter outcome).types = symbols.types) ∧
    ((∃ candidate ∈ candidates, candidate.matchesExactly request.actuals = true) →
      ∃ decl, FirstExact request.actuals candidates decl ∧ request.bound? symbols = some (.ok decl symbols)) ∧
    ((∀ candidate ∈ candidates, ¬ candidate.matchesExactly request.actuals = true) →
      ((∃ candidate ∈ candidates, ∃ ascent ∈ assessAscents lattice request.actuals candidate,
          ¬ ascent.Ends lattice) →
        request.bound? symbols = none) ∧
      ((∀ candidate ∈ candidates, ∀ ascent ∈ assessAscents lattice request.actuals candidate, ascent.Ends lattice) →
        ((∃ candidate ∈ candidates, (price? lattice request.actuals candidate).isSome = true) →
          ∃ candidate cost after, Best lattice request.actuals candidates candidate cost ∧
            request.bound? symbols = some (.ok (offer request.actuals candidate) after) ∧
            (candidate.isGeneric = true →
              (∀ other ∈ candidates, ¬ other.sameOverload (offer request.actuals candidate) = true) →
              symbols.functions.Gains after.functions request.key (offer request.actuals candidate)) ∧
            ((candidate.isGeneric = false ∨
                ∃ other ∈ candidates, other.sameOverload (offer request.actuals candidate) = true) →
              after = symbols)) ∧
        ((∀ candidate ∈ candidates, price? lattice request.actuals candidate = none) →
          ∃ position, request.bound? symbols =
            some (.error (.found (noConforming candidates request.signature request.actuals position)
              request.location) symbols)))) := by
  intro lattice candidates
  have waits := request.awaits_bound symbols
  refine ⟨fun outcome returned => ?_, ?_, fun inexact => ?_⟩
  · obtain ⟨-, rfl⟩ := waits.eq_some_iff.mp returned
    rw [Request.bound_apply]
    cases resolve symbols.types.lattice symbols.functions request.key request.signature request.actuals
      request.location <;> rfl
  · rintro ⟨candidate, mem, matching⟩
    cases found : candidates.find? (·.matchesExactly request.actuals) with
    | none => exact absurd matching (List.find?_eq_none.mp found candidate mem)
    | some decl =>
      have none : request.ascents lattice symbols.functions = [] := callAscents_of_exact mem matching
      have returned := waits.returns (by rw [none]; exact fun _ mem => nomatch mem)
      rw [Request.bound_apply, resolve_of_find? found] at returned
      exact ⟨decl, firstExact_of_find? found, returned⟩
  · have all : request.ascents lattice symbols.functions = _ := callAscents_of_inexact inexact
    refine ⟨?_, fun ends => ?_⟩
    · rintro ⟨candidate, mem, ascent, inside, endless⟩
      refine waits.hangs ⟨ascent, ?_, endless⟩
      rw [all]
      exact List.mem_flatMap.mpr ⟨candidate, mem, inside⟩
    · have returned : request.bound? symbols = some (request.bound symbols) := by
        refine waits.returns fun ascent inside => ?_
        rw [all] at inside
        obtain ⟨candidate, mem, inside⟩ := List.mem_flatMap.mp inside
        exact ends candidate mem ascent inside
      rw [returned]
      simp only [Option.some.injEq]
      exact bound_of_inexact symbols keyed request listed inexact

/-- A function of two numbers, under the key of `pick`. -/
def pickNumbers : FunctionDecl :=
  { pick with
    returnType := .builtin .number
    params := [⟨⟨"left", .nowhere⟩, .builtin .number, false⟩, ⟨⟨"right", .nowhere⟩, .builtin .number, false⟩]
    generics := [] }

/-- The tables in which `pick` stands behind `pickNumbers`. -/
def bothPicks : Symbols :=
  { Symbols.initial with functions := (FunctionTable.empty.insert pickNumbers).insert pick }

/-- Two integers are passed to `pickNumbers` at a cost and to `pick` at none. So the overload that was registered later
is taken, and its specialisation joins the table. -/
theorem bound_bothPicks :
    bothPicks.functions.Keyed ∧ bothPicks.functions.overloads pick.key = [pickNumbers, pick] ∧
    ∃ after, (pickWith .integer .integer).bound? bothPicks =
        some (.ok (offer [.builtin .integer, .builtin .integer] pick) after) ∧
      bothPicks.functions.Gains after.functions pick.key
        (offer [.builtin .integer, .builtin .integer] pick) := by
  have keyed : bothPicks.functions.Keyed := (FunctionTable.keyed_empty.insert pickNumbers).insert pick
  have group : bothPicks.functions.overloads pick.key = [pickNumbers, pick] := rfl
  have listed : pick ∈ [pickNumbers, pick] := List.mem_cons_of_mem _ List.mem_cons_self
  have free : price? bothPicks.types.lattice [.builtin .integer, .builtin .integer] pick = some 0 := rfl
  have ends : ∀ candidate ∈ [pickNumbers, pick],
      ∀ ascent ∈ assessAscents bothPicks.types.lattice [.builtin .integer, .builtin .integer] candidate,
        ascent.Ends bothPicks.types.lattice := by
    refine List.forall_mem_cons.mpr ⟨?_, List.forall_mem_singleton.mpr ?_⟩
    · exact Ascent.ends_of_all (by decide)
    · exact Ascent.ends_of_all (by decide)
  obtain ⟨-, -, inexact⟩ :=
    bound_best bothPicks keyed (pickWith .integer .integer) (List.cons_ne_nil pickNumbers [pick])
  obtain ⟨candidate, cost, after, best, bound, gained, -⟩ := ((inexact (by decide)).2 ends).1 ⟨pick, listed, rfl⟩
  -- the price of the other overload is two
  obtain rfl : candidate = pick := by
    have lowest : cost = 0 := Nat.le_zero.mp (best.le listed free)
    rcases List.mem_cons.mp best.mem with rfl | other
    · subst lowest
      cases best.priced
    · exact List.mem_singleton.mp other
  exact ⟨keyed, group, after, bound, gained rfl (by decide)⟩

/-! ## A call that never returns -/

/-- Type tables with one more group. -/
def withGroup (types : TypeTable) (name : String) : TypeTable :=
  ((types.registerGroup ⟨⟨name, .nowhere⟩, "", .nowhere⟩).toOption).getD types

/-- Type tables with a type bound into a group. -/
def withMember (types : TypeTable) (child : Ty) (group : String) : TypeTable :=
  (types.bindGroup? child (.group group)).getD types

/-- The initial types with two groups that are bound into each other. -/
def circularTypes : TypeTable :=
  withMember (withMember (withGroup (withGroup .initial "Odd") "Even") (.group "Odd") "Even") (.group "Even") "Odd"

/-- From one of the groups the search for the numbers goes round for ever. -/
theorem circularTypes_climbsForever :
    circularTypes.lattice.ClimbsForever (.group "Odd") (.builtin .number) := by
  apply Lattice.climbsForever_of_climb
  · unfold Lattice.Resolved Ty.HeadsResolved
    decide
  · decide
  · decide

/-- The tables of `bothPicks` with the two groups. -/
def circularPicks : Symbols := ⟨circularTypes, bothPicks.functions⟩

/-- The arguments of a call of `pick` with two values of one of the groups. -/
def oddTypes : List Ty := [.group "Odd", .group "Odd"]

/-- The way up that is searched for to assess the overload that is listed first. -/
def oddToNumber : Ascent := ⟨.group "Odd", .builtin .number⟩

/-- From `Odd` no search for `Number` ends: two groups lie above each other. -/
theorem oddToNumber_endless : ¬ oddToNumber.Ends circularTypes.lattice := not_not.mpr circularTypes_climbsForever

/-- The call makes that search for its first candidate. -/
theorem oddToNumber_mem_assessAscents : oddToNumber ∈ assessAscents circularTypes.lattice oddTypes pickNumbers :=
  List.mem_append_right [] (List.mem_append_left _ (List.mem_singleton.mpr rfl))

/-- **A call need not return**, although one of its candidates has a price and no other could be cheaper: the search
that assesses another one never ends. -/
theorem exists_bound_endless : ∃ (symbols : Symbols) (request : Request), symbols.functions.Keyed ∧
    (∀ candidate ∈ symbols.functions.overloads request.key, ¬ candidate.matchesExactly request.actuals = true) ∧
    (∃ candidate ∈ symbols.functions.overloads request.key,
      price? symbols.types.lattice request.actuals candidate = some 0) ∧
    request.bound? symbols = none := by
  refine ⟨circularPicks, ⟨pick.key, pick.shown, oddTypes, .nowhere⟩,
    (FunctionTable.keyed_empty.insert pickNumbers).insert pick, by decide,
    ⟨pick, List.mem_cons_of_mem _ List.mem_cons_self, rfl⟩, ?_⟩
  refine (Request.awaits_bound _ circularPicks).hangs ⟨oddToNumber, ?_, oddToNumber_endless⟩
  exact List.mem_flatMap.mpr ⟨pickNumbers, List.mem_cons_self, oddToNumber_mem_assessAscents⟩

end Overloading

end DeclCheck
