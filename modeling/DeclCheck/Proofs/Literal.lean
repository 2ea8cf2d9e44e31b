import DeclCheck.Check.Literal
import DeclCheck.Proofs.Steps

/-!
# What literals, accesses and cases yield

The rules of struct literals, member accesses and enum cases, read from their success: which declaration
they found, and which type they made of it.
-/

namespace DeclCheck

namespace Literal

variable {env : Env} {literal next : Literal} {location : Location} {ty : Ty}

/-- **What a literal begins with**: a declared struct, no members, and the written arguments if there are any, one for
each placeholder. -/
theorem start_made {ctor : Ty} (started : start env ctor location = .ok literal) :
    ∃ decl args, env.types.structs.find? (ctor.name?.getD "") = some decl ∧
      env.types.resolveAll env.generics ctor.args = .ok args ∧
      (ctor.args.isEmpty = false → ctor.args.length = decl.genericNames.length) ∧
      literal = ⟨ctor.name?.getD "", decl, !ctor.args.isEmpty, [], bindPairs (decl.genericNames.zip args)⟩ := by
  simp only [start] at started
  split at started
  · cases started
  · rename_i decl found
    split at started
    · cases started
    · rename_i fits
      obtain ⟨args, resolved, made⟩ := bind_eq_ok.mp started
      cases made
      refine ⟨decl, args, found, resolved, fun written => ?_, rfl⟩
      rw [written, Bool.not_false, Bool.true_and, bne_iff_ne, ne_eq, Decidable.not_not] at fits
      exact fits

/-- A literal begins with a declared struct, and with the written arguments if there are any. -/
theorem start_eq_ok {ctor : Ty} (started : start env ctor location = .ok literal) :
    env.types.structs.find? literal.name = some literal.decl ∧
    ∃ args, env.types.resolveAll env.generics ctor.args = .ok args ∧
      literal.bindings = bindPairs (literal.decl.genericNames.zip args) := by
  obtain ⟨decl, args, found, resolved, -, rfl⟩ := start_made started
  exact ⟨found, args, resolved, rfl⟩

theorem name_start {ctor : Ty} (started : start env ctor location = .ok literal) :
    literal.name = ctor.name?.getD "" := by
  obtain ⟨_, _, -, -, -, rfl⟩ := start_made started
  rfl

/-- A member that may be given is declared, and was not given before. -/
theorem claim_eq_ok {member : Ident} {declared : Member} (claimed : literal.claim member = .ok declared) :
    literal.decl.member? member.name = some declared ∧ member.name ∉ literal.given := by
  simp only [claim] at claimed
  split at claimed
  · cases claimed
  · rename_i found listed
    split at claimed
    · cases claimed
    · rename_i new
      cases claimed
      exact ⟨listed, new⟩

/-- The bindings after a value of a type was given to a member. -/
def bindingsAfter (literal : Literal) (declared : Member) (actual : Ty) : Bindings :=
  if literal.explicit then literal.bindings
  else bindMissing literal.bindings (declared.ty.bind .empty actual)

theorem accept_eq_ok {declared : Member} {actual : Ty}
    (accepted : literal.accept env declared actual location = .ok next) :
    env.types.lattice.isSubtype actual
        (declared.ty.substitute (literal.bindingsAfter declared actual)) = true ∧
      next = { literal with
        given := literal.given ++ [declared.name.name]
        bindings := literal.bindingsAfter declared actual } := by
  by_cases subtype : env.types.lattice.isSubtype actual
      (declared.ty.substitute (literal.bindingsAfter declared actual)) = true
  · have taken := (if_pos subtype).symm.trans accepted
    exact ⟨subtype, (Except.ok.inj taken).symm⟩
  · have refused := (if_neg subtype).symm.trans accepted
    cases refused

/-- The type of a literal is its struct applied to what its placeholders are bound to. -/
theorem finish_eq_ok (finished : literal.finish location = .ok ty) :
    ∃ args, boundArgs literal.bindings location literal.decl.genericNames = .ok args ∧
      ty = .struct literal.name args := by
  simp only [finish] at finished
  split at finished
  · obtain ⟨args, bound, made⟩ := bind_eq_ok.mp finished
    cases made
    exact ⟨args, bound, rfl⟩
  · cases finished

/-- A literal that is finished lacks no member. -/
theorem given_of_finish (finished : literal.finish location = .ok ty) {name : String}
    (mem : name ∈ literal.decl.memberNames) : name ∈ literal.given := by
  simp only [finish] at finished
  split at finished
  · rename_i complete
    by_cases there : name ∈ literal.given
    · exact there
    · have missing : name ∈ literal.decl.memberNames.filter (· ∉ literal.given) :=
        List.mem_filter.mpr ⟨mem, decide_eq_true there⟩
      rw [List.isEmpty_iff.mp complete] at missing
      cases missing
  · cases finished

/-- There is one bound type for each placeholder, in order. -/
theorem boundArgs_eq_ok {bindings : Bindings} {names : List String} {args : List Ty}
    (bound : boundArgs bindings location names = .ok args) :
    names.map bindings.find? = args.map some := by
  induction names generalizing args with
  | nil => cases bound; rfl
  | cons name rest ih =>
    simp only [boundArgs] at bound
    split at bound
    · cases bound
    · rename_i first found
      obtain ⟨bounds, later, made⟩ := bind_eq_ok.mp bound
      cases made
      rw [List.map_cons, List.map_cons, found, ih later]

end Literal

/-- A member is looked up in the struct that the subject is of. -/
theorem memberType_eq_ok {env : Env} {subject ty : Ty} {location : Location} {key : Ident}
    (found : memberType env subject location key = .ok ty) :
    ∃ name args nullable decl declared, subject = .app (.struct name) args nullable ∧
      env.types.structs.find? name = some decl ∧ decl.member? key.name = some declared ∧
      ty = declared.ty.substitute (bindPairs (decl.genericNames.zip args)) := by
  unfold memberType at found
  split at found
  · rename_i name args nullable
    split at found
    · cases found
    · rename_i decl listed
      split at found
      · cases found
      · rename_i declared member
        cases found
        exact ⟨name, args, nullable, decl, declared, rfl, listed, member, rfl⟩
  · cases found

/-- A case is one of a declared enum. -/
theorem enumCaseType_eq_ok {env : Env} {enumName : Option Ident} {case : Ident} {ty : Ty}
    (found : enumCaseType env enumName case = .ok ty) :
    ∃ decl, ty = .enum decl.name.name ∧
      ((∃ name, enumName = some name ∧ env.types.enums.find? name.name = some decl ∧
          decl.hasCase case.name = true) ∨
        (enumName = none ∧ env.types.enumWithCase? case.name = some decl)) := by
  unfold enumCaseType at found
  split at found
  · rename_i name
    split at found
    · cases found
    · rename_i decl listed
      split at found
      · rename_i has
        cases found
        exact ⟨decl, rfl, Or.inl ⟨name, rfl, listed, has⟩⟩
      · cases found
  · split at found
    · cases found
    · rename_i decl listed
      cases found
      exact ⟨decl, rfl, Or.inr ⟨rfl, listed⟩⟩

end DeclCheck
