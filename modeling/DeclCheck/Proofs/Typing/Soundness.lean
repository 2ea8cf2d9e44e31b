import DeclCheck.Proofs.Literal
import DeclCheck.Proofs.Overloading.Choice
import DeclCheck.Proofs.Typing.Rules
import DeclCheck.Proofs.Walk.Stmt

/-!
# Walks are well typed

A derivation of a walk that starts from a table of overloads under their own keys is a derivation of the
typing rules. The keys matter for one thing: they make a bound overload take as many
parameters as the call has arguments.
-/

namespace DeclCheck

open FunctionTable (Keyed)

variable {env : Env} {visible : List LocalVariable}

/-- Calls keep every overload under its own key. -/
theorem keptByCalls_keyed (lattice : Lattice) : Check.KeptByCalls lattice Keyed :=
  fun _ _ _ _ _ _ _ keyed bound => Overloading.keyed_resolve keyed bound

/-! ## Expressions -/

/-- A variable that is found is visible under its name. -/
theorem mem_of_visible {name : String} {var : LocalVariable}
    (found : visible.find? (·.name == name) = some var) : var ∈ visible ∧ var.name = name :=
  ⟨List.mem_of_find?_eq_some found, by simpa using List.find?_some found⟩

/-- Elements that agree have the type of the first. -/
theorem commonType_some_eq_ok {first actual common : Ty} {position : Nat} {location : Location}
    (agreed : Check.commonType (some first) position actual location = .ok common) :
    common = first ∧ actual.equals first = true := by
  simp only [Check.commonType] at agreed
  split at agreed
  · rename_i same
    cases agreed
    exact ⟨rfl, Ty.equals_comm first actual ▸ same⟩
  · cases agreed

/-- There are as many walked expressions as types. -/
theorem ExprsWalk.length_eq {before after : FunctionTable} {exprs filled : List Expr}
    {types : List Ty} (walked : ExprsWalk env visible before exprs types filled after) :
    filled.length = types.length := by
  induction exprs generalizing before types filled with
  | nil => cases walked; rfl
  | cons expr rest ih =>
    cases walked with
    | cons _ later => rw [List.length_cons, List.length_cons, ih later]

/-- The members leave the struct of a literal as it is. -/
theorem MembersWalk.decl_eq {before after : FunctionTable} {literal complete : Literal}
    {members filled : List (MemberValue Expr)}
    (walked : MembersWalk env visible before literal members complete filled after) :
    complete.name = literal.name ∧ complete.decl = literal.decl := by
  induction members generalizing before literal filled with
  | nil => cases walked; exact ⟨rfl, rfl⟩
  | cons given rest ih =>
    cases walked with
    | cons _ _ accepted later =>
      obtain ⟨-, taken⟩ := Literal.accept_eq_ok accepted
      obtain ⟨name, decl⟩ := ih later
      rw [name, decl, taken]
      exact ⟨rfl, rfl⟩

mutual

/-- **The walk of an expression gives it a type by the rules.** -/
theorem ExprWalk.typed {before after : FunctionTable} {expr filled : Expr} {ty : Ty} :
    ExprWalk env visible before expr ty filled after → before.Keyed →
    Expr.Typed env.types visible filled ty
  | .mk walked, keyed => .mk (walked.typed keyed)

/-- Each kind of expression is right by its rule. -/
theorem KindWalk.typed {before after : FunctionTable} {location : Location} {kind filled : ExprKind}
    {ty : Ty} :
    KindWalk env visible before location kind ty filled after → before.Keyed →
    ExprKind.Typed env.types visible filled ty
  | .number, _ => .number
  | .string, _ => .string
  | .boolean, _ => .boolean
  | .nil, _ => .nil
  | .variable found, _ => by
    obtain ⟨mem, named⟩ := mem_of_visible found
    exact .variable mem named
  | .call walked, keyed => by
    obtain ⟨overload, rfl, typed⟩ := walked.typed keyed
    exact .call typed
  | .list .nil, _ => .emptyList
  | .list (.cons walked agreed rest), keyed => by
    have first := walked.typed keyed
    have later := rest.typed (walked.keeps (keptByCalls_keyed _) keyed)
    cases agreed
    obtain ⟨rfl, itemTypes, typed, same⟩ := later _ rfl
    exact .list first typed same
  | .tuple walked, keyed => .tuple (walked.typed keyed)
  | .object started walked finished, keyed => by
    obtain ⟨valueTypes, typed⟩ := walked.typed keyed
    obtain ⟨declared, -⟩ := Literal.start_eq_ok started
    obtain ⟨name, decl⟩ := walked.decl_eq
    obtain ⟨args, bound, rfl⟩ := Literal.finish_eq_ok finished
    have arity := congrArg List.length (Literal.boundArgs_eq_ok bound)
    simp only [List.length_map, StructDecl.genericNames, decl] at arity
    exact .object (name ▸ declared) arity.symm typed
  | .access walked found, keyed => by
    have subject := walked.typed keyed
    obtain ⟨name, args, nullable, decl, declared, rfl, listed, member, rfl⟩ := memberType_eq_ok found
    exact .access subject listed member
  | .enumCase found, _ => by
    obtain ⟨decl, rfl, ⟨name, rfl, listed, has⟩ | ⟨rfl, first⟩⟩ := enumCaseType_eq_ok found
    · exact .caseOf listed has
    · exact .caseAlone first

/-- A call is right: its overload takes its arguments, and its type is what that returns. -/
theorem CallWalk.typed {before after : FunctionTable} {location : Location}
    {callee filled : Call Expr} {ty : Ty} :
    CallWalk env visible before location callee ty filled after → before.Keyed →
    ∃ overload, ty = overload.returnType ∧ Call.Typed env.types visible filled overload
  | .mk walked bound, keyed => by
    refine ⟨⟨_, _⟩, rfl, .mk (walked.typed keyed) ?_⟩
    exact Overloading.resolve_conforms (walked.keeps (keptByCalls_keyed _) keyed) walked.length_eq bound

/-- Several expressions are right, each with its type. -/
theorem ExprsWalk.typed {before after : FunctionTable} {exprs filled : List Expr} {types : List Ty} :
    ExprsWalk env visible before exprs types filled after → before.Keyed →
    ExprsTyped env.types visible filled types
  | .nil, _ => .nil
  | .cons first rest, keyed =>
    .cons (first.typed keyed) (rest.typed (first.keeps (keptByCalls_keyed _) keyed))

/-- The elements of a list are right, and have the type of the first. -/
theorem ElementsWalk.typed {before after : FunctionTable} {expected common : Option Ty}
    {position : Nat} {items filled : List Expr} :
    ElementsWalk env visible before expected position items common filled after → before.Keyed →
    ∀ first, expected = some first → common = some first ∧
      ∃ itemTypes, ExprsTyped env.types visible filled itemTypes ∧
        ∀ other ∈ itemTypes, other.equals first = true
  | .nil, _, _, known => ⟨known, [], .nil, fun _ mem => by cases mem⟩
  | .cons walked agreed rest, keyed, first, known => by
    have item := walked.typed keyed
    have later := rest.typed (walked.keeps (keptByCalls_keyed _) keyed)
    subst known
    obtain ⟨rfl, same⟩ := commonType_some_eq_ok agreed
    obtain ⟨shared, itemTypes, typed, all⟩ := later _ rfl
    refine ⟨shared, _ :: itemTypes, .cons item typed, fun other mem => ?_⟩
    rcases List.mem_cons.mp mem with rfl | later
    · exact same
    · exact all other later

/-- The members of a literal are right, and their values are taken. -/
theorem MembersWalk.typed {before after : FunctionTable} {literal complete : Literal}
    {members filled : List (MemberValue Expr)} :
    MembersWalk env visible before literal members complete filled after → before.Keyed →
    ∃ valueTypes, ExprsTyped env.types visible (filled.map (·.value)) valueTypes
  | .nil, _ => ⟨[], .nil⟩
  | .cons _ walked _ rest, keyed => by
    obtain ⟨valueTypes, typed⟩ := rest.typed (walked.keeps (keptByCalls_keyed _) keyed)
    exact ⟨_ :: valueTypes, .cons (walked.typed keyed) typed⟩

end

/-! ## Statements -/

/-- What may be assigned is taken. -/
theorem takes_of_assignable {name : String} {expected actual : Ty} {location : Location}
    (taken : Check.assignable env name expected actual location = .ok ()) :
    env.types.lattice.Takes expected actual := by
  simp only [Check.assignable, Bool.and_eq_true, Bool.not_eq_true'] at taken
  unfold Lattice.Takes
  split at taken
  · rename_i nil
    rw [if_pos nil.1]
    split at taken
    · rename_i nullable
      exact Or.inr nullable
    · cases taken
  · rename_i other
    split at taken
    · rename_i subtype
      split
      · rename_i nil
        refine Or.inl (Bool.not_eq_false _ |>.mp fun unlike => other ⟨nil, unlike⟩)
      · exact subtype
    · cases taken

/-- An assignment is right, and declares what its rule says. -/
theorem AssignmentWalk.typed {before after : FunctionTable} {assigned filled : Assignment}
    {seen : List LocalVariable} (walked : AssignmentWalk env before visible assigned filled after seen)
    (keyed : before.Keyed) : Assignment.Typed env.types visible filled seen := by
  cases walked with
  | declaration introduces value valued typed fresh =>
    rcases Check.declaredType_eq_ok typed with
      ⟨unwritten, rfl, rfl⟩ | ⟨written, given, resolved, taken, rfl⟩
    · rw [introduces]
      exact .inferred (value.typed keyed) valued unwritten rfl
    · rw [introduces]
      exact .declared (value.typed keyed) valued rfl (takes_of_assignable taken) rfl
  | reassignment rebinds value rebound =>
    obtain ⟨var, found, mutable, valued, taken, rfl⟩ := Check.rebindable_eq_ok rebound
    obtain ⟨mem, named⟩ := mem_of_visible found
    rw [rebinds]
    exact .reassigned mem named mutable (value.typed keyed) valued (takes_of_assignable taken) rfl

/-- The tests of a guard are right, whatever their types. -/
theorem GuardWalk.typed {before after : FunctionTable} {tests filled : List GuardTerm}
    (walked : GuardWalk env visible before tests filled after) (keyed : before.Keyed) :
    GuardTyped env.types visible filled := by
  induction walked with
  | nil => exact ⟨[], .nil⟩
  | cons test _ ih =>
    obtain ⟨testTypes, typed⟩ := ih (test.keeps (keptByCalls_keyed _) keyed)
    exact ⟨_ :: testTypes, .cons (test.typed keyed) typed⟩

mutual

/-- **The walk of a statement makes it right**, if what it returns may be returned. -/
theorem StmtWalk.typed {before after : FunctionTable} {visible seen : List LocalVariable}
    {stmt filled : Stmt} {returned : List (Ty × Location)} {expected : Option Ty} :
    StmtWalk env before visible stmt filled returned after seen → before.Keyed →
    (∀ entry ∈ returned, Returnable expected entry.1) →
    Stmt.Typed env.types expected visible filled seen
  | .assignment walked, keyed, _ => .assignment (walked.typed keyed)
  | .returnsNothing, _, allowed => .returnsNothing (allowed _ List.mem_cons_self)
  | .returns walked, keyed, allowed => .returns (walked.typed keyed) (allowed _ List.mem_cons_self)
  | .call walked void, keyed, _ => by
    obtain ⟨overload, rfl, typed⟩ := walked.typed keyed
    exact .call typed void
  | .branch walked, keyed, allowed => .branch (walked.typed keyed allowed)
  | .forEach walked iterates _ block, keyed, allowed => by
    have body := block.typed (walked.keeps (keptByCalls_keyed _) keyed) allowed
    obtain ⟨args, nullable, rfl, rfl⟩ := Check.elementType_eq_ok iterates
    exact .forEach (walked.typed keyed) rfl body
  | .whileTrue walked block, keyed, allowed =>
    .whileTrue (walked.typed keyed)
      (block.typed (walked.keeps (keptByCalls_keyed _) keyed) allowed)
  | .pass, _, _ => .pass
  | .hostCode, _, _ => .hostCode

/-- **The statements of a block are right**, each with what is visible before it. -/
theorem BlockWalk.typed {before after : FunctionTable} {visible seen : List LocalVariable}
    {stmts filled : List Stmt} {returned : List (Ty × Location)} {expected : Option Ty} :
    BlockWalk env before visible stmts filled returned after seen → before.Keyed →
    (∀ entry ∈ returned, Returnable expected entry.1) →
    BlockTyped env.types expected visible filled seen
  | .nil, _, _ => .nil
  | .cons first rest, keyed, allowed =>
    .cons (first.typed keyed fun entry mem => allowed entry (List.mem_append_left _ mem))
      (rest.typed (first.keeps (keptByCalls_keyed _) keyed) fun entry mem =>
        allowed entry (List.mem_append_right _ mem))

/-- So are those of a branch. -/
theorem BranchWalk.typed {before after : FunctionTable} {visible : List LocalVariable}
    {choice filled : Branch} {returned : List (Ty × Location)} {expected : Option Ty} :
    BranchWalk env before visible choice filled returned after → before.Keyed →
    (∀ entry ∈ returned, Returnable expected entry.1) →
    Branch.Typed env.types expected visible filled
  | .last walked block, keyed, allowed =>
    .last (walked.typed keyed) (block.typed (walked.keeps (keptByCalls_keyed _) keyed) allowed)
  | .otherwise walked block rest, keyed, allowed => by
    have inner := walked.keeps (keptByCalls_keyed _) keyed
    exact .otherwise (walked.typed keyed)
      (block.typed inner fun entry mem => allowed entry (List.mem_append_left _ mem))
      (rest.typed (block.keeps (keptByCalls_keyed _) inner) fun entry mem =>
        allowed entry (List.mem_append_right _ mem))

end

end DeclCheck
