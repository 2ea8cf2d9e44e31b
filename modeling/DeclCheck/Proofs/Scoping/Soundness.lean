import DeclCheck.Proofs.Scoping.Rules
import DeclCheck.Proofs.Walk.Stmt
import Mathlib.Data.List.Forall2

/-!
# Walks are scoped

A walk looks names up in its list of variables, the scoping rules in the list of introductions. The two lists
correspond entry by entry all along a walk, and no name is listed twice: from this a derivation of a walk is one of
the scoping rules. That the variables after a nested block are those before it is a fact about the walk itself, and
holds at every statement that a walk comes to.
-/

namespace DeclCheck

/-! ## Introductions and variables -/

/-- Whether an introduction is that of a variable. -/
structure Introduction.Of (introduction : Introduction) (var : LocalVariable) : Prop where
  name : introduction.name = var.name
  ty : introduction.ty? = some var.ty
  mutable : introduction.isMutable = var.mutable

/-- **Whether visible introductions are those of the visible variables**, whose names all differ. -/
structure Represents (visible : List Introduction) (vars : List LocalVariable) : Prop where
  each : List.Forall₂ Introduction.Of visible vars
  distinct : (vars.map (·.name)).Nodup

namespace Represents

variable {visible : List Introduction} {vars : List LocalVariable}

theorem nil : Represents [] [] := ⟨.nil, .nil⟩

/-- A variable of a new name represents its introduction. -/
theorem cons {introduction : Introduction} {var : LocalVariable} (represents : Represents visible vars)
    (of : introduction.Of var) (fresh : vars.find? (·.name == var.name) = none) :
    Represents (introduction :: visible) (var :: vars) := by
  refine ⟨.cons of represents.each, List.nodup_cons.mpr ⟨fun listed => ?_, represents.distinct⟩⟩
  obtain ⟨other, mem, same⟩ := List.mem_map.mp listed
  exact List.find?_eq_none.mp fresh other mem (beq_iff_eq.mpr same)

/-- A name that no variable has is not introduced. -/
theorem unseen {name : String} (represents : Represents visible vars)
    (fresh : vars.find? (·.name == name) = none) : Introduction.Unseen visible name := by
  intro introduction mem same
  obtain ⟨index, bound, rfl⟩ := List.getElem_of_mem mem
  have length := represents.each.length_eq
  have of := represents.each.get bound (length ▸ bound)
  refine List.find?_eq_none.mp fresh _ (List.getElem_mem (length ▸ bound)) (beq_iff_eq.mpr ?_)
  exact of.name.symm.trans same

/-- **A variable that is found is of the one introduction of its name.** -/
theorem isTheOne {name : String} {var : LocalVariable} (represents : Represents visible vars)
    (found : vars.find? (·.name == name) = some var) :
    ∃ introduction : Introduction, introduction.IsTheOne visible name ∧ introduction.Of var := by
  obtain ⟨each, distinct⟩ := represents
  induction each with
  | nil => cases found
  | @cons introduction first visible vars of rest ih =>
    obtain ⟨unlisted, distinctRest⟩ := List.nodup_cons.mp distinct
    by_cases here : first.name = name
    · -- the first variable is found, and no later one has its name
      rw [List.find?_cons_of_pos (by simpa using here)] at found
      cases found
      have fresh : vars.find? (·.name == name) = none := by
        refine List.find?_eq_none.mpr fun other mem same => unlisted ?_
        exact List.mem_map.mpr ⟨other, mem, (beq_iff_eq.mp same).trans here.symm⟩
      have gone : visible.filter (·.name == name) = [] :=
        List.filter_eq_nil_iff.mpr fun other mem same =>
          Represents.unseen ⟨rest, distinctRest⟩ fresh other mem (beq_iff_eq.mp same)
      refine ⟨introduction, ?_, of⟩
      have named : introduction.name = name := of.name.trans here
      rw [Introduction.IsTheOne, List.filter_cons_of_pos (by simpa using named), gone]
    · rw [List.find?_cons_of_neg (by simpa using here)] at found
      obtain ⟨one, isOne, ofOne⟩ := ih found distinctRest
      refine ⟨one, ?_, ofOne⟩
      have other : introduction.name ≠ name := fun same => here (of.name.symm.trans same)
      rw [Introduction.IsTheOne, List.filter_cons_of_neg (by simpa using other)]
      exact isOne

end Represents

variable {env : Env} {visible : List Introduction} {vars : List LocalVariable}

/-! ## Expressions -/

mutual

/-- **The walk of an expression leaves it scoped.** -/
theorem ExprWalk.scoped {before after : FunctionTable} {expr filled : Expr} {ty : Ty} :
    ExprWalk env vars before expr ty filled after → Represents visible vars → filled.Scoped visible
  | .mk walked, represents => walked.scoped represents

/-- Each kind of expression is scoped. -/
theorem KindWalk.scoped {before after : FunctionTable} {location : Location} {kind filled : ExprKind}
    {ty : Ty} :
    KindWalk env vars before location kind ty filled after → Represents visible vars →
    filled.Scoped visible (some ty)
  | .number, _ => trivial
  | .string, _ => trivial
  | .boolean, _ => trivial
  | .nil, _ => trivial
  | .variable found, represents => by
    obtain ⟨introduction, one, of⟩ := represents.isTheOne found
    exact ⟨introduction, _, one, of.ty, rfl⟩
  | .call walked, represents => walked.scoped represents
  | .list walked, represents => walked.scoped represents
  | .tuple walked, represents => walked.scoped represents
  | .object _ walked _, represents => walked.scoped represents
  | .access walked _, represents => walked.scoped represents
  | .enumCase _, _ => trivial

/-- A call is scoped in its arguments. -/
theorem CallWalk.scoped {before after : FunctionTable} {location : Location} {callee filled : Call Expr}
    {ty : Ty} :
    CallWalk env vars before location callee ty filled after → Represents visible vars →
    filled.Scoped visible
  | .mk walked _, represents => walked.scoped represents

/-- Several expressions are scoped. -/
theorem ExprsWalk.scoped {before after : FunctionTable} {exprs filled : List Expr} {types : List Ty} :
    ExprsWalk env vars before exprs types filled after → Represents visible vars →
    Expr.AllScoped visible filled
  | .nil, _ => trivial
  | .cons first rest, represents => ⟨first.scoped represents, rest.scoped represents⟩

/-- So are the elements of a list. -/
theorem ElementsWalk.scoped {before after : FunctionTable} {expected common : Option Ty} {position : Nat}
    {items filled : List Expr} :
    ElementsWalk env vars before expected position items common filled after → Represents visible vars →
    Expr.AllScoped visible filled
  | .nil, _ => trivial
  | .cons first _ rest, represents => ⟨first.scoped represents, rest.scoped represents⟩

/-- So are the members of a literal. -/
theorem MembersWalk.scoped {before after : FunctionTable} {literal complete : Literal}
    {members filled : List (MemberValue Expr)} :
    MembersWalk env vars before literal members complete filled after → Represents visible vars →
    Expr.MembersScoped visible filled
  | .nil, _ => trivial
  | .cons _ value _ rest, represents => ⟨value.scoped represents, rest.scoped represents⟩

end

/-! ## Statements -/

/-- The variable of a declaration is introduced by the target with its slots filled. -/
theorem Introduction.of_declaredType {target declared : Variable} {value ty : Ty} {location : Location}
    (typed : Check.declaredType env target value location = .ok (ty, declared)) :
    (Introduction.declaration declared).Of
      ⟨declared.name.name, ty, declared.mutable, declared.name.location⟩ := by
  rcases Check.declaredType_eq_ok typed with ⟨-, rfl, rfl⟩ | ⟨_, -, -, -, rfl⟩
  · exact ⟨rfl, rfl, rfl⟩
  · exact ⟨rfl, rfl, rfl⟩

/-- The variable of a loop is introduced by the iterator with its slot filled. -/
theorem Introduction.of_iterator (iterator : Variable) (element : Ty) :
    (Introduction.iterator { iterator with resolvedType := some element }).Of
      ⟨iterator.name.name, element, false, iterator.name.location⟩ :=
  ⟨rfl, rfl, rfl⟩

/-- An assignment is scoped, and a declaration adds its introduction. -/
theorem AssignmentWalk.scoped {before after : FunctionTable} {assigned filled : Assignment}
    {seen : List LocalVariable} (walked : AssignmentWalk env before vars assigned filled after seen)
    (represents : Represents visible vars) :
    filled.Scoped visible ∧ Represents ((Stmt.assignment filled).introduced ++ visible) seen := by
  cases walked with
  | declaration introduces value _ typed fresh =>
    simp only [Assignment.Scoped, Stmt.introduced, introduces, if_true]
    exact ⟨⟨value.scoped represents, represents.unseen fresh⟩,
      represents.cons (Introduction.of_declaredType typed) fresh⟩
  | reassignment rebinds value rebound =>
    obtain ⟨var, found, mutable, -, -, rfl⟩ := Check.rebindable_eq_ok rebound
    obtain ⟨introduction, one, of⟩ := represents.isTheOne found
    simp only [Assignment.Scoped, Stmt.introduced, rebinds, Bool.false_eq_true, if_false, List.nil_append]
    exact ⟨⟨value.scoped represents, introduction, var.ty, one, of.mutable.trans mutable, of.ty, rfl⟩,
      represents⟩

/-- The tests of a guard are scoped. -/
theorem GuardWalk.scoped {before after : FunctionTable} {tests filled : List GuardTerm}
    (walked : GuardWalk env vars before tests filled after) (represents : Represents visible vars) :
    GuardTerm.AllScoped visible filled := by
  induction walked with
  | nil =>
    intro term mem
    cases mem
  | cons test _ ih =>
    intro term mem
    rcases List.mem_cons.mp mem with rfl | later
    · exact test.scoped represents
    · exact ih term later

mutual

/-- **The walk of a statement leaves it scoped**, and goes on with what the statement introduces. -/
theorem StmtWalk.scoped {before after : FunctionTable} {visible : List Introduction}
    {vars seen : List LocalVariable} {stmt filled : Stmt} {returned : List (Ty × Location)} :
    StmtWalk env before vars stmt filled returned after seen → Represents visible vars →
    filled.Scoped visible ∧ Represents (filled.introduced ++ visible) seen
  | .assignment walked, represents => walked.scoped represents
  | .returnsNothing, represents => ⟨trivial, represents⟩
  | .returns walked, represents => ⟨walked.scoped represents, represents⟩
  | .call walked _, represents => ⟨walked.scoped represents, represents⟩
  | .branch walked, represents => ⟨walked.scoped represents, represents⟩
  | .forEach walked _ fresh block, represents => by
    refine ⟨⟨walked.scoped represents, represents.unseen fresh, block.scoped ?_⟩, represents⟩
    exact represents.cons (Introduction.of_iterator _ _) fresh
  | .whileTrue walked block, represents =>
    ⟨⟨walked.scoped represents, block.scoped represents⟩, represents⟩
  | .pass, represents => ⟨trivial, represents⟩
  | .hostCode, represents => ⟨trivial, represents⟩

/-- **The statements of a block are scoped**, each under the introductions before it. -/
theorem BlockWalk.scoped {before after : FunctionTable} {visible : List Introduction}
    {vars seen : List LocalVariable} {stmts filled : List Stmt} {returned : List (Ty × Location)} :
    BlockWalk env before vars stmts filled returned after seen → Represents visible vars →
    Stmt.BlockScoped visible filled
  | .nil, _ => trivial
  | .cons first rest, represents => by
    obtain ⟨firstScoped, later⟩ := first.scoped represents
    exact ⟨firstScoped, rest.scoped later⟩

/-- So are those of a branch. -/
theorem BranchWalk.scoped {before after : FunctionTable} {visible : List Introduction}
    {vars : List LocalVariable} {choice filled : Branch} {returned : List (Ty × Location)} :
    BranchWalk env before vars choice filled returned after → Represents visible vars →
    filled.Scoped visible
  | .last walked block, represents => ⟨walked.scoped represents, block.scoped represents⟩
  | .otherwise walked block rest, represents =>
    ⟨walked.scoped represents, block.scoped represents, rest.scoped represents⟩

end

end DeclCheck
