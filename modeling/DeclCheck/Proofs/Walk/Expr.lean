import DeclCheck.Proofs.Scopes
import DeclCheck.Proofs.Walk.Keeps

/-!
# The walk of an expression, as a derivation

`ExprWalk` says what a successful walk of an expression has found, one rule for each form of expression:
the expression as it was, its type, and the expression with its slots filled. The visible variables are
fixed, for no expression declares one. The function table is not: a derivation goes from the table before
the walk to the table after it, which differs from it by what the calls inside have added.

Walks that fail have no derivation, and nothing is said of their errors. `Proofs.Places.Walk` and `Proofs.Defects.Walk`
are about these.
-/

namespace DeclCheck

mutual

/-- **The walk of an expression**: the function table before it, the expression, its type, the expression
with its slots filled, and the function table after it. -/
inductive ExprWalk (env : Env) (visible : List LocalVariable) :
    FunctionTable → Expr → Ty → Expr → FunctionTable → Prop
  | mk {before after : FunctionTable} {kind filled : ExprKind} {slot : Option Ty} {ty : Ty}
      {location : Location} (walked : KindWalk env visible before location kind ty filled after) :
      ExprWalk env visible before (.mk kind slot location) ty (.mk filled (some ty) location) after

/-- The walk of what an expression is. The location is that of the expression. -/
inductive KindWalk (env : Env) (visible : List LocalVariable) :
    FunctionTable → Location → ExprKind → Ty → ExprKind → FunctionTable → Prop
  | number {functions : FunctionTable} {location : Location} {literal : String} :
      KindWalk env visible functions location (.number literal) (numberType literal)
        (.number literal) functions
  | string {functions : FunctionTable} {location : Location} {text : String} :
      KindWalk env visible functions location (.string text) (.builtin .string) (.string text) functions
  | boolean {functions : FunctionTable} {location : Location} {value : Bool} :
      KindWalk env visible functions location (.boolean value) .boolean (.boolean value) functions
  | nil {functions : FunctionTable} {location : Location} :
      KindWalk env visible functions location .nil .nil .nil functions
  | variable {functions : FunctionTable} {location : Location} {ident : Ident} {var : LocalVariable}
      (found : visible.find? (·.name == ident.name) = some var) :
      KindWalk env visible functions location (.variable ident) var.ty (.variable ident) functions
  | call {before after : FunctionTable} {location : Location} {callee filled : Call Expr} {ty : Ty}
      (walked : CallWalk env visible before location callee ty filled after) :
      KindWalk env visible before location (.call callee) ty (.call filled) after
  | list {before after : FunctionTable} {location : Location} {items filled : List Expr}
      {common : Option Ty} (walked : ElementsWalk env visible before none 1 items common filled after) :
      KindWalk env visible before location (.list items) (.list (common.getD .any)) (.list filled) after
  | tuple {before after : FunctionTable} {location : Location} {items filled : List Expr}
      {types : List Ty} (walked : ExprsWalk env visible before items types filled after) :
      KindWalk env visible before location (.tuple items) (.tuple types) (.tuple filled) after
  | object {before after : FunctionTable} {location : Location} {ctor ty : Ty}
      {members filled : List (MemberValue Expr)} {literal complete : Literal}
      (started : Literal.start env ctor location = .ok literal)
      (walked : MembersWalk env visible before literal members complete filled after)
      (finished : complete.finish location = .ok ty) :
      KindWalk env visible before location (.object ctor members) ty (.object ty filled) after
  | access {before after : FunctionTable} {location : Location} {subject filled : Expr} {key : Ident}
      {subjectType ty : Ty} (walked : ExprWalk env visible before subject subjectType filled after)
      (found : memberType env subjectType filled.location key = .ok ty) :
      KindWalk env visible before location (.access subject key) ty (.access filled key) after
  | enumCase {functions : FunctionTable} {location : Location} {enumName : Option Ident}
      {case : Ident} {ty : Ty} (found : enumCaseType env enumName case = .ok ty) :
      KindWalk env visible functions location (.enumCase enumName case) ty (.enumCase enumName case)
        functions

/-- The walk of a call: its arguments, then the choice of its overload. -/
inductive CallWalk (env : Env) (visible : List LocalVariable) :
    FunctionTable → Location → Call Expr → Ty → Call Expr → FunctionTable → Prop
  | mk {before between after : FunctionTable} {location : Location} {signature : Signature}
      {affix : Affix} {args filled : List Expr} {slot : Option Overload} {actuals : List Ty}
      {decl : FunctionDecl} (walked : ExprsWalk env visible before args actuals filled between)
      (bound : Overloading.resolve env.types.lattice between
        (.ofSignature signature filled.length) (signature.shown affix) actuals
        (location.orElse signature.location) = .ok (decl, after)) :
      CallWalk env visible before location ⟨signature, affix, args, slot⟩ decl.returnType
        ⟨signature, affix, filled, some ⟨decl.paramTypes, decl.returnType⟩⟩ after

/-- The walk of several expressions. -/
inductive ExprsWalk (env : Env) (visible : List LocalVariable) :
    FunctionTable → List Expr → List Ty → List Expr → FunctionTable → Prop
  | nil {functions : FunctionTable} : ExprsWalk env visible functions [] [] [] functions
  | cons {before between after : FunctionTable} {expr filled : Expr} {exprs filledRest : List Expr}
      {ty : Ty} {types : List Ty} (first : ExprWalk env visible before expr ty filled between)
      (rest : ExprsWalk env visible between exprs types filledRest after) :
      ExprsWalk env visible before (expr :: exprs) (ty :: types) (filled :: filledRest) after

/-- The walk of list elements from a position on, with the type expected of them if there is one, and
the type they share. -/
inductive ElementsWalk (env : Env) (visible : List LocalVariable) :
    FunctionTable → Option Ty → Nat → List Expr → Option Ty → List Expr → FunctionTable → Prop
  | nil {functions : FunctionTable} {expected : Option Ty} {position : Nat} :
      ElementsWalk env visible functions expected position [] expected [] functions
  | cons {before between after : FunctionTable} {expected common : Option Ty} {position : Nat}
      {item filled : Expr} {items filledRest : List Expr} {actual first : Ty}
      (walked : ExprWalk env visible before item actual filled between)
      (agreed : Check.commonType expected position actual filled.location = .ok first)
      (rest : ElementsWalk env visible between (some first) (position + 1) items common filledRest
        after) :
      ElementsWalk env visible before expected position (item :: items) common (filled :: filledRest)
        after

/-- The walk of the members of a struct literal, from what is known of the literal to what is known
after them. -/
inductive MembersWalk (env : Env) (visible : List LocalVariable) :
    FunctionTable → Literal → List (MemberValue Expr) → Literal → List (MemberValue Expr) →
    FunctionTable → Prop
  | nil {functions : FunctionTable} {literal : Literal} :
      MembersWalk env visible functions literal [] literal [] functions
  | cons {before between after : FunctionTable} {literal next complete : Literal} {member : Ident}
      {value filled : Expr} {members filledRest : List (MemberValue Expr)} {declared : Member}
      {actual : Ty} (claimed : literal.claim member = .ok declared)
      (walked : ExprWalk env visible before value actual filled between)
      (accepted : literal.accept env declared actual filled.location = .ok next)
      (rest : MembersWalk env visible between next members complete filledRest after) :
      MembersWalk env visible before literal (⟨member, value⟩ :: members) complete
        (⟨member, filled⟩ :: filledRest) after

end

/-! ## The function table along a derivation -/

section

variable {env : Env} {visible : List LocalVariable} {known : FunctionTable → Prop}

mutual

/-- **What calls keep of the function table, the walk of an expression keeps.** -/
theorem ExprWalk.keeps (kept : Check.KeptByCalls env.types.lattice known) {before after : FunctionTable}
    {expr filled : Expr} {ty : Ty} :
    ExprWalk env visible before expr ty filled after → known before → known after
  | .mk walked, holds => walked.keeps kept holds

/-- A walk of an expression keeps what calls keep, whatever its kind. -/
theorem KindWalk.keeps (kept : Check.KeptByCalls env.types.lattice known) {before after : FunctionTable}
    {location : Location} {kind filled : ExprKind} {ty : Ty} :
    KindWalk env visible before location kind ty filled after → known before → known after
  | .number, holds => holds
  | .string, holds => holds
  | .boolean, holds => holds
  | .nil, holds => holds
  | .variable _, holds => holds
  | .call walked, holds => walked.keeps kept holds
  | .list walked, holds => walked.keeps kept holds
  | .tuple walked, holds => walked.keeps kept holds
  | .object _ walked _, holds => walked.keeps kept holds
  | .access walked _, holds => walked.keeps kept holds
  | .enumCase _, holds => holds

/-- So does that of a call, arguments first. -/
theorem CallWalk.keeps (kept : Check.KeptByCalls env.types.lattice known) {before after : FunctionTable}
    {location : Location} {callee filled : Call Expr} {ty : Ty} :
    CallWalk env visible before location callee ty filled after → known before → known after
  | .mk walked bound, holds => kept _ _ _ _ _ _ _ (walked.keeps kept holds) bound

/-- So does that of several expressions. -/
theorem ExprsWalk.keeps (kept : Check.KeptByCalls env.types.lattice known) {before after : FunctionTable}
    {exprs filled : List Expr} {types : List Ty} :
    ExprsWalk env visible before exprs types filled after → known before → known after
  | .nil, holds => holds
  | .cons first rest, holds => rest.keeps kept (first.keeps kept holds)

/-- So does that of the elements of a list. -/
theorem ElementsWalk.keeps (kept : Check.KeptByCalls env.types.lattice known)
    {before after : FunctionTable} {expected common : Option Ty} {position : Nat}
    {items filled : List Expr} :
    ElementsWalk env visible before expected position items common filled after → known before →
    known after
  | .nil, holds => holds
  | .cons walked _ rest, holds => rest.keeps kept (walked.keeps kept holds)

/-- So does that of the members of a literal. -/
theorem MembersWalk.keeps (kept : Check.KeptByCalls env.types.lattice known)
    {before after : FunctionTable} {literal complete : Literal}
    {members filled : List (MemberValue Expr)} :
    MembersWalk env visible before literal members complete filled after → known before → known after
  | .nil, holds => holds
  | .cons _ walked _ rest, holds => rest.keeps kept (walked.keeps kept holds)

end

end

namespace Check

variable {env : Env} {before after : BodyState}

/-! ## Steps that succeed -/

/-- A variable that has a type is visible. -/
theorem variableType_eq_ok {ident : Ident} {ty : Ty}
    (reached : variableType ident before = .ok ty after) :
    ∃ var, before.scopes.visible.find? (·.name == ident.name) = some var ∧ ty = var.ty ∧
      after = before := by
  obtain ⟨state, between, read, found⟩ := step_bind_eq_ok.mp reached
  cases read
  cases looked : before.scopes.lookup? ident.name with
  | some var =>
    simp only [looked, step_pure_eq_ok] at found
    exact ⟨var, Scopes.lookup?_eq_find? _ _ ▸ looked, found⟩
  | none =>
    simp only [looked, decide_eq_ok, refuse, reduceCtorEq, false_and] at found

/-- A call that is bound changes the functions only. -/
theorem bindCall_eq_ok {key : FunctionKey} {signature : String} {actuals : List Ty}
    {location : Location} {decl : FunctionDecl}
    (reached : bindCall env key signature actuals location before = .ok decl after) :
    ∃ functions, Overloading.resolve env.types.lattice before.functions key signature actuals
      location = .ok (decl, functions) ∧ after = { before with functions } := by
  rw [bindCall_apply] at reached
  split at reached
  · rename_i found functions bound
    cases reached
    exact ⟨functions, bound, rfl⟩
  · cases reached

/-- An expression leaves all but the function table as it was. -/
theorem expr_frame {expr : Expr} {result : Ty × Expr}
    (reached : Check.expr env expr before = .ok result after) :
    after.scopes = before.scopes ∧ after.returns = before.returns :=
  (keeps_expr (callsKeep_frame before.scopes before.returns) expr).of_eq_ok ⟨rfl, rfl⟩ reached

/-! ## From walks to derivations -/

mutual

/-- **A successful walk of an expression has a derivation.** -/
theorem exprWalk :
    ∀ (expr : Expr) {before after : BodyState} {ty : Ty} {filled : Expr},
      Check.expr env expr before = .ok (ty, filled) after →
      ExprWalk env before.scopes.visible before.functions expr ty filled after.functions
  | .mk kind _ location, _, _, _, _, reached => by
    rw [Check.expr] at reached
    obtain ⟨⟨found, inner⟩, between, walked, made⟩ := step_bind_eq_ok.mp reached
    cases made
    exact .mk (kindWalk location kind walked)
termination_by structural expr => expr

/-- An expression that is checked is walked, whatever its kind. -/
theorem kindWalk (location : Location) :
    ∀ (kind : ExprKind) {before after : BodyState} {ty : Ty} {filled : ExprKind},
      Check.exprKind env location kind before = .ok (ty, filled) after →
      KindWalk env before.scopes.visible before.functions location kind ty filled after.functions
  | .number _, _, _, _, _, reached => by rw [Check.exprKind] at reached; cases reached; exact .number
  | .string _, _, _, _, _, reached => by rw [Check.exprKind] at reached; cases reached; exact .string
  | .boolean _, _, _, _, _, reached => by rw [Check.exprKind] at reached; cases reached; exact .boolean
  | .nil, _, _, _, _, reached => by rw [Check.exprKind] at reached; cases reached; exact .nil
  | .variable ident, _, _, _, _, reached => by
    rw [Check.exprKind] at reached
    obtain ⟨found, between, looked, made⟩ := step_bind_eq_ok.mp reached
    obtain ⟨var, visible, rfl, rfl⟩ := variableType_eq_ok looked
    cases made
    exact .variable visible
  | .call callee, _, _, _, _, reached => by
    rw [Check.exprKind] at reached
    obtain ⟨⟨found, inner⟩, between, walked, made⟩ := step_bind_eq_ok.mp reached
    cases made
    exact .call (callWalk location callee walked)
  | .list items, _, _, _, _, reached => by
    rw [Check.exprKind] at reached
    obtain ⟨⟨common, inner⟩, between, walked, made⟩ := step_bind_eq_ok.mp reached
    cases made
    exact .list (elementsWalk none 1 items walked)
  | .tuple items, _, _, _, _, reached => by
    rw [Check.exprKind] at reached
    obtain ⟨⟨types, inner⟩, between, walked, made⟩ := step_bind_eq_ok.mp reached
    cases made
    exact .tuple (exprsWalk items walked)
  | .object ctor members, _, _, _, _, reached => by
    rw [Check.exprKind] at reached
    obtain ⟨literal, begun, start, walk⟩ := step_bind_eq_ok.mp reached
    obtain ⟨started, rfl⟩ := decide_eq_ok.mp start
    obtain ⟨⟨complete, inner⟩, ended, walked, finish⟩ := step_bind_eq_ok.mp walk
    obtain ⟨found, closed, finishing, made⟩ := step_bind_eq_ok.mp finish
    obtain ⟨finished, rfl⟩ := decide_eq_ok.mp finishing
    cases made
    exact .object started (membersWalk literal members walked) finished
  | .access subject key, _, _, _, _, reached => by
    rw [Check.exprKind] at reached
    obtain ⟨⟨subjectType, inner⟩, between, walked, look⟩ := step_bind_eq_ok.mp reached
    obtain ⟨found, ended, looking, made⟩ := step_bind_eq_ok.mp look
    obtain ⟨looked, rfl⟩ := decide_eq_ok.mp looking
    cases made
    exact .access (exprWalk subject walked) looked
  | .enumCase enumName case, _, _, _, _, reached => by
    rw [Check.exprKind] at reached
    obtain ⟨found, ended, looking, made⟩ := step_bind_eq_ok.mp reached
    obtain ⟨looked, rfl⟩ := decide_eq_ok.mp looking
    cases made
    exact .enumCase looked
termination_by structural kind => kind

/-- So is a call. -/
theorem callWalk (location : Location) :
    ∀ (callee : Call Expr) {before after : BodyState} {ty : Ty} {filled : Call Expr},
      Check.call env location callee before = .ok (ty, filled) after →
      CallWalk env before.scopes.visible before.functions location callee ty filled after.functions
  | ⟨signature, affix, args, slot⟩, _, _, _, _, reached => by
    rw [Check.call] at reached
    obtain ⟨⟨actuals, inner⟩, between, walked, bind⟩ := step_bind_eq_ok.mp reached
    obtain ⟨decl, ended, binding, made⟩ := step_bind_eq_ok.mp bind
    obtain ⟨functions, bound, rfl⟩ := bindCall_eq_ok binding
    cases made
    exact .mk (exprsWalk args walked) bound
termination_by structural callee => callee

/-- So are several expressions. -/
theorem exprsWalk :
    ∀ (exprs : List Expr) {before after : BodyState} {types : List Ty} {filled : List Expr},
      Check.exprs env exprs before = .ok (types, filled) after →
      ExprsWalk env before.scopes.visible before.functions exprs types filled after.functions
  | [], _, _, _, _, reached => by rw [Check.exprs] at reached; cases reached; exact .nil
  | first :: rest, _, _, _, _, reached => by
    rw [Check.exprs] at reached
    obtain ⟨⟨ty, inner⟩, between, walked, later⟩ := step_bind_eq_ok.mp reached
    obtain ⟨⟨types, innerRest⟩, ended, walkedRest, made⟩ := step_bind_eq_ok.mp later
    obtain ⟨scopes, -⟩ := expr_frame walked
    cases made
    exact .cons (exprWalk first walked) (scopes ▸ exprsWalk rest walkedRest)
termination_by structural exprs => exprs

/-- So are the elements of a list. -/
theorem elementsWalk (expected : Option Ty) (position : Nat) :
    ∀ (items : List Expr) {before after : BodyState} {common : Option Ty} {filled : List Expr},
      Check.elements env expected position items before = .ok (common, filled) after →
      ElementsWalk env before.scopes.visible before.functions expected position items common filled
        after.functions
  | [], _, _, _, _, reached => by rw [Check.elements] at reached; cases reached; exact .nil
  | item :: rest, _, _, _, _, reached => by
    rw [Check.elements] at reached
    obtain ⟨⟨actual, inner⟩, between, walked, compare⟩ := step_bind_eq_ok.mp reached
    obtain ⟨first, compared, comparing, later⟩ := step_bind_eq_ok.mp compare
    obtain ⟨agreed, rfl⟩ := decide_eq_ok.mp comparing
    obtain ⟨⟨shared, innerRest⟩, ended, walkedRest, made⟩ := step_bind_eq_ok.mp later
    obtain ⟨scopes, -⟩ := expr_frame walked
    cases made
    exact .cons (exprWalk item walked) agreed
      (scopes ▸ elementsWalk (some first) (position + 1) rest walkedRest)
termination_by structural items => items

/-- So are the members of a literal. -/
theorem membersWalk (literal : Literal) :
    ∀ (members : List (MemberValue Expr)) {before after : BodyState} {complete : Literal}
      {filled : List (MemberValue Expr)},
      Check.memberValues env literal members before = .ok (complete, filled) after →
      MembersWalk env before.scopes.visible before.functions literal members complete filled
        after.functions
  | [], _, _, _, _, reached => by rw [Check.memberValues] at reached; cases reached; exact .nil
  | ⟨member, value⟩ :: rest, _, _, _, _, reached => by
    rw [Check.memberValues] at reached
    obtain ⟨declared, begun, claim, walk⟩ := step_bind_eq_ok.mp reached
    obtain ⟨claimed, rfl⟩ := decide_eq_ok.mp claim
    obtain ⟨⟨actual, inner⟩, between, walked, accept⟩ := step_bind_eq_ok.mp walk
    obtain ⟨next, taken, accepting, later⟩ := step_bind_eq_ok.mp accept
    obtain ⟨accepted, rfl⟩ := decide_eq_ok.mp accepting
    obtain ⟨⟨complete, innerRest⟩, ended, walkedRest, made⟩ := step_bind_eq_ok.mp later
    obtain ⟨scopes, -⟩ := expr_frame walked
    cases made
    exact .cons claimed (exprWalk value walked) accepted (scopes ▸ membersWalk next rest walkedRest)
termination_by structural members => members

end

end Check

end DeclCheck
