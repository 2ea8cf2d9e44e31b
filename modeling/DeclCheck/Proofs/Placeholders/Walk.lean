import DeclCheck.Proofs.Literal
import DeclCheck.Proofs.Overloading.Choice
import DeclCheck.Proofs.Placeholders.Notes
import DeclCheck.Proofs.Ty.Placeholders
import DeclCheck.Proofs.Walk.Stmt

/-!
# Where the placeholders in a body come from

A walk is followed with the placeholders that are *allowed* in it: those of its declaration, and whatever leaks
at some place of the body. Then every type that is found along the way is within the allowed names. For calls
this rests on a property of the function table: no overload returns a placeholder that its parameter types do
not mention.
-/

namespace DeclCheck

/-! ## What the function table promises -/

/-- Whether every placeholder of the return type is one of some parameter type. -/
def FunctionDecl.ReturnsMentioned (decl : FunctionDecl) : Prop :=
  ∀ name ∈ decl.returnType.genericNames, ∃ param ∈ decl.paramTypes, name ∈ param.genericNames

/-- **Whether no overload returns a placeholder that its parameters do not mention.** -/
def FunctionTable.ReturnsMentioned (functions : FunctionTable) : Prop :=
  functions.Every fun _ decl => decl.ReturnsMentioned

namespace Overloading

/-- A specialisation promises what the candidate does: replacing placeholders brings into the return type no name
that it does not bring into a parameter type. -/
theorem returnsMentioned_substituted {decl : FunctionDecl} (promise : decl.ReturnsMentioned)
    (bindings : Bindings) : (substituted decl bindings).ReturnsMentioned := by
  intro name mem
  obtain ⟨placeholder, returned, brought⟩ := (Ty.mem_genericNames_substitute decl.returnType).mp mem
  obtain ⟨param, listed, mentioned⟩ := promise placeholder returned
  refine ⟨param.substitute bindings, ?_, ?_⟩
  · obtain ⟨source, inside, rfl⟩ := List.mem_map.mp listed
    simp only [substituted, FunctionDecl.paramTypes, List.map_map, List.mem_map]
    exact ⟨source, inside, rfl⟩
  · exact (Ty.mem_genericNames_substitute param).mpr ⟨placeholder, mentioned, brought⟩

/-- Calls keep the promise that results mention only what parameters do. -/
theorem returnsMentioned_keptByCalls (lattice : Lattice) :
    Check.KeptByCalls lattice FunctionTable.ReturnsMentioned := by
  intro functions key signature actuals location decl after promise bound
  refine every_resolve promise (fun candidate made known special => ?_) bound
  rw [specialise_eq_ok special]
  exact returnsMentioned_substituted known _

/-- The overload that a call is bound to keeps it. -/
theorem returnsMentioned_resolve {lattice : Lattice} {functions after : FunctionTable} {key : FunctionKey}
    {signature : String} {actuals : List Ty} {location : Location} {decl : FunctionDecl}
    (promise : functions.ReturnsMentioned)
    (bound : resolve lattice functions key signature actuals location = .ok (decl, after)) :
    decl.ReturnsMentioned := by
  rcases resolve_listed_or_specialised bound with ⟨listed, -⟩ | ⟨candidate, listed, -, special, -⟩
  · exact promise.of_mem listed
  · rw [specialise_eq_ok special]
    exact returnsMentioned_substituted (promise.of_mem listed) _

end Overloading

/-! ## What a walk allows -/

/-- Whether all that leaks at some places is allowed. -/
def Note.Covered (types : TypeTable) (allowed : String → Prop) (notes : List Note) : Prop :=
  ∀ note ∈ notes, ∀ name, note.Leaks types name → allowed name

/-- Whether all types noted at some places are within the allowed names. -/
def Note.Within (allowed : String → Prop) (notes : List Note) : Prop :=
  ∀ ty, .typed ty ∈ notes → ty.Within allowed

/-- Whether all visible variables are of types within the allowed names. -/
def LocalVariable.AllWithin (allowed : String → Prop) (visible : List LocalVariable) : Prop :=
  ∀ var ∈ visible, var.ty.Within allowed

section

variable {types : TypeTable} {allowed : String → Prop} {first second : List Note} {ty : Ty}

/-- Notes are covered part by part. -/
@[simp] theorem Note.covered_append :
    Note.Covered types allowed (first ++ second) ↔
      Note.Covered types allowed first ∧ Note.Covered types allowed second :=
  List.forall_mem_append

/-- So do notes stay within what is allowed. -/
@[simp] theorem Note.within_append :
    Note.Within allowed (first ++ second) ↔ Note.Within allowed first ∧ Note.Within allowed second := by
  simp only [Note.Within, List.mem_append]
  constructor
  · intro all
    exact ⟨fun ty mem => all ty (Or.inl mem), fun ty mem => all ty (Or.inr mem)⟩
  · rintro ⟨one, two⟩ ty (mem | mem)
    · exact one ty mem
    · exact two ty mem

/-- No notes need nothing. -/
theorem Note.within_nil : Note.Within allowed [] := fun _ mem => by cases mem

/-- A type that stays within what is allowed may be noted. -/
theorem Note.within_typed (within : ty.Within allowed) :
    Note.Within allowed ((some ty).toList.map .typed) := by
  intro other mem
  cases List.mem_singleton.mp mem
  exact within

/-- A variable of such a type may be declared. -/
theorem LocalVariable.AllWithin.cons {visible : List LocalVariable} {var : LocalVariable}
    (seen : AllWithin allowed visible) (within : var.ty.Within allowed) :
    AllWithin allowed (var :: visible) :=
  List.forall_mem_cons.mpr ⟨within, seen⟩

end

/-! ## Struct literals and members -/

section

variable {allowed : String → Prop}

/-- Written arguments bind placeholders to types of their own. -/
theorem within_bindPairs {names : List String} {args : List Ty} (within : ∀ arg ∈ args, arg.Within allowed) :
    Bindings.Within allowed (bindPairs (names.zip args)) := by
  refine List.foldlRecOn _ _ Bindings.within_empty fun bound known pair mem => ?_
  exact Dict.Every.insert known (within _ (List.of_mem_zip mem).2)

/-- Of two bindings each stays within what is allowed, so both together do. -/
theorem within_bindMissing {bindings found : Bindings} (known : bindings.Within allowed)
    (new : found.Within allowed) : Bindings.Within allowed (bindMissing bindings found) := by
  refine List.foldlRecOn _ _ known fun bound held pair mem => ?_
  exact Dict.Every.insertNew held (new pair mem)

/-- The names that are paired with arguments are the first ones. -/
theorem map_fst_zip_eq_take (names : List String) (args : List Ty) :
    (names.zip args).map Prod.fst = names.take args.length := by
  induction names generalizing args with
  | nil => simp
  | cons name rest ih =>
    cases args with
    | nil => rfl
    | cons arg args => simp [ih]

/-- Pairs bind the names of all of them. -/
theorem find?_foldl_insert_eq_none {name : String} (pairs : List (String × Ty)) {bindings : Bindings}
    (unbound : (pairs.foldl (fun bindings pair => bindings.insert pair.1 pair.2) bindings).find? name =
      none) : bindings.find? name = none ∧ name ∉ pairs.map Prod.fst := by
  induction pairs generalizing bindings with
  | nil => exact ⟨unbound, List.not_mem_nil⟩
  | cons pair rest ih =>
    obtain ⟨before, later⟩ := ih unbound
    rw [Dict.find?_insert] at before
    split at before
    · cases before
    · rename_i different
      refine ⟨before, fun mem => ?_⟩
      rcases List.mem_cons.mp mem with same | last
      · exact different same
      · exact later last

/-- A name that is not bound is none of those that have an argument. -/
theorem not_mem_take_of_find? {names : List String} {args : List Ty} {name : String}
    (unbound : (bindPairs (names.zip args)).find? name = none) : name ∉ names.take args.length := by
  rw [← map_fst_zip_eq_take]
  exact (find?_foldl_insert_eq_none _ unbound).2

namespace Literal

variable {env : Env} {literal next : Literal} {location : Location} {ty : Ty}

/-- A literal begins with bindings that mention only the placeholders in scope. -/
theorem within_start (own : ∀ name ∈ env.generics, allowed name) {ctor : Ty}
    (started : start env ctor location = .ok literal) : literal.bindings.Within allowed := by
  obtain ⟨-, args, resolved, bindings⟩ := start_eq_ok started
  rw [bindings]
  refine within_bindPairs fun arg mem name mentioned => own name ?_
  exact TypeTable.within_of_resolveAll _ resolved arg mem name mentioned

/-- A value of such a type keeps them so. -/
theorem within_accept (known : literal.bindings.Within allowed) {declared : Member} {actual : Ty}
    (within : actual.Within allowed) (accepted : literal.accept env declared actual location = .ok next) :
    next.bindings.Within allowed := by
  obtain ⟨-, rfl⟩ := accept_eq_ok accepted
  show Bindings.Within allowed (literal.bindingsAfter declared actual)
  unfold bindingsAfter
  split
  · exact known
  · exact within_bindMissing known (Ty.within_bind declared.ty Bindings.within_empty within)

/-- So the literal has such a type. -/
theorem within_finish (known : literal.bindings.Within allowed)
    (finished : literal.finish location = .ok ty) : ty.Within allowed := by
  obtain ⟨args, bound, rfl⟩ := finish_eq_ok finished
  refine Ty.within_app.mpr fun arg mem => ?_
  have listed : some arg ∈ literal.decl.genericNames.map literal.bindings.find? := by
    rw [boundArgs_eq_ok bound]
    exact List.mem_map.mpr ⟨arg, mem, rfl⟩
  obtain ⟨name, -, found⟩ := List.mem_map.mp listed
  exact Dict.Every.of_find? known found

end Literal

/-- **A member mentions what the arguments of its struct mention**, and placeholders that these leave open. -/
theorem within_memberType {env : Env} {subject ty : Ty} {location : Location} {key : Ident}
    (within : subject.Within allowed)
    (left : ∀ name, subject.LeavesOpen env.types key name → allowed name)
    (found : memberType env subject location key = .ok ty) : ty.Within allowed := by
  obtain ⟨struct, args, nullable, decl, declared, rfl, listed, member, rfl⟩ := memberType_eq_ok found
  intro name mem
  obtain ⟨placeholder, mentioned, brought⟩ := (Ty.mem_genericNames_substitute declared.ty).mp mem
  rcases brought with ⟨bound, given, inside⟩ | ⟨unbound, rfl⟩
  · have bindings : Bindings.Within allowed (bindPairs (decl.genericNames.zip args)) :=
      within_bindPairs (Ty.within_app.mp within)
    exact Dict.Every.of_find? bindings given name inside
  · have absent := not_mem_take_of_find? unbound
    exact left name ⟨struct, args, nullable, decl, declared, rfl, listed, member, mentioned, absent⟩

end

/-! ## Expressions -/

/-- The types of numbers mention no placeholder. -/
theorem within_numberType {allowed : String → Prop} (literal : String) :
    (numberType literal).Within allowed := by
  unfold numberType
  split <;> exact Ty.within_builtin _

/-- The type that elements have in common is one of theirs. -/
theorem within_commonType {allowed : String → Prop} {expected : Option Ty} {actual common : Ty}
    {position : Nat} {location : Location} (known : ∀ first, expected = some first → first.Within allowed)
    (within : actual.Within allowed)
    (agreed : Check.commonType expected position actual location = .ok common) : common.Within allowed := by
  cases expected with
  | none => cases agreed; exact within
  | some first =>
    simp only [Check.commonType] at agreed
    split at agreed
    · cases agreed; exact known _ rfl
    · cases agreed

section

variable {env : Env} {visible : List LocalVariable}

/-- The type of a walked expression is noted in it. -/
theorem ExprWalk.ty_eq {before after : FunctionTable} {expr filled : Expr} {ty : Ty}
    (walked : ExprWalk env visible before expr ty filled after) : filled.ty = some ty := by
  cases walked
  rfl

/-- The types of several walked expressions are those noted in them. -/
theorem ExprsWalk.filterMap_ty {exprs filled : List Expr} {types : List Ty} :
    ∀ {before after : FunctionTable}, ExprsWalk env visible before exprs types filled after →
      filled.filterMap Expr.ty = types
  | _, _, .nil => rfl
  | _, _, .cons first rest => by rw [List.filterMap_cons_some first.ty_eq, rest.filterMap_ty]

end

section

variable {env : Env} {visible : List LocalVariable} {allowed : String → Prop}

mutual

/-- **The walk of an expression finds a type within the allowed names**, and notes only such types. -/
theorem ExprWalk.within (own : ∀ name ∈ env.generics, allowed name)
    (seen : LocalVariable.AllWithin allowed visible) {before after : FunctionTable}
    {expr filled : Expr} {ty : Ty} :
    ExprWalk env visible before expr ty filled after → before.ReturnsMentioned →
    Note.Covered env.types allowed filled.notes →
    ty.Within allowed ∧ Note.Within allowed filled.notes
  | .mk walked, known, covered => by
    simp only [Expr.notes, Note.covered_append] at covered
    obtain ⟨within, noted⟩ := walked.within own seen known covered.2
    simp only [Expr.notes, Note.within_append]
    exact ⟨within, Note.within_typed within, noted⟩

/-- For each kind of expression the type, and all that is noted, stays within what is allowed. -/
theorem KindWalk.within (own : ∀ name ∈ env.generics, allowed name)
    (seen : LocalVariable.AllWithin allowed visible) {before after : FunctionTable}
    {location : Location} {kind filled : ExprKind} {ty : Ty} :
    KindWalk env visible before location kind ty filled after → before.ReturnsMentioned →
    Note.Covered env.types allowed filled.notes →
    ty.Within allowed ∧ Note.Within allowed filled.notes
  | .number, _, _ => ⟨within_numberType _, Note.within_nil⟩
  | .string, _, _ => ⟨Ty.within_builtin _, Note.within_nil⟩
  | .boolean, _, _ => ⟨Ty.within_enum _, Note.within_nil⟩
  | .nil, _, _ => ⟨Ty.within_enum _, Note.within_nil⟩
  | .variable found, _, _ => ⟨seen _ (List.mem_of_find?_eq_some found), Note.within_nil⟩
  | .call walked, known, covered => walked.within own seen known covered
  | .list walked, known, covered => by
    obtain ⟨within, noted⟩ := walked.within own seen known (fun _ none => by cases none) covered
    refine ⟨Ty.within_app.mpr fun arg mem => ?_, noted⟩
    rename_i common
    rw [List.mem_singleton.mp mem]
    cases common with
    | none => exact Ty.within_builtin _
    | some first => exact within first rfl
  | .tuple walked, known, covered => by
    obtain ⟨within, noted⟩ := walked.within own seen known covered
    exact ⟨Ty.within_app.mpr within, noted⟩
  | .object started walked finished, known, covered => by
    obtain ⟨bindings, noted⟩ :=
      walked.within own seen known (Literal.within_start own started) covered
    exact ⟨Literal.within_finish bindings finished, noted⟩
  | .access walked found, known, covered => by
    simp only [ExprKind.notes, walked.ty_eq, Note.covered_append] at covered
    obtain ⟨within, noted⟩ := walked.within own seen known covered.2
    have left := covered.1 _ List.mem_cons_self
    refine ⟨within_memberType within left found, ?_⟩
    simp only [ExprKind.notes, walked.ty_eq, Note.within_append]
    exact ⟨fun ty mem => (by cases List.mem_singleton.mp mem), noted⟩
  | .enumCase found, _, _ => by
    obtain ⟨decl, rfl, -⟩ := enumCaseType_eq_ok found
    exact ⟨Ty.within_enum _, Note.within_nil⟩

/-- The type of a call mentions only placeholders that the types of its arguments mention. -/
theorem CallWalk.within (own : ∀ name ∈ env.generics, allowed name)
    (seen : LocalVariable.AllWithin allowed visible) {before after : FunctionTable}
    {location : Location} {callee filled : Call Expr} {ty : Ty} :
    CallWalk env visible before location callee ty filled after → before.ReturnsMentioned →
    Note.Covered env.types allowed filled.notes →
    ty.Within allowed ∧ Note.Within allowed filled.notes
  | .mk walked bound, known, covered => by
    simp only [Call.notes, Note.covered_append, walked.filterMap_ty] at covered
    obtain ⟨within, noted⟩ := walked.within own seen known covered.2
    have between := walked.keeps (Overloading.returnsMentioned_keptByCalls _) known
    have promise := Overloading.returnsMentioned_resolve between bound
    refine ⟨fun name mem => ?_, ?_⟩
    · rename_i actuals _
      by_cases given : ∃ actual ∈ actuals, name ∈ actual.genericNames
      · obtain ⟨actual, listed, mentioned⟩ := given
        exact within actual listed name mentioned
      · have absent : ∀ actual ∈ actuals, name ∉ actual.genericNames :=
          fun actual listed mentioned => given ⟨actual, listed, mentioned⟩
        exact covered.1 _ List.mem_cons_self name ⟨mem, promise name mem, absent⟩
    · simp only [Call.notes, Note.within_append]
      exact ⟨fun ty mem => (by cases List.mem_singleton.mp mem), noted⟩

/-- The same for several expressions. -/
theorem ExprsWalk.within (own : ∀ name ∈ env.generics, allowed name)
    (seen : LocalVariable.AllWithin allowed visible) {before after : FunctionTable}
    {exprs filled : List Expr} {found : List Ty} :
    ExprsWalk env visible before exprs found filled after → before.ReturnsMentioned →
    Note.Covered env.types allowed (Expr.allNotes filled) →
    (∀ ty ∈ found, ty.Within allowed) ∧ Note.Within allowed (Expr.allNotes filled)
  | .nil, _, _ => ⟨fun _ mem => (by cases mem), Note.within_nil⟩
  | .cons first rest, known, covered => by
    simp only [Expr.allNotes, Note.covered_append] at covered
    obtain ⟨within, noted⟩ := first.within own seen known covered.1
    have between := first.keeps (Overloading.returnsMentioned_keptByCalls _) known
    obtain ⟨withinRest, notedRest⟩ := rest.within own seen between covered.2
    simp only [Expr.allNotes, Note.within_append]
    exact ⟨List.forall_mem_cons.mpr ⟨within, withinRest⟩, noted, notedRest⟩

/-- The same for the elements of a list. -/
theorem ElementsWalk.within (own : ∀ name ∈ env.generics, allowed name)
    (seen : LocalVariable.AllWithin allowed visible) {before after : FunctionTable}
    {expected common : Option Ty} {position : Nat} {items filled : List Expr} :
    ElementsWalk env visible before expected position items common filled after →
    before.ReturnsMentioned → (∀ first, expected = some first → first.Within allowed) →
    Note.Covered env.types allowed (Expr.allNotes filled) →
    (∀ first, common = some first → first.Within allowed) ∧ Note.Within allowed (Expr.allNotes filled)
  | .nil, _, given, _ => ⟨given, Note.within_nil⟩
  | .cons walked agreed rest, known, given, covered => by
    simp only [Expr.allNotes, Note.covered_append] at covered
    obtain ⟨within, noted⟩ := walked.within own seen known covered.1
    have between := walked.keeps (Overloading.returnsMentioned_keptByCalls _) known
    have first := within_commonType given within agreed
    obtain ⟨shared, notedRest⟩ :=
      rest.within own seen between (fun _ same => by cases same; exact first) covered.2
    simp only [Expr.allNotes, Note.within_append]
    exact ⟨shared, noted, notedRest⟩

/-- The same for the members of a literal, and for what they bind. -/
theorem MembersWalk.within (own : ∀ name ∈ env.generics, allowed name)
    (seen : LocalVariable.AllWithin allowed visible) {before after : FunctionTable}
    {literal complete : Literal} {members filled : List (MemberValue Expr)} :
    MembersWalk env visible before literal members complete filled after → before.ReturnsMentioned →
    literal.bindings.Within allowed → Note.Covered env.types allowed (Expr.memberNotes filled) →
    complete.bindings.Within allowed ∧ Note.Within allowed (Expr.memberNotes filled)
  | .nil, _, given, _ => ⟨given, Note.within_nil⟩
  | .cons _ walked accepted rest, known, given, covered => by
    simp only [Expr.memberNotes, Note.covered_append] at covered
    obtain ⟨within, noted⟩ := walked.within own seen known covered.1
    have between := walked.keeps (Overloading.returnsMentioned_keptByCalls _) known
    obtain ⟨bindings, notedRest⟩ :=
      rest.within own seen between (Literal.within_accept given within accepted) covered.2
    simp only [Expr.memberNotes, Note.within_append]
    exact ⟨bindings, noted, notedRest⟩

end

end

/-! ## Statements -/

section

variable {env : Env} {allowed : String → Prop}

/-- An assignment leaves variables of types that stay within what is allowed. -/
theorem AssignmentWalk.within (own : ∀ name ∈ env.generics, allowed name) {before after : FunctionTable}
    {visible shown : List LocalVariable} {assigned filled : Assignment}
    (walked : AssignmentWalk env before visible assigned filled after shown)
    (seen : LocalVariable.AllWithin allowed visible) (known : before.ReturnsMentioned)
    (covered : Note.Covered env.types allowed filled.notes) :
    Note.Within allowed filled.notes ∧ LocalVariable.AllWithin allowed shown := by
  simp only [Assignment.notes, Note.covered_append, Note.within_append] at covered ⊢
  cases walked with
  | declaration introduces value valued typed fresh =>
    obtain ⟨within, noted⟩ := value.within own seen known covered.2
    rcases Check.declaredType_eq_ok typed with ⟨-, rfl, rfl⟩ | ⟨written, -, resolving, -, rfl⟩
    · exact ⟨⟨Note.within_typed within, noted⟩, seen.cons within⟩
    · rename_i declared _
      have within : declared.Within allowed := fun name mem =>
        own name (TypeTable.within_of_resolve written resolving name mem)
      exact ⟨⟨Note.within_typed within, noted⟩, seen.cons within⟩
  | reassignment rebinds value rebound =>
    obtain ⟨-, noted⟩ := value.within own seen known covered.2
    obtain ⟨var, found, -, -, -, rfl⟩ := Check.rebindable_eq_ok rebound
    exact ⟨⟨Note.within_typed (seen var (List.mem_of_find?_eq_some found)), noted⟩, seen⟩

/-- The same for the tests of a guard. -/
theorem GuardWalk.within (own : ∀ name ∈ env.generics, allowed name) {before after : FunctionTable}
    {visible : List LocalVariable} {tests filled : List GuardTerm}
    (walked : GuardWalk env visible before tests filled after)
    (seen : LocalVariable.AllWithin allowed visible) (known : before.ReturnsMentioned)
    (covered : Note.Covered env.types allowed (GuardTerm.allNotes filled)) :
    Note.Within allowed (GuardTerm.allNotes filled) := by
  induction walked with
  | nil => exact Note.within_nil
  | cons test _ ih =>
    simp only [GuardTerm.allNotes, List.flatMap_cons, Note.covered_append, Note.within_append]
      at covered ⊢
    obtain ⟨-, noted⟩ := test.within own seen known covered.1
    have between := test.keeps (Overloading.returnsMentioned_keptByCalls _) known
    exact ⟨noted, ih between covered.2⟩

/-- The elements of an iterable mention what the iterable mentions. -/
theorem within_elementType {iterable element : Ty} {location : Location}
    (within : iterable.Within allowed)
    (iterates : Check.elementType iterable location = .ok element) : element.Within allowed := by
  obtain ⟨args, nullable, rfl, rfl⟩ := Check.elementType_eq_ok iterates
  cases args with
  | nil => exact Ty.within_builtin _
  | cons first rest => exact Ty.within_app.mp within first List.mem_cons_self

mutual

/-- **The walk of a statement notes types within the allowed names only.** -/
theorem StmtWalk.within (own : ∀ name ∈ env.generics, allowed name) {before after : FunctionTable}
    {visible shown : List LocalVariable} {stmt filled : Stmt} {returned : List (Ty × Location)} :
    StmtWalk env before visible stmt filled returned after shown →
    LocalVariable.AllWithin allowed visible → before.ReturnsMentioned →
    Note.Covered env.types allowed filled.notes →
    Note.Within allowed filled.notes ∧ LocalVariable.AllWithin allowed shown
  | .assignment walked, seen, known, covered => walked.within own seen known covered
  | .returnsNothing, seen, _, _ => ⟨Note.within_nil, seen⟩
  | .returns walked, seen, known, covered => by
    simp only [Stmt.notes] at covered ⊢
    exact ⟨(walked.within own seen known covered).2, seen⟩
  | .call walked _, seen, known, covered => ⟨(walked.within own seen known covered).2, seen⟩
  | .branch walked, seen, known, covered => ⟨walked.within own seen known covered, seen⟩
  | .forEach walked iterates _ block, seen, known, covered => by
    simp only [Stmt.notes, Note.covered_append, Note.within_append] at covered ⊢
    obtain ⟨within, noted⟩ := walked.within own seen known covered.1.2
    have between := walked.keeps (Overloading.returnsMentioned_keptByCalls _) known
    have element := within_elementType within iterates
    obtain ⟨notedBody, -⟩ := block.within own (seen.cons element) between covered.2
    exact ⟨⟨⟨Note.within_typed element, noted⟩, notedBody⟩, seen⟩
  | .whileTrue walked block, seen, known, covered => by
    simp only [Stmt.notes, Note.covered_append, Note.within_append] at covered ⊢
    have noted := walked.within own seen known covered.1
    have between := walked.keeps (Overloading.returnsMentioned_keptByCalls _) known
    obtain ⟨notedBody, -⟩ := block.within own seen between covered.2
    exact ⟨⟨noted, notedBody⟩, seen⟩
  | .pass, seen, _, _ => ⟨Note.within_nil, seen⟩
  | .hostCode, seen, _, _ => ⟨Note.within_nil, seen⟩

/-- **Blocks stay within what is allowed**, statement by statement. -/
theorem BlockWalk.within (own : ∀ name ∈ env.generics, allowed name) {before after : FunctionTable}
    {visible shown : List LocalVariable} {stmts filled : List Stmt} {returned : List (Ty × Location)} :
    BlockWalk env before visible stmts filled returned after shown →
    LocalVariable.AllWithin allowed visible → before.ReturnsMentioned →
    Note.Covered env.types allowed (Stmt.allNotes filled) →
    Note.Within allowed (Stmt.allNotes filled) ∧ LocalVariable.AllWithin allowed shown
  | .nil, seen, _, _ => ⟨Note.within_nil, seen⟩
  | .cons first rest, seen, known, covered => by
    simp only [Stmt.allNotes, Note.covered_append, Note.within_append] at covered ⊢
    obtain ⟨noted, inner⟩ := first.within own seen known covered.1
    have between := first.keeps (Overloading.returnsMentioned_keptByCalls _) known
    obtain ⟨notedRest, last⟩ := rest.within own inner between covered.2
    exact ⟨⟨noted, notedRest⟩, last⟩

/-- So do branches. -/
theorem BranchWalk.within (own : ∀ name ∈ env.generics, allowed name) {before after : FunctionTable}
    {visible : List LocalVariable} {choice filled : Branch} {returned : List (Ty × Location)} :
    BranchWalk env before visible choice filled returned after →
    LocalVariable.AllWithin allowed visible → before.ReturnsMentioned →
    Note.Covered env.types allowed filled.notes → Note.Within allowed filled.notes
  | .last walked block, seen, known, covered => by
    simp only [Branch.notes, Note.covered_append, Note.within_append] at covered ⊢
    have noted := walked.within own seen known covered.1
    have between := walked.keeps (Overloading.returnsMentioned_keptByCalls _) known
    obtain ⟨notedBody, -⟩ := block.within own seen between covered.2
    exact ⟨noted, notedBody⟩
  | .otherwise walked block rest, seen, known, covered => by
    simp only [Branch.notes, Note.covered_append, Note.within_append] at covered ⊢
    have noted := walked.within own seen known covered.1.1
    have between := walked.keeps (Overloading.returnsMentioned_keptByCalls _) known
    obtain ⟨notedBody, -⟩ := block.within own seen between covered.1.2
    have ended := block.keeps (Overloading.returnsMentioned_keptByCalls _) between
    exact ⟨⟨noted, notedBody⟩, rest.within own seen ended covered.2⟩

end

end

end DeclCheck
