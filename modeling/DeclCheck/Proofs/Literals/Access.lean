import DeclCheck.Proofs.Annotation.Acceptance
import DeclCheck.Proofs.Literals.Bindings
import DeclCheck.Proofs.Overloading.Declared
import DeclCheck.Proofs.Typing.Soundness

/-!
# Struct literals and accesses to their members

A struct literal compares each value with what is known of its placeholders at that moment, and an access takes the
arguments that stand in the type in the end. The two agree: whatever an access to a member of the literal yields, the
value that was given for it conforms to that.

This needs that the members of a struct mention no placeholders but its own. They do not where the members were
resolved, and so the statement is about sessions that have accepted every unit so far, at any moment when bodies are
checked.

A rejected unit may leave members that mention other names. After one nothing is established about literals.
-/

namespace DeclCheck

/-! ## One member -/

/-- **Whether the members of a struct mention its own placeholders only.** -/
def StructDecl.MembersWithin (decl : StructDecl) : Prop :=
  ∀ member ∈ decl.members, member.ty.Within (· ∈ decl.genericNames)

/-- Whether the members of all structs mention their own placeholders only. -/
def TypeTable.StructsWithin (types : TypeTable) : Prop :=
  ∀ ⦃name : String⦄ ⦃decl : StructDecl⦄, types.structs.find? name = some decl → decl.MembersWithin

/-- A member that is found is declared under its name. -/
theorem StructDecl.member?_eq_some {decl : StructDecl} {name : String} {declared : Member}
    (found : decl.member? name = some declared) : declared ∈ decl.members ∧ declared.name.name = name :=
  ⟨List.mem_of_find?_eq_some found, by simpa using List.find?_some found⟩

namespace Literal

variable {env : Env} {literal next : Literal} {location : Location} {ty : Ty}

/-- Whether all placeholders are bound, if the type arguments are written. -/
def Ready (literal : Literal) : Prop :=
  literal.explicit = true → ∀ name ∈ literal.decl.genericNames, literal.bindings.contains name = true

/-- A literal begins with nothing given. -/
theorem ready_start {ctor : Ty} (started : start env ctor location = .ok literal) :
    literal.given = [] ∧ literal.Ready := by
  obtain ⟨decl, args, -, resolved, fits, rfl⟩ := start_made started
  refine ⟨rfl, fun explicit name mem => contains_bindPairs_zip ?_ mem⟩
  have written : (!ctor.args.isEmpty) = true := explicit
  rw [Bool.not_eq_true'] at written
  rw [TypeTable.length_resolveAll resolved]
  exact fits written

/-- **An accepted value conforms to its member from then on**, whatever is bound later. -/
theorem conforms_of_accept {declared : Member} {actual : Ty} (ready : literal.Ready)
    (within : declared.ty.Within (· ∈ literal.decl.genericNames))
    (accepted : literal.accept env declared actual location = .ok next) :
    literal.bindings.Extends next.bindings ∧ next.Ready ∧ ∀ more, next.bindings.Extends more →
      env.types.lattice.isSubtype actual (declared.ty.substitute more) = true := by
  obtain ⟨conforms, rfl⟩ := accept_eq_ok accepted
  have later (known : ∀ reading ∈ declared.ty.readings actual,
      (literal.bindingsAfter declared actual).contains reading.name = true) (more : Bindings)
      (grown : (literal.bindingsAfter declared actual).Extends more) :
      env.types.lattice.isSubtype actual (declared.ty.substitute more) = true :=
    Lattice.isSubtype_of_extends grown known conforms
  cases explicit : literal.explicit with
  | true =>
    have after : literal.bindingsAfter declared actual = literal.bindings := if_pos explicit
    rw [after] at later ⊢
    refine ⟨.refl _, fun _ => ready explicit, later fun reading read => ?_⟩
    exact ready explicit _ (within _ (Ty.mem_genericNames_of_mem_readings declared.ty read))
  | false =>
    have after : literal.bindingsAfter declared actual =
        bindMissing literal.bindings (declared.ty.bind .empty actual) := if_neg (by rw [explicit]; decide)
    rw [after] at later ⊢
    refine ⟨extends_bindMissing _ _, fun written => ?_, later fun reading read => ?_⟩
    · cases written
    · exact contains_bindMissing (Ty.contains_bind .empty read)

end Literal

/-! ## All members -/

/-- **Whether the value of a member conforms to it, whatever more is bound.** -/
def MemberValue.Conforms (lattice : Lattice) (decl : StructDecl) (bindings : Bindings) (given : MemberValue Expr) :
    Prop :=
  ∃ declared actual, decl.member? given.member.name = some declared ∧ given.value.ty = some actual ∧
    ∀ more, bindings.Extends more → lattice.isSubtype actual (declared.ty.substitute more) = true

/-- **What the members of a literal have brought about**: the bindings have grown, each value conforms to its member,
and the keys are new and different from one another. -/
structure Literal.Filled (lattice : Lattice) (literal complete : Literal) (values : List (MemberValue Expr)) :
    Prop where
  grown : literal.bindings.Extends complete.bindings
  conform : ∀ given ∈ values, given.Conforms lattice literal.decl complete.bindings
  given : complete.given = literal.given ++ values.map (·.member.name)
  once : literal.given.Nodup → complete.given.Nodup

variable {env : Env} {visible : List LocalVariable}

/-- The members are walked under their own names. -/
theorem MembersWalk.map_member {before after : FunctionTable} {literal complete : Literal}
    {members filled : List (MemberValue Expr)}
    (walked : MembersWalk env visible before literal members complete filled after) :
    filled.map (·.member) = members.map (·.member) := by
  induction members generalizing before literal filled with
  | nil =>
    cases walked
    rfl
  | cons given rest ih =>
    cases walked with
    | cons _ _ _ later => rw [List.map_cons, List.map_cons, ih later]

/-- **The members of a literal are given one by one**, each with a value of its type. -/
theorem MembersWalk.filled {before after : FunctionTable} {literal complete : Literal}
    {members filled : List (MemberValue Expr)} (ready : literal.Ready) (within : literal.decl.MembersWithin)
    (walked : MembersWalk env visible before literal members complete filled after) :
    literal.Filled env.types.lattice complete filled := by
  induction members generalizing before literal filled with
  | nil =>
    cases walked
    exact ⟨.refl _, fun _ mem => (by cases mem), (by simp), id⟩
  | cons given rest ih =>
    cases walked with
    | @cons _ _ _ _ next _ member _ value _ valuesRest declared actual claimed walkedValue accepted later =>
      obtain ⟨found, new⟩ := Literal.claim_eq_ok claimed
      obtain ⟨listed, named⟩ := StructDecl.member?_eq_some found
      obtain ⟨grown, readyNext, conforms⟩ := Literal.conforms_of_accept ready (within declared listed) accepted
      obtain ⟨-, rfl⟩ := Literal.accept_eq_ok accepted
      have all := ih readyNext within later
      refine ⟨grown.trans all.grown, ?_, ?_, ?_⟩
      · refine List.forall_mem_cons.mpr ⟨?_, all.conform⟩
        exact ⟨declared, actual, found, walkedValue.ty_eq, fun more last => conforms more (all.grown.trans last)⟩
      · rw [all.given, named, List.append_assoc]
        rfl
      · intro different
        apply all.once
        rw [named]
        refine List.nodup_append.mpr ⟨different, List.nodup_singleton _, fun name old other last => ?_⟩
        rw [List.mem_singleton.mp last]
        rintro rfl
        exact new old

/-! ## Literals and accesses -/

/-- **Whether accesses to a member of a type yield a type**: the member has it, whatever placeholders are in scope, and
so has every access whose subject is found to be of the type. -/
def TypeTable.Yields (types : TypeTable) (ty : Ty) (member : String) (expected : Ty) : Prop :=
  ∀ (generics : List String) (key : Ident), key.name = member →
    (∀ location, memberType ⟨types, generics⟩ ty location key = .ok expected) ∧
    ∀ (location : Location) (subject filled : Expr) (before after : BodyState),
      Check.expr ⟨types, generics⟩ subject before = .ok (ty, filled) after →
      Check.exprKind ⟨types, generics⟩ location (.access subject key) before = .ok (expected, .access filled key) after

/-- **Whether a struct literal agrees with the accesses to its members.** Each member name of the struct is given once,
and no other key; there is one argument for each placeholder; and the value of each member conforms to what an access to
it yields on the type of the literal. -/
structure Literal.Agrees (types : TypeTable) (decl : StructDecl) (name : String) (args : List Ty)
    (values : List (MemberValue Expr)) : Prop where
  declared : types.structs.find? name = some decl
  arity : args.length = decl.genericNames.length
  once : (values.map (·.member.name)).Nodup
  keys : ∀ key, key ∈ values.map (·.member.name) ↔ key ∈ decl.memberNames
  conform : ∀ given ∈ values, ∃ actual expected, given.value.ty = some actual ∧
    types.Yields (.struct name args) given.member.name expected ∧ types.lattice.isSubtype actual expected = true

/-- An access to a struct yields the declared type with the arguments put in. -/
theorem TypeTable.yields_struct {types : TypeTable} {name member : String} {decl : StructDecl} {declared : Member}
    (listed : types.structs.find? name = some decl) (found : decl.member? member = some declared) (args : List Ty) :
    types.Yields (.struct name args) member
      (declared.ty.substitute (bindPairs (decl.genericNames.zip args))) := by
  intro generics key named
  rw [← named] at found
  have typed (location : Location) : memberType ⟨types, generics⟩ (.struct name args) location key =
      .ok (declared.ty.substitute (bindPairs (decl.genericNames.zip args))) := by
    simp only [memberType, Ty.struct, listed, found]
  refine ⟨typed, fun location subject filled before after walked => ?_⟩
  rw [Check.exprKind]
  refine step_bind_eq_ok.mpr ⟨_, _, walked, step_bind_eq_ok.mpr ⟨_, after, ?_, rfl⟩⟩
  exact Check.decide_eq_ok.mpr ⟨typed filled.location, rfl⟩

/-- **A struct literal agrees with accesses** if the members of all structs mention their own placeholders only. -/
theorem KindWalk.agrees (within : env.types.StructsWithin)
    {before after : FunctionTable} {location : Location} {ctor ty : Ty} {members : List (MemberValue Expr)}
    {kind : ExprKind} (walked : KindWalk env visible before location (.object ctor members) ty kind after) :
    ∃ decl args values, ty = .struct (ctor.name?.getD "") args ∧ kind = .object ty values ∧
      values.map (·.member) = members.map (·.member) ∧
      Literal.Agrees env.types decl (ctor.name?.getD "") args values := by
  cases walked with
  | @object _ _ _ _ _ _ values literal complete started walked finished =>
    obtain ⟨listed, -⟩ := Literal.start_eq_ok started
    obtain ⟨none, ready⟩ := Literal.ready_start started
    have filled := walked.filled ready (within listed)
    obtain ⟨sameName, sameDecl⟩ := walked.decl_eq
    obtain ⟨args, bound, rfl⟩ := Literal.finish_eq_ok finished
    have bounds := Literal.boundArgs_eq_ok bound
    have given : complete.given = values.map (·.member.name) := by rw [filled.given, none, List.nil_append]
    rw [Literal.name_start started] at listed sameName
    rw [sameDecl] at bounds
    rw [sameName]
    refine ⟨literal.decl, args, values, rfl, rfl, walked.map_member, listed, ?_, ?_, ?_, ?_⟩
    · have lengths := congrArg List.length bounds
      simpa using lengths.symm
    · rw [← given]
      exact filled.once (by rw [none]; exact List.nodup_nil)
    · intro key
      constructor
      · intro mem
        obtain ⟨value, inside, rfl⟩ := List.mem_map.mp mem
        obtain ⟨declared, -, member, -⟩ := filled.conform value inside
        obtain ⟨own, named⟩ := StructDecl.member?_eq_some member
        exact List.mem_map.mpr ⟨declared, own, named⟩
      · intro mem
        rw [← given]
        exact Literal.given_of_finish finished (sameDecl ▸ mem)
    · intro value inside
      obtain ⟨declared, actual, member, typed, conforms⟩ := filled.conform value inside
      have own := within listed declared (StructDecl.member?_eq_some member).1
      have same : declared.ty.substitute (bindPairs (literal.decl.genericNames.zip args)) =
          declared.ty.substitute complete.bindings := by
        apply Ty.substitute_congr
        intro name mentioned
        exact find?_bindPairs_zip bounds (own name mentioned)
      refine ⟨actual, _, typed, TypeTable.yields_struct listed member args, ?_⟩
      rw [same]
      exact conforms complete.bindings (.refl _)

/-! ## Sessions -/

/-- Resolved members mention the placeholders of their struct only. -/
theorem TypeTable.membersWithin_resolveStruct ⦃types : TypeTable⦄ ⦃decl resolved : StructDecl⦄
    (resolving : types.resolveStruct decl = .ok resolved) : resolved.MembersWithin := by
  obtain ⟨members, rfl, each⟩ := resolveStruct_eq_ok resolving
  intro member mem
  obtain ⟨source, -, -, found⟩ := each member mem
  exact within_of_resolve source.ty found

/-- So do those of all structs after the passes over types. -/
theorem Analysis.structsWithin_typePasses {decls typed : List Decl} {before after : Analysis}
    (known : before.symbols.types.StructsWithin) (reached : typePasses decls before = .ok typed after) :
    after.symbols.types.StructsWithin := by
  obtain ⟨_, named, registered, later⟩ := step_bind_eq_ok.mp reached
  obtain ⟨groups, bound, binding, resolving⟩ := step_bind_eq_ok.mp later
  exact structs_of_passes TypeTable.membersWithin_resolveStruct known registered binding resolving

namespace Session

/-- **Whether the check of a unit comes to a state between bodies**: all types are entered and resolved, all signatures
are collected, and the bodies of some declarations have been walked. -/
def AtBodies (session : Session) (unit : SourceUnit) (state : Analysis) : Prop :=
  ∃ typed resolved signed closed earlier later checked,
    Analysis.typePasses unit.withOrigins.declarations (.start session.symbols) = .ok typed resolved ∧
    typed.mapM Analysis.collect resolved = .ok signed closed ∧ signed = earlier ++ later ∧
    earlier.mapM Analysis.checkBody closed = .ok checked state

/-- The last such state of an accepted unit has the tables of the session after it. -/
theorem atBodies_of_addUnit {session after : Session} {unit annotated : SourceUnit}
    (accepted : session.addUnit unit = (.ok annotated, after)) :
    ∃ state, session.AtBodies unit state ∧ state.symbols = after.symbols := by
  obtain ⟨state, checked, symbols⟩ := addUnit_eq_ok accepted
  rw [Analysis.declarations_eq] at checked
  obtain ⟨typed, resolved, passed, later⟩ := step_bind_eq_ok.mp checked
  obtain ⟨signed, closed, collected, walked⟩ := step_bind_eq_ok.mp later
  exact ⟨state, ⟨typed, resolved, signed, closed, signed, [], _, passed, collected, (List.append_nil _).symm, walked⟩,
    symbols.symm⟩

/-- Signatures and bodies leave the type tables as they are. -/
theorem AtBodies.structsWithin {session : Session} {unit : SourceUnit} {state : Analysis}
    (known : session.symbols.types.StructsWithin) (moment : session.AtBodies unit state) :
    state.symbols.types.StructsWithin := by
  obtain ⟨typed, resolved, signed, closed, earlier, later, checked, passed, collected, -, walked⟩ := moment
  have within : Analysis.KnowsTypes TypeTable.StructsWithin resolved :=
    Analysis.structsWithin_typePasses known passed
  have collecting : Analysis.KnowsTypes TypeTable.StructsWithin closed :=
    (Keeps.mapM Analysis.keepsTypes_collect _).of_eq_ok within collected
  exact (Keeps.mapM Analysis.keepsTypes_checkBody _).of_eq_ok collecting walked

/-- So they do in every state of a session that has accepted all units. -/
theorem Accepting.structsWithin {session : Session} (accepting : session.Accepting) :
    session.symbols.types.StructsWithin := by
  induction accepting with
  | initial =>
    intro name decl found
    cases found
  | add _ accepted ih =>
    obtain ⟨state, moment, symbols⟩ := atBodies_of_addUnit accepted
    rw [← symbols]
    exact moment.structsWithin ih

/-- **Struct literals and accesses agree.** While a session has rejected nothing, each struct literal that is checked
without an error in a body of the next unit is of its struct with one argument for each placeholder, gives each member
of the struct once and nothing else, and the type of each value conforms to what an access to that member yields on any
subject of the type of the literal. The type arguments may be written, or bound by the values in any order. -/
theorem Accepting.literal_agrees {session : Session} (accepting : session.Accepting) {unit : SourceUnit}
    {state : Analysis} (moment : session.AtBodies unit state) {generics : List String} {location : Location}
    {ctor ty : Ty} {members : List (MemberValue Expr)} {kind : ExprKind} {before after : BodyState}
    (checked : Check.exprKind ⟨state.symbols.types, generics⟩ location (.object ctor members) before =
      .ok (ty, kind) after) :
    ∃ decl args values, ty = .struct (ctor.name?.getD "") args ∧ kind = .object ty values ∧
      values.map (·.member) = members.map (·.member) ∧
      Literal.Agrees state.symbols.types decl (ctor.name?.getD "") args values := by
  have within := moment.structsWithin accepting.structsWithin
  have walked := Check.kindWalk location _ checked
  exact walked.agrees within

/-- A struct with a list that may be missing. -/
def pairUnit : SourceUnit where
  filename := "pair.pine"
  content := ""
  declarations :=
    [.struct ⟨⟨"Pair", .nowhere⟩,
      [⟨⟨"left", .nowhere⟩, Ty.written "A" []⟩, ⟨⟨"right", .nowhere⟩, (Ty.written "B" []).withNullable true⟩,
        ⟨⟨"more", .nowhere⟩, (Ty.written "List" [Ty.written "B" []]).withNullable true⟩],
      [⟨"A", .nowhere⟩, ⟨"B", .nowhere⟩], "", .nowhere⟩]

/-- A literal that leaves the list out first, and says afterwards what would be in it. -/
def pairLiteral : ExprKind :=
  .object (Ty.written "Pair" [])
    [⟨⟨"more", .nowhere⟩, .mk .nil none .nowhere⟩, ⟨⟨"right", .nowhere⟩, .mk (.string "x") none .nowhere⟩,
      ⟨⟨"left", .nowhere⟩, .mk (.number "1") none .nowhere⟩]

theorem pairLiteral_agrees :
    ∃ state decl values kind body, initial.AtBodies pairUnit state ∧
      Check.exprKind ⟨state.symbols.types, []⟩ .nowhere pairLiteral ⟨.empty, .empty, []⟩ =
        .ok (.struct "Pair" [.builtin .integer, .builtin .string], kind) body ∧
      values.map (·.member.name) = ["more", "right", "left"] ∧
      Literal.Agrees state.symbols.types decl "Pair" [.builtin .integer, .builtin .string] values := by
  obtain ⟨annotated, after, accepted⟩ : ∃ annotated after, initial.addUnit pairUnit = (.ok annotated, after) :=
    ⟨_, _, rfl⟩
  obtain ⟨state, moment, symbols⟩ := atBodies_of_addUnit accepted
  have tables : state.symbols = (initial.addUnit pairUnit).2.symbols := by rw [symbols, accepted]
  obtain ⟨kind, body, checked⟩ : ∃ kind body, Check.exprKind ⟨state.symbols.types, []⟩ .nowhere pairLiteral
      ⟨.empty, .empty, []⟩ = .ok (.struct "Pair" [.builtin .integer, .builtin .string], kind) body := by
    rw [tables]
    exact ⟨_, _, rfl⟩
  obtain ⟨decl, args, values, typed, -, members, agrees⟩ := Accepting.initial.literal_agrees moment checked
  obtain rfl : [.builtin .integer, .builtin .string] = args := by injection typed
  have names := congrArg (List.map (·.name)) members
  rw [List.map_map, List.map_map] at names
  exact ⟨state, decl, values, kind, body, moment, checked, names, agrees⟩

end Session

end DeclCheck
