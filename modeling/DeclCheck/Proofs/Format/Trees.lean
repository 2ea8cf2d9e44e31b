import DeclCheck.Format.Tree
import DeclCheck.Proofs.Format.Reading

/-!
# Declaration trees and their data

Two laws for each type of the declaration trees: the grammar forms the data of its values, and the data lead back to
the values. The laws of a type rest on those of its parts, and follow the recursion of the conversions.
-/

namespace DeclCheck.Format

/-! ## Parts without types -/

/-- A conversion goes on behind a part that leads back. -/
theorem bind_eq_of_eq_some {α β : Type} {found : Option α} {value : α} (same : found = some value)
    (next : α → Option β) : (found >>= next) = next value := by
  rw [same]
  rfl

section

variable {α : Type} {datum : α → Datum} {value? : Datum → Option α} {category : Category}

/-- What fits a category fits it where it may also be absent. -/
theorem fits_optional {datum : Datum} (fit : Fits (.one category) datum) : Fits (.optional category) datum := by
  cases datum with
  | absent => cases fit
  | flag | count | text | list | record | tag | tagged => exact fit

/-- The grammar forms the data of an optional part, if it forms those of the part. -/
theorem fits_ofOption (each : ∀ value, Fits (.one category) (datum value)) (value : Option α) :
    Fits (.optional category) (ofOption datum value) := by
  cases value with
  | none => rfl
  | some value => exact fits_optional (each value)

/-- The grammar forms the data of a list, if it forms those of the items. -/
theorem fits_ofList (each : ∀ value, Fits (.one category) (datum value)) (items : List α) :
    Fits (.many category) (ofList datum items) := by
  show AllFit (.one category) (items.map datum)
  induction items with
  | nil => exact trivial
  | cons item items ih => exact ⟨each item, ih⟩

/-- The data of a list lead back to it, if those of each item do. -/
theorem toList?_ofList (back : ∀ value, value? (datum value) = some value) (items : List α) :
    toList? value? (ofList datum items) = some items := by
  show (items.map datum).mapM value? = some items
  induction items with
  | nil => rfl
  | cons item items ih =>
    rw [List.map_cons, List.mapM_cons, back item, ih]
    rfl

/-- What leads back to a value is told from what is absent. -/
theorem toOption?_ofOption (absent : value? .absent = none)
    (back : ∀ value, value? (datum value) = some value) (value : Option α) :
    toOption? value? (ofOption datum value) = some value := by
  cases value with
  | none => rfl
  | some value =>
    have present : datum value ≠ .absent := by
      intro same
      cases absent.symm.trans (same ▸ back value)
    show toOption? value? (datum value) = some (some value)
    rw [toOption?, back value]
    · rfl
    · exact present

end

/-- The grammar forms the data of locations. -/
theorem fits_ofLocation (location : Location) : Fits (.one .location) (ofLocation location) :=
  ⟨rfl, rfl, rfl, rfl, trivial⟩

/-- The data of a location lead back to it. -/
@[simp] theorem toLocation?_ofLocation (location : Location) : toLocation? (ofLocation location) = some location := rfl

/-- The grammar forms the data of names with their places. -/
theorem fits_ofIdent (ident : Ident) : Fits (.one .ident) (ofIdent ident) :=
  ⟨rfl, fits_ofLocation ident.location, trivial⟩

/-- The data of a name with its place lead back to it. -/
@[simp] theorem toIdent?_ofIdent (ident : Ident) : toIdent? (ofIdent ident) = some ident := rfl

/-- So do the data of several names. -/
@[simp] theorem toList?_ofIdents (idents : List Ident) : toList? toIdent? (ofList ofIdent idents) = some idents :=
  toList?_ofList toIdent?_ofIdent idents

/-- So do those of a name that may be missing. -/
@[simp] theorem toOption?_ofIdent (ident : Option Ident) : toOption? toIdent? (ofOption ofIdent ident) = some ident :=
  toOption?_ofOption rfl toIdent?_ofIdent ident

/-- The grammar forms the tags of affixes. -/
theorem fits_ofAffix (affix : Affix) : Fits (.one .affix) (ofAffix affix) := by
  cases affix <;> rfl

/-- The tag of an affix leads back to it. -/
@[simp] theorem toAffix?_ofAffix (affix : Affix) : toAffix? (ofAffix affix) = some affix := by
  cases affix <;> rfl

/-- The grammar forms the tags of junctions. -/
theorem fits_ofJunction (junction : Junction) : Fits (.one .junction) (ofJunction junction) := by
  cases junction <;> rfl

/-- The tag of a junction leads back to it. -/
@[simp] theorem toJunction?_ofJunction (junction : Junction) : toJunction? (ofJunction junction) = some junction := by
  cases junction <;> rfl

/-- The grammar forms the tags of builtins. -/
theorem fits_ofBuiltin (kind : Builtin) : Fits (.one .builtin) (ofBuiltin kind) := by
  cases kind <;> rfl

/-- The tag of a builtin leads back to it. -/
@[simp] theorem toBuiltin?_ofBuiltin (kind : Builtin) : toBuiltin? (ofBuiltin kind) = some kind := by
  cases kind <;> rfl

/-! ## Types -/

mutual

/-- **The grammar forms the data of types**, resolved or not. -/
theorem fits_ofTy : ∀ ty : Ty, Fits (.one .ty) (ofTy ty)
  | .atom .void _ => ⟨rfl, rfl, trivial⟩
  | .atom (.generic _ location) _ => ⟨⟨rfl, fits_ofLocation location, trivial⟩, rfl, trivial⟩
  | .atom (.enum _) _ => ⟨⟨rfl, trivial⟩, rfl, trivial⟩
  | .atom (.group _) _ => ⟨⟨rfl, trivial⟩, rfl, trivial⟩
  | .app (.unresolved _ location) args _ =>
    ⟨⟨rfl, allFit_ofTys args, fits_ofLocation location, trivial⟩, rfl, trivial⟩
  | .app (.builtin kind) args _ => ⟨⟨fits_ofBuiltin kind, allFit_ofTys args, trivial⟩, rfl, trivial⟩
  | .app (.struct _) args _ => ⟨⟨rfl, allFit_ofTys args, trivial⟩, rfl, trivial⟩

/-- It forms those of several types. -/
theorem allFit_ofTys : ∀ types : List Ty, AllFit (.one .ty) (ofTys types)
  | [] => trivial
  | ty :: rest => ⟨fits_ofTy ty, allFit_ofTys rest⟩

end

mutual

/-- **The data of a type lead back to it.** Each constructor is told by its own tag. -/
@[simp] theorem toTy?_ofTy : ∀ ty : Ty, toTy? (ofTy ty) = some ty
  | .atom .void _ => rfl
  | .atom (.generic _ _) _ => rfl
  | .atom (.enum _) _ => rfl
  | .atom (.group _) _ => rfl
  | .app (.unresolved name location) args nullable => by
    have ctor : toCtor? "Unresolved" (.text name) [ofLocation location] = some (.unresolved name location) := rfl
    exact (bind_eq_of_eq_some ctor _).trans (bind_eq_of_eq_some (toTys?_ofTys args) _)
  | .app (.builtin kind) args nullable => by
    have ctor : toCtor? "Builtin" (ofBuiltin kind) [] = some (.builtin kind) :=
      bind_eq_of_eq_some (toBuiltin?_ofBuiltin kind) _
    exact (bind_eq_of_eq_some ctor _).trans (bind_eq_of_eq_some (toTys?_ofTys args) _)
  | .app (.struct name) args nullable => by
    have ctor : toCtor? "Struct" (.text name) [] = some (.struct name) := rfl
    exact (bind_eq_of_eq_some ctor _).trans (bind_eq_of_eq_some (toTys?_ofTys args) _)

/-- So do the data of several types. -/
@[simp] theorem toTys?_ofTys : ∀ types : List Ty, toTys? (ofTys types) = some types
  | [] => rfl
  | ty :: rest => by simp [ofTys, toTys?, toTy?_ofTy ty, toTys?_ofTys rest]

end

/-- So do those of a type that may be missing. -/
@[simp] theorem toOption?_ofTy (ty : Option Ty) : toOption? toTy? (ofOption ofTy ty) = some ty :=
  toOption?_ofOption rfl toTy?_ofTy ty

/-! ## Expressions -/

/-- The grammar forms the data of the overload that a call is bound to. -/
theorem fits_ofOverload (overload : Overload) : Fits (.one .overload) (ofOverload overload) :=
  ⟨allFit_ofTys overload.params, fits_ofTy overload.returnType, trivial⟩

/-- The data of an overload lead back to it. -/
@[simp] theorem toOverload?_ofOverload (overload : Overload) : toOverload? (ofOverload overload) = some overload := by
  simp [ofOverload, toOverload?]

mutual

/-- **The grammar forms the data of expressions.** -/
theorem fits_ofExpr : ∀ expr : Expr, Fits (.one .expr) (ofExpr expr)
  | .mk kind ty location =>
    ⟨fits_ofExprKind kind, fits_ofOption fits_ofTy ty, fits_ofLocation location, trivial⟩

/-- One alternative of the grammar stands for each kind of expression. -/
theorem fits_ofExprKind : ∀ kind : ExprKind, Fits (.one .exprKind) (ofExprKind kind)
  | .number _ => rfl
  | .string _ => rfl
  | .boolean _ => rfl
  | .nil => rfl
  | .variable name => fits_ofIdent name
  | .call callee => fits_ofCall callee
  | .list items => allFit_ofExprs items
  | .tuple items => allFit_ofExprs items
  | .object ctor members => ⟨fits_ofTy ctor, allFit_ofMemberValues members, trivial⟩
  | .access subject key => ⟨fits_ofExpr subject, fits_ofIdent key, trivial⟩
  | .enumCase enumName case => ⟨fits_ofOption fits_ofIdent enumName, fits_ofIdent case, trivial⟩

/-- The grammar forms the data of calls. -/
theorem fits_ofCall : ∀ callee : Call Expr, Fits (.one .call) (ofCall callee)
  | ⟨signature, affix, args, resolved⟩ =>
    ⟨fits_ofList fits_ofIdent signature, fits_ofAffix affix, allFit_ofExprs args,
      fits_ofOption fits_ofOverload resolved, trivial⟩

/-- It forms those of several expressions. -/
theorem allFit_ofExprs : ∀ exprs : List Expr, AllFit (.one .expr) (ofExprs exprs)
  | [] => trivial
  | expr :: rest => ⟨fits_ofExpr expr, allFit_ofExprs rest⟩

/-- It forms those of the members of a literal. -/
theorem allFit_ofMemberValues : ∀ members : List (MemberValue Expr),
    AllFit (.one .memberValue) (ofMemberValues members)
  | [] => trivial
  | ⟨member, value⟩ :: rest =>
    ⟨⟨fits_ofIdent member, fits_ofExpr value, trivial⟩, allFit_ofMemberValues rest⟩

end

mutual

/-- **The data of an expression lead back to it**, with the types that were noted in it. -/
@[simp] theorem toExpr?_ofExpr : ∀ expr : Expr, toExpr? (ofExpr expr) = some expr
  | .mk kind ty location => by simp [ofExpr, toExpr?, toExprKind?_ofExprKind kind]

/-- The kinds of expressions are told apart by their tags. -/
@[simp] theorem toExprKind?_ofExprKind : ∀ kind : ExprKind, toExprKind? (ofExprKind kind) = some kind
  | .number _ => rfl
  | .string _ => rfl
  | .boolean _ => rfl
  | .nil => rfl
  | .variable _ => rfl
  | .call callee => bind_eq_of_eq_some (toCall?_ofCall callee) _
  | .list items => bind_eq_of_eq_some (toExprs?_ofExprs items) _
  | .tuple items => bind_eq_of_eq_some (toExprs?_ofExprs items) _
  | .object ctor members => by
    refine (bind_eq_of_eq_some (toTy?_ofTy ctor) _).trans ?_
    exact bind_eq_of_eq_some (toMemberValues?_ofMemberValues members) _
  | .access subject key => bind_eq_of_eq_some (toExpr?_ofExpr subject) _
  | .enumCase enumName case => bind_eq_of_eq_some (toOption?_ofIdent enumName) _

/-- The data of a call lead back to it. -/
@[simp] theorem toCall?_ofCall : ∀ callee : Call Expr, toCall? (ofCall callee) = some callee
  | ⟨signature, affix, args, resolved⟩ => by
    have bound := toOption?_ofOption rfl toOverload?_ofOverload resolved
    simp [ofCall, toCall?, toExprs?_ofExprs args, bound]

/-- So do the data of several expressions. -/
@[simp] theorem toExprs?_ofExprs : ∀ exprs : List Expr, toExprs? (ofExprs exprs) = some exprs
  | [] => rfl
  | expr :: rest => by simp [ofExprs, toExprs?, toExpr?_ofExpr expr, toExprs?_ofExprs rest]

/-- So do those of the members of a literal. -/
@[simp] theorem toMemberValues?_ofMemberValues : ∀ members : List (MemberValue Expr),
    toMemberValues? (ofMemberValues members) = some members
  | [] => rfl
  | ⟨member, value⟩ :: rest => by
    simp [ofMemberValues, toMemberValues?, toExpr?_ofExpr value, toMemberValues?_ofMemberValues rest]

end

/-! ## Statements -/

/-- The grammar forms the data of variables. -/
theorem fits_ofVariable (var : Variable) : Fits (.one .variable) (ofVariable var) :=
  ⟨fits_ofIdent var.name, fits_ofOption fits_ofTy var.declaredType, rfl, fits_ofOption fits_ofTy var.resolvedType,
    trivial⟩

/-- The data of a variable lead back to it. -/
@[simp] theorem toVariable?_ofVariable (var : Variable) : toVariable? (ofVariable var) = some var := by
  simp [ofVariable, toVariable?]

/-- The grammar forms the data of the terms of a guard. -/
theorem fits_ofGuardTerm (term : GuardTerm) : Fits (.one .guardTerm) (ofGuardTerm term) :=
  ⟨fits_ofOption fits_ofJunction term.junction, fits_ofExpr term.test, trivial⟩

/-- The data of a term lead back to it. -/
@[simp] theorem toGuardTerm?_ofGuardTerm (term : GuardTerm) : toGuardTerm? (ofGuardTerm term) = some term := by
  have joined := toOption?_ofOption rfl toJunction?_ofJunction term.junction
  simp [ofGuardTerm, toGuardTerm?, joined]

/-- So do those of a whole guard. -/
@[simp] theorem toList?_ofGuardTerms (tests : List GuardTerm) :
    toList? toGuardTerm? (ofList ofGuardTerm tests) = some tests :=
  toList?_ofList toGuardTerm?_ofGuardTerm tests

/-- The grammar forms the data of assignments. -/
theorem fits_ofAssignment (assigned : Assignment) : Fits (.one .assignment) (ofAssignment assigned) :=
  ⟨fits_ofVariable assigned.target, rfl, fits_ofExpr assigned.value, fits_ofLocation assigned.location, trivial⟩

/-- The data of an assignment lead back to it. -/
@[simp] theorem toAssignment?_ofAssignment (assigned : Assignment) :
    toAssignment? (ofAssignment assigned) = some assigned := by
  simp [ofAssignment, toAssignment?]

mutual

/-- **The grammar forms the data of statements.** -/
theorem fits_ofStmt : ∀ stmt : Stmt, Fits (.one .stmt) (ofStmt stmt)
  | .assignment assigned => fits_ofAssignment assigned
  | .returns value location => ⟨fits_ofOption fits_ofExpr value, fits_ofLocation location, trivial⟩
  | .call callee location => ⟨fits_ofCall callee, fits_ofLocation location, trivial⟩
  | .branch choice => fits_ofBranch choice
  | .forEach iterator iterable body location =>
    ⟨fits_ofVariable iterator, fits_ofExpr iterable, allFit_ofStmts body, fits_ofLocation location, trivial⟩
  | .whileTrue tests body location =>
    ⟨fits_ofList fits_ofGuardTerm tests, allFit_ofStmts body, fits_ofLocation location, trivial⟩
  | .pass location => ⟨fits_ofLocation location, trivial⟩
  | .hostCode _ location => ⟨rfl, fits_ofLocation location, trivial⟩

/-- A branch may or may not have another one behind it, and the grammar forms the data of both. -/
theorem fits_ofBranch : ∀ choice : Branch, Fits (.one .branch) (ofBranch choice)
  | .mk tests body none location =>
    ⟨fits_ofList fits_ofGuardTerm tests, allFit_ofStmts body, rfl, fits_ofLocation location, trivial⟩
  | .mk tests body (some otherwise) location =>
    ⟨fits_ofList fits_ofGuardTerm tests, allFit_ofStmts body, fits_optional (fits_ofBranch otherwise),
      fits_ofLocation location, trivial⟩

/-- It forms the data of blocks. -/
theorem allFit_ofStmts : ∀ stmts : List Stmt, AllFit (.one .stmt) (ofStmts stmts)
  | [] => trivial
  | stmt :: rest => ⟨fits_ofStmt stmt, allFit_ofStmts rest⟩

end

/-- A branch that is there is told from one that is absent. -/
theorem ofBranch_ne_absent (choice : Branch) : ofBranch choice ≠ .absent := by
  cases choice with
  | mk tests body otherwise location => cases otherwise <;> exact fun same => nomatch same

mutual

/-- **The data of a statement lead back to it.** -/
@[simp] theorem toStmt?_ofStmt : ∀ stmt : Stmt, toStmt? (ofStmt stmt) = some stmt
  | .assignment assigned => bind_eq_of_eq_some (toAssignment?_ofAssignment assigned) _
  | .returns value location => bind_eq_of_eq_some (toOption?_ofOption rfl toExpr?_ofExpr value) _
  | .call callee location => bind_eq_of_eq_some (toCall?_ofCall callee) _
  | .branch choice => bind_eq_of_eq_some (toBranch?_ofBranch choice) _
  | .forEach iterator iterable body location => by
    refine (bind_eq_of_eq_some (toVariable?_ofVariable iterator) _).trans ?_
    refine (bind_eq_of_eq_some (toExpr?_ofExpr iterable) _).trans ?_
    exact bind_eq_of_eq_some (toStmts?_ofStmts body) _
  | .whileTrue tests body location => by
    refine (bind_eq_of_eq_some (toList?_ofGuardTerms tests) _).trans ?_
    exact bind_eq_of_eq_some (toStmts?_ofStmts body) _
  | .pass _ => rfl
  | .hostCode _ _ => rfl

/-- The data of a branch lead back to it, with all that is tried otherwise. -/
@[simp] theorem toBranch?_ofBranch : ∀ choice : Branch, toBranch? (ofBranch choice) = some choice
  | .mk tests body none location => by simp [ofBranch, toBranch?, toStmts?_ofStmts body]
  | .mk tests body (some otherwise) location => by
    rw [ofBranch, toBranch?]
    · simp [toStmts?_ofStmts body, toBranch?_ofBranch otherwise]
    · exact ofBranch_ne_absent otherwise

/-- So do the data of blocks. -/
@[simp] theorem toStmts?_ofStmts : ∀ stmts : List Stmt, toStmts? (ofStmts stmts) = some stmts
  | [] => rfl
  | stmt :: rest => by simp [ofStmts, toStmts?, toStmt?_ofStmt stmt, toStmts?_ofStmts rest]

end

/-! ## Declarations and units -/

/-- The grammar forms the data of parameters. -/
theorem fits_ofParam (param : Param) : Fits (.one .param) (ofParam param) :=
  ⟨fits_ofIdent param.name, fits_ofTy param.ty, rfl, trivial⟩

/-- The data of a parameter lead back to it. -/
@[simp] theorem toParam?_ofParam (param : Param) : toParam? (ofParam param) = some param := by
  simp [ofParam, toParam?]

/-- The grammar forms the data of generic parameters. -/
theorem fits_ofGenericParam (generic : GenericParam) : Fits (.one .genericParam) (ofGenericParam generic) :=
  ⟨fits_ofIdent generic.name, fits_ofOption fits_ofTy generic.constraint, trivial⟩

/-- The data of a generic parameter lead back to it. -/
@[simp] theorem toGenericParam?_ofGenericParam (generic : GenericParam) :
    toGenericParam? (ofGenericParam generic) = some generic := by
  simp [ofGenericParam, toGenericParam?]

/-- The grammar forms the data of functions. -/
theorem fits_ofFunction (decl : FunctionDecl) : Fits (.one .function) (ofFunction decl) :=
  ⟨fits_ofList fits_ofIdent decl.signature, fits_ofAffix decl.affix, fits_ofTy decl.returnType,
    fits_ofList fits_ofParam decl.params, allFit_ofStmts decl.body, fits_ofList fits_ofGenericParam decl.generics,
    rfl, fits_ofLocation decl.location, trivial⟩

/-- The data of a function lead back to it. -/
@[simp] theorem toFunction?_ofFunction (decl : FunctionDecl) : toFunction? (ofFunction decl) = some decl := by
  have params := toList?_ofList toParam?_ofParam decl.params
  have generics := toList?_ofList toGenericParam?_ofGenericParam decl.generics
  simp [ofFunction, toFunction?, params, generics]

/-- The grammar forms the data of the members of structs. -/
theorem fits_ofMember (member : Member) : Fits (.one .member) (ofMember member) :=
  ⟨fits_ofIdent member.name, fits_ofTy member.ty, trivial⟩

/-- The data of a member lead back to it. -/
@[simp] theorem toMember?_ofMember (member : Member) : toMember? (ofMember member) = some member := by
  simp [ofMember, toMember?]

/-- The grammar forms the data of structs. -/
theorem fits_ofStruct (decl : StructDecl) : Fits (.one .struct) (ofStruct decl) :=
  ⟨fits_ofIdent decl.name, fits_ofList fits_ofMember decl.members, fits_ofList fits_ofIdent decl.generics, rfl,
    fits_ofLocation decl.location, trivial⟩

/-- The data of a struct lead back to it. -/
@[simp] theorem toStruct?_ofStruct (decl : StructDecl) : toStruct? (ofStruct decl) = some decl := by
  have members := toList?_ofList toMember?_ofMember decl.members
  simp [ofStruct, toStruct?, members]

/-- The grammar forms the data of enums. -/
theorem fits_ofEnum (decl : EnumDecl) : Fits (.one .enum) (ofEnum decl) :=
  ⟨fits_ofIdent decl.name, fits_ofList fits_ofIdent decl.cases, rfl, fits_ofLocation decl.location, trivial⟩

/-- The data of an enum lead back to it. -/
@[simp] theorem toEnum?_ofEnum (decl : EnumDecl) : toEnum? (ofEnum decl) = some decl := by
  simp [ofEnum, toEnum?]

/-- The grammar forms the data of groups. -/
theorem fits_ofGroup (decl : GroupDecl) : Fits (.one .group) (ofGroup decl) :=
  ⟨fits_ofIdent decl.name, rfl, fits_ofLocation decl.location, trivial⟩

/-- The data of a group lead back to it. -/
@[simp] theorem toGroup?_ofGroup (decl : GroupDecl) : toGroup? (ofGroup decl) = some decl := rfl

/-- The grammar forms the data of group bindings. -/
theorem fits_ofBinding (decl : GroupBinding) : Fits (.one .binding) (ofBinding decl) :=
  ⟨fits_ofTy decl.child, fits_ofTy decl.parent, rfl, fits_ofLocation decl.location, trivial⟩

/-- The data of a group binding lead back to it. -/
@[simp] theorem toBinding?_ofBinding (decl : GroupBinding) : toBinding? (ofBinding decl) = some decl := by
  simp [ofBinding, toBinding?]

/-- The grammar forms the data of imports. -/
theorem fits_ofImport (decl : ImportDecl) : Fits (.one .importing) (ofImport decl) :=
  ⟨fits_ofIdent decl.filename, rfl, fits_ofLocation decl.location, trivial⟩

/-- The data of an import lead back to it. -/
@[simp] theorem toImport?_ofImport (decl : ImportDecl) : toImport? (ofImport decl) = some decl := rfl

/-- The grammar forms the data of example blocks. -/
theorem fits_ofExample (decl : ExampleDecl) : Fits (.one .exampleBlock) (ofExample decl) :=
  ⟨allFit_ofStmts decl.body, rfl, fits_ofLocation decl.location, trivial⟩

/-- The data of an example block lead back to it. -/
@[simp] theorem toExample?_ofExample (decl : ExampleDecl) : toExample? (ofExample decl) = some decl := by
  simp [ofExample, toExample?]

/-- **The grammar forms the data of declarations.** -/
theorem fits_ofDecl : ∀ decl : Decl, Fits (.one .declaration) (ofDecl decl)
  | .function decl => fits_ofFunction decl
  | .struct decl => fits_ofStruct decl
  | .enum decl => fits_ofEnum decl
  | .group decl => fits_ofGroup decl
  | .binding decl => fits_ofBinding decl
  | .importing decl => fits_ofImport decl
  | .exampleBlock decl => fits_ofExample decl

/-- **The data of a declaration lead back to it.** -/
@[simp] theorem toDecl?_ofDecl : ∀ decl : Decl, toDecl? (ofDecl decl) = some decl
  | .function decl => congrArg (Option.map Decl.function) (toFunction?_ofFunction decl)
  | .struct decl => congrArg (Option.map Decl.struct) (toStruct?_ofStruct decl)
  | .enum decl => congrArg (Option.map Decl.enum) (toEnum?_ofEnum decl)
  | .group decl => congrArg (Option.map Decl.group) (toGroup?_ofGroup decl)
  | .binding decl => congrArg (Option.map Decl.binding) (toBinding?_ofBinding decl)
  | .importing decl => congrArg (Option.map Decl.importing) (toImport?_ofImport decl)
  | .exampleBlock decl => congrArg (Option.map Decl.exampleBlock) (toExample?_ofExample decl)

/-- **The grammar forms the data of every unit.** -/
theorem fits_ofUnit (unit : SourceUnit) : Fits (.one .unit) (ofUnit unit) :=
  ⟨rfl, rfl, fits_ofList fits_ofDecl unit.declarations, trivial⟩

/-- **The data of a unit lead back to it.** -/
@[simp] theorem toUnit?_ofUnit (unit : SourceUnit) : toUnit? (ofUnit unit) = some unit := by
  have declarations := toList?_ofList toDecl?_ofDecl unit.declarations
  simp [ofUnit, toUnit?, declarations]

end DeclCheck.Format
