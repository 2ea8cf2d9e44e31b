import DeclCheck.Format.Datum
import DeclCheck.Tree.Decl

/-!
# Declaration trees as data

Each type of the declaration trees has two conversions: `of…` gives the datum of a value, and `to…?`
gives the value back. The second refuses what no value has as its datum; data that were read by the
grammar are never refused.
-/

namespace DeclCheck.Format

/-! ## Parts without types -/

/-- The datum of what may be absent. -/
def ofOption {α : Type} (datum : α → Datum) : Option α → Datum
  | none => .absent
  | some value => datum value

/-- What may be absent, from its datum. -/
def toOption? {α : Type} (value? : Datum → Option α) : Datum → Option (Option α)
  | .absent => some none
  | datum => (value? datum).map some

/-- The datum of a list. -/
def ofList {α : Type} (datum : α → Datum) (items : List α) : Datum := .list (items.map datum)

/-- A list from its datum. -/
def toList? {α : Type} (value? : Datum → Option α) : Datum → Option (List α)
  | .list items => items.mapM value?
  | _ => none

def ofLocation (location : Location) : Datum :=
  .record [.count location.firstLine, .count location.firstColumn, .count location.lastLine,
    .count location.lastColumn]

def toLocation? : Datum → Option Location
  | .record [.count firstLine, .count firstColumn, .count lastLine, .count lastColumn] =>
    some ⟨firstLine, firstColumn, lastLine, lastColumn⟩
  | _ => none

def ofIdent (ident : Ident) : Datum := .record [.text ident.name, ofLocation ident.location]

def toIdent? : Datum → Option Ident
  | .record [.text name, location] => do return ⟨name, ← toLocation? location⟩
  | _ => none

def affixName : Affix → String
  | .bare => "Nofix"
  | .before => "Prefix"
  | .after => "Suffix"
  | .between => "Infix"
  | .mixed => "Mixfix"

def ofAffix (affix : Affix) : Datum := .tag (affixName affix)

def toAffix? : Datum → Option Affix
  | .tag name =>
    [Affix.bare, .before, .after, .between, .mixed].find? (fun affix => affixName affix == name)
  | _ => none

def junctionName : Junction → String
  | .and => "And"
  | .or => "Or"

def ofJunction (junction : Junction) : Datum := .tag (junctionName junction)

def toJunction? : Datum → Option Junction
  | .tag name => [Junction.and, .or].find? (fun junction => junctionName junction == name)
  | _ => none

def ofBuiltin (kind : Builtin) : Datum := .tag kind.name

def toBuiltin? : Datum → Option Builtin
  | .tag name => Builtin.all.find? (fun kind => kind.name == name)
  | _ => none

/-! ## Types -/

def ofAtom : Atom → Datum
  | .void => .tag "Void"
  | .generic name location => .tagged "Generic" (.record [.text name, ofLocation location])
  | .enum name => .tagged "Enum" (.record [.text name])
  | .group name => .tagged "Group" (.record [.text name])

mutual

def ofTy : Ty → Datum
  | .atom shape nullable => .record [ofAtom shape, .flag nullable]
  | .app (.unresolved name location) args nullable =>
    .record [.tagged "Unresolved" (.record [.text name, .list (ofTys args), ofLocation location]),
      .flag nullable]
  | .app (.builtin kind) args nullable =>
    .record [.tagged "Builtin" (.record [ofBuiltin kind, .list (ofTys args)]), .flag nullable]
  | .app (.struct name) args nullable =>
    .record [.tagged "Struct" (.record [.text name, .list (ofTys args)]), .flag nullable]

def ofTys : List Ty → List Datum
  | [] => []
  | ty :: rest => ofTy ty :: ofTys rest

end

/-- The atom of a variant of types and its data. -/
def toAtom? (variant : String) (fields : List Datum) : Option Atom :=
  match variant, fields with
  | "Generic", [.text name, location] => do return .generic name (← toLocation? location)
  | "Enum", [.text name] => some (.enum name)
  | "Group", [.text name] => some (.group name)
  | _, _ => none

/-- The constructor of a variant of types, from the data around its arguments. -/
def toCtor? (variant : String) (first : Datum) (rest : List Datum) : Option Ctor :=
  match variant, first, rest with
  | "Unresolved", .text name, [location] => do return .unresolved name (← toLocation? location)
  | "Builtin", kind, [] => do return .builtin (← toBuiltin? kind)
  | "Struct", .text name, [] => some (.struct name)
  | _, _, _ => none

mutual

def toTy? : Datum → Option Ty
  | .record [.tag variant, .flag nullable] =>
    if variant = "Void" then some (.atom .void nullable) else none
  | .record [.tagged variant (.record (first :: .list args :: rest)), .flag nullable] => do
    let ctor ← toCtor? variant first rest
    let args ← toTys? args
    return .app ctor args nullable
  | .record [.tagged variant (.record fields), .flag nullable] => do
    return .atom (← toAtom? variant fields) nullable
  | _ => none

def toTys? : List Datum → Option (List Ty)
  | [] => some []
  | datum :: rest => do
    let ty ← toTy? datum
    let rest ← toTys? rest
    return ty :: rest

end

/-! ## Expressions -/

def ofOverload (overload : Overload) : Datum :=
  .record [.list (ofTys overload.params), ofTy overload.returnType]

def toOverload? : Datum → Option Overload
  | .record [.list params, returnType] => do return ⟨← toTys? params, ← toTy? returnType⟩
  | _ => none

mutual

def ofExpr : Expr → Datum
  | .mk kind ty location => .record [ofExprKind kind, ofOption ofTy ty, ofLocation location]

def ofExprKind : ExprKind → Datum
  | .number literal => .tagged "Number" (.text literal)
  | .string text => .tagged "String" (.text text)
  | .boolean value => .tagged "Boolean" (.flag value)
  | .nil => .tag "Nil"
  | .variable name => .tagged "Variable" (ofIdent name)
  | .call callee => .tagged "Call" (ofCall callee)
  | .list items => .tagged "List" (.list (ofExprs items))
  | .tuple items => .tagged "Tuple" (.list (ofExprs items))
  | .object ctor members => .tagged "Object" (.record [ofTy ctor, .list (ofMemberValues members)])
  | .access subject key => .tagged "ObjectAccess" (.record [ofExpr subject, ofIdent key])
  | .enumCase enumName case =>
    .tagged "EnumCase" (.record [ofOption ofIdent enumName, ofIdent case])

def ofCall : Call Expr → Datum
  | ⟨signature, affix, args, resolved⟩ =>
    .record [ofList ofIdent signature, ofAffix affix, .list (ofExprs args),
      ofOption ofOverload resolved]

def ofExprs : List Expr → List Datum
  | [] => []
  | expr :: rest => ofExpr expr :: ofExprs rest

def ofMemberValues : List (MemberValue Expr) → List Datum
  | [] => []
  | ⟨member, value⟩ :: rest => .record [ofIdent member, ofExpr value] :: ofMemberValues rest

end

mutual

def toExpr? : Datum → Option Expr
  | .record [kind, ty, location] => do
    let kind ← toExprKind? kind
    let ty ← toOption? toTy? ty
    let location ← toLocation? location
    return .mk kind ty location
  | _ => none

def toExprKind? : Datum → Option ExprKind
  | .tag "Nil" => some .nil
  | .tagged "Number" (.text literal) => some (.number literal)
  | .tagged "String" (.text text) => some (.string text)
  | .tagged "Boolean" (.flag value) => some (.boolean value)
  | .tagged "Variable" name => do return .variable (← toIdent? name)
  | .tagged "Call" callee => do
    let callee ← toCall? callee
    return .call callee
  | .tagged "List" (.list items) => do
    let items ← toExprs? items
    return .list items
  | .tagged "Tuple" (.list items) => do
    let items ← toExprs? items
    return .tuple items
  | .tagged "Object" (.record [ctor, .list members]) => do
    let ctor ← toTy? ctor
    let members ← toMemberValues? members
    return .object ctor members
  | .tagged "ObjectAccess" (.record [subject, key]) => do
    let subject ← toExpr? subject
    let key ← toIdent? key
    return .access subject key
  | .tagged "EnumCase" (.record [enumName, case]) => do
    return .enumCase (← toOption? toIdent? enumName) (← toIdent? case)
  | _ => none

def toCall? : Datum → Option (Call Expr)
  | .record [signature, affix, .list args, resolved] => do
    let signature ← toList? toIdent? signature
    let affix ← toAffix? affix
    let args ← toExprs? args
    let resolved ← toOption? toOverload? resolved
    return ⟨signature, affix, args, resolved⟩
  | _ => none

def toExprs? : List Datum → Option (List Expr)
  | [] => some []
  | datum :: rest => do
    let expr ← toExpr? datum
    let rest ← toExprs? rest
    return expr :: rest

def toMemberValues? : List Datum → Option (List (MemberValue Expr))
  | [] => some []
  | .record [member, value] :: rest => do
    let member ← toIdent? member
    let value ← toExpr? value
    let rest ← toMemberValues? rest
    return ⟨member, value⟩ :: rest
  | _ :: _ => none

end

/-! ## Statements -/

def ofVariable (var : Variable) : Datum :=
  .record [ofIdent var.name, ofOption ofTy var.declaredType, .flag var.mutable,
    ofOption ofTy var.resolvedType]

def toVariable? : Datum → Option Variable
  | .record [name, declaredType, .flag mutable, resolvedType] => do
    return ⟨← toIdent? name, ← toOption? toTy? declaredType, mutable,
      ← toOption? toTy? resolvedType⟩
  | _ => none

def ofGuardTerm (term : GuardTerm) : Datum :=
  .record [ofOption ofJunction term.junction, ofExpr term.test]

def toGuardTerm? : Datum → Option GuardTerm
  | .record [junction, test] => do
    return ⟨← toOption? toJunction? junction, ← toExpr? test⟩
  | _ => none

def ofAssignment (assigned : Assignment) : Datum :=
  .record [ofVariable assigned.target, .flag assigned.isDeclaration, ofExpr assigned.value,
    ofLocation assigned.location]

def toAssignment? : Datum → Option Assignment
  | .record [target, .flag isDeclaration, value, location] => do
    return ⟨← toVariable? target, isDeclaration, ← toExpr? value, ← toLocation? location⟩
  | _ => none

mutual

def ofStmt : Stmt → Datum
  | .assignment assigned => .tagged "Assignment" (ofAssignment assigned)
  | .returns value location =>
    .tagged "Return" (.record [ofOption ofExpr value, ofLocation location])
  | .call callee location => .tagged "Call" (.record [ofCall callee, ofLocation location])
  | .branch choice => .tagged "Branch" (ofBranch choice)
  | .forEach iterator iterable body location =>
    .tagged "For"
      (.record [ofVariable iterator, ofExpr iterable, .list (ofStmts body), ofLocation location])
  | .whileTrue guard body location =>
    .tagged "While" (.record [ofList ofGuardTerm guard, .list (ofStmts body), ofLocation location])
  | .pass location => .tagged "Pass" (.record [ofLocation location])
  | .hostCode code location => .tagged "HostCode" (.record [.text code, ofLocation location])

def ofBranch : Branch → Datum
  | .mk guard body none location =>
    .record [ofList ofGuardTerm guard, .list (ofStmts body), .absent, ofLocation location]
  | .mk guard body (some otherwise) location =>
    .record [ofList ofGuardTerm guard, .list (ofStmts body), ofBranch otherwise,
      ofLocation location]

def ofStmts : List Stmt → List Datum
  | [] => []
  | stmt :: rest => ofStmt stmt :: ofStmts rest

end

mutual

def toStmt? : Datum → Option Stmt
  | .tagged "Assignment" assigned => do return .assignment (← toAssignment? assigned)
  | .tagged "Return" (.record [value, location]) => do
    return .returns (← toOption? toExpr? value) (← toLocation? location)
  | .tagged "Call" (.record [callee, location]) => do
    return .call (← toCall? callee) (← toLocation? location)
  | .tagged "Branch" choice => do
    let choice ← toBranch? choice
    return .branch choice
  | .tagged "For" (.record [iterator, iterable, .list body, location]) => do
    let iterator ← toVariable? iterator
    let iterable ← toExpr? iterable
    let body ← toStmts? body
    let location ← toLocation? location
    return .forEach iterator iterable body location
  | .tagged "While" (.record [guard, .list body, location]) => do
    let guard ← toList? toGuardTerm? guard
    let body ← toStmts? body
    let location ← toLocation? location
    return .whileTrue guard body location
  | .tagged "Pass" (.record [location]) => do return .pass (← toLocation? location)
  | .tagged "HostCode" (.record [.text code, location]) => do
    return .hostCode code (← toLocation? location)
  | _ => none

def toBranch? : Datum → Option Branch
  | .record [guard, .list body, .absent, location] => do
    let guard ← toList? toGuardTerm? guard
    let body ← toStmts? body
    let location ← toLocation? location
    return .mk guard body none location
  | .record [guard, .list body, otherwise, location] => do
    let guard ← toList? toGuardTerm? guard
    let body ← toStmts? body
    let otherwise ← toBranch? otherwise
    let location ← toLocation? location
    return .mk guard body (some otherwise) location
  | _ => none

def toStmts? : List Datum → Option (List Stmt)
  | [] => some []
  | datum :: rest => do
    let stmt ← toStmt? datum
    let rest ← toStmts? rest
    return stmt :: rest

end

/-! ## Declarations and units -/

def ofParam (param : Param) : Datum :=
  .record [ofIdent param.name, ofTy param.ty, .flag param.mutable]

def toParam? : Datum → Option Param
  | .record [name, ty, .flag mutable] => do return ⟨← toIdent? name, ← toTy? ty, mutable⟩
  | _ => none

def ofGenericParam (generic : GenericParam) : Datum :=
  .record [ofIdent generic.name, ofOption ofTy generic.constraint]

def toGenericParam? : Datum → Option GenericParam
  | .record [name, constraint] => do
    return ⟨← toIdent? name, ← toOption? toTy? constraint⟩
  | _ => none

def ofFunction (decl : FunctionDecl) : Datum :=
  .record [ofList ofIdent decl.signature, ofAffix decl.affix, ofTy decl.returnType,
    ofList ofParam decl.params, .list (ofStmts decl.body), ofList ofGenericParam decl.generics,
    .text decl.origin, ofLocation decl.location]

def toFunction? : Datum → Option FunctionDecl
  | .record [signature, affix, returnType, params, .list body, generics, .text origin, location] =>
    do
      return {
        signature := ← toList? toIdent? signature
        affix := ← toAffix? affix
        returnType := ← toTy? returnType
        params := ← toList? toParam? params
        body := ← toStmts? body
        generics := ← toList? toGenericParam? generics
        origin
        location := ← toLocation? location }
  | _ => none

def ofMember (member : Member) : Datum := .record [ofIdent member.name, ofTy member.ty]

def toMember? : Datum → Option Member
  | .record [name, ty] => do return ⟨← toIdent? name, ← toTy? ty⟩
  | _ => none

def ofStruct (decl : StructDecl) : Datum :=
  .record [ofIdent decl.name, ofList ofMember decl.members, ofList ofIdent decl.generics,
    .text decl.origin, ofLocation decl.location]

def toStruct? : Datum → Option StructDecl
  | .record [name, members, generics, .text origin, location] => do
    return {
      name := ← toIdent? name
      members := ← toList? toMember? members
      generics := ← toList? toIdent? generics
      origin
      location := ← toLocation? location }
  | _ => none

def ofEnum (decl : EnumDecl) : Datum :=
  .record [ofIdent decl.name, ofList ofIdent decl.cases, .text decl.origin,
    ofLocation decl.location]

def toEnum? : Datum → Option EnumDecl
  | .record [name, cases, .text origin, location] => do
    return {
      name := ← toIdent? name
      cases := ← toList? toIdent? cases
      origin
      location := ← toLocation? location }
  | _ => none

def ofGroup (decl : GroupDecl) : Datum :=
  .record [ofIdent decl.name, .text decl.origin, ofLocation decl.location]

def toGroup? : Datum → Option GroupDecl
  | .record [name, .text origin, location] => do
    return { name := ← toIdent? name, origin, location := ← toLocation? location }
  | _ => none

def ofBinding (decl : GroupBinding) : Datum :=
  .record [ofTy decl.child, ofTy decl.parent, .text decl.origin, ofLocation decl.location]

def toBinding? : Datum → Option GroupBinding
  | .record [child, parent, .text origin, location] => do
    return {
      child := ← toTy? child
      parent := ← toTy? parent
      origin
      location := ← toLocation? location }
  | _ => none

def ofImport (decl : ImportDecl) : Datum :=
  .record [ofIdent decl.filename, .text decl.origin, ofLocation decl.location]

def toImport? : Datum → Option ImportDecl
  | .record [filename, .text origin, location] => do
    return { filename := ← toIdent? filename, origin, location := ← toLocation? location }
  | _ => none

def ofExample (decl : ExampleDecl) : Datum :=
  .record [.list (ofStmts decl.body), .text decl.origin, ofLocation decl.location]

def toExample? : Datum → Option ExampleDecl
  | .record [.list body, .text origin, location] => do
    return { body := ← toStmts? body, origin, location := ← toLocation? location }
  | _ => none

def ofDecl : Decl → Datum
  | .function decl => .tagged "Function" (ofFunction decl)
  | .struct decl => .tagged "Struct" (ofStruct decl)
  | .enum decl => .tagged "Enum" (ofEnum decl)
  | .group decl => .tagged "Group" (ofGroup decl)
  | .binding decl => .tagged "GroupBinding" (ofBinding decl)
  | .importing decl => .tagged "Import" (ofImport decl)
  | .exampleBlock decl => .tagged "Example" (ofExample decl)

def toDecl? : Datum → Option Decl
  | .tagged "Function" decl => (toFunction? decl).map .function
  | .tagged "Struct" decl => (toStruct? decl).map .struct
  | .tagged "Enum" decl => (toEnum? decl).map .enum
  | .tagged "Group" decl => (toGroup? decl).map .group
  | .tagged "GroupBinding" decl => (toBinding? decl).map .binding
  | .tagged "Import" decl => (toImport? decl).map .importing
  | .tagged "Example" decl => (toExample? decl).map .exampleBlock
  | _ => none

def ofUnit (unit : SourceUnit) : Datum :=
  .record [.text unit.filename, .text unit.content, ofList ofDecl unit.declarations]

def toUnit? : Datum → Option SourceUnit
  | .record [.text filename, .text content, declarations] => do
    return ⟨filename, content, ← toList? toDecl? declarations⟩
  | _ => none

end DeclCheck.Format
