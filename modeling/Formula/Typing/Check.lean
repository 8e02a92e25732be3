import Formula.Package
import Formula.Scoped
import Formula.Typing.Constant
import Formula.Typing.Error
import Formula.Typing.Flow

/-!
# Typing expressions and statements

The checker goes through a program once. Scopes are passed down and extended by declarations; what
is noted on the way are the constants that become floating-point numbers, and the results of the
entry function if its result type is to be inferred.

## Main definitions

* `Notes`, `Check`: what is noted, and computations that note it or fail.
* `checkExpr`: the type of an expression.
* `checkStmt`, `checkStmts`: the scopes behind a statement.
* `checkFunction`: the body of a function.
-/

namespace Formula

/-- A result of the entry function: its type, its place, and what becomes a floating-point number
if the result type is that. -/
structure InferredResult where
  type : Ty
  span : Span
  constants : List Span
deriving Repr, DecidableEq

/-- What the checker notes. -/
structure Notes where
  /-- The places that are computed as integers and become floating-point numbers. -/
  floats : List Span := []
  /-- The results of the entry function, the last one first. -/
  results : List InferredResult := []
deriving Repr, DecidableEq

/-- The places `spans` in addition to those that are noted. -/
def Notes.mark (n : Notes) (spans : List Span) : Notes :=
  { n with floats := spans.foldl (fun floats s => floats.insert s) n.floats }

/-- A computation that takes notes or fails. -/
abbrev Check := StateT Notes (Except TypeError)

namespace Check

variable {α : Type}

/-- Fails at a place. -/
def fail (span : Span) (cause : TypeCause) : Check α :=
  throw ⟨cause, some span⟩

/-- Takes over the meaning of a written type. -/
def resolved (r : Except UnknownType α) : Check α :=
  match r with
  | .ok a => pure a
  | .error u => throw (.ofUnknownType u)

/-- Notes places that become floating-point numbers. -/
def mark (spans : List Span) : Check Unit :=
  modify (·.mark spans)

/-- Notes a result of the entry function. -/
def addResult (r : InferredResult) : Check Unit :=
  modify fun n => { n with results := r :: n.results }

end Check

/-- What a statement has to know about the function and the loops around it. -/
structure Surroundings where
  /-- The result type of the function; none if it is to be inferred. -/
  result : Option Ty
  inLoop : Bool := false
deriving Repr, DecidableEq

/-- The type of an operation. -/
def operationType (op : BinaryOp) (left right : Ty) (span : Span) : Except TypeError Ty :=
  if left ≠ right then .error ⟨.differentOperands left right op, some span⟩
  else
    let defined : Bool := match op with
      | .add => left.isOrdered
      | .sub | .mul | .div => left.isNumeric
      | .mod => left = .int
      | .and | .or => left = .bool
      | .eq | .notEq => left.isComparable
      | .lt | .lte | .gt | .gte => left.isOrdered
    if !defined then .error ⟨.operands op left, some span⟩
    else .ok (if op.isComparison then .bool else left)

/-- The type of an operation on one operand. -/
def unaryType (op : UnaryOp) (operand : Ty) (span : Span) : Except TypeError Ty :=
  let defined : Bool := match op with
    | .neg => operand.isNumeric
    | .not => operand = .bool
  if defined then .ok operand else .error ⟨.unaryOperand op operand, some span⟩

/-- The type of something that is used as a value. -/
def usedType (e : Expr) (t : Ty) : Except TypeError Ty :=
  match t with
  | .void => .error ⟨.voidValue, some e.span⟩
  | .package _ => .error ⟨.packageValue e.calleeName, some e.span⟩
  | .builtin b => .error ⟨.builtinValue b, some e.span⟩
  | t => .ok t

/-- The result type of a predeclared function. -/
def builtinResult (b : Builtin) (argument : Ty) (span : Span) : Except TypeError Ty :=
  match b with
  | .int => if argument.isNumeric then .ok .int else .error ⟨.conversion argument .int, some span⟩
  | .float =>
    if argument.isNumeric then .ok .float else .error ⟨.conversion argument .float, some span⟩
  | .string =>
    if argument = .string then .ok .string else .error ⟨.conversion argument .string, some span⟩
  | .len => if argument = .string then .ok .int else .error ⟨.lengthOf argument, some span⟩

/-- The type of a member of what a name stands for. -/
def selectorType (found : Option Ty) (target member : String) (span : Span) :
    Except TypeError Ty :=
  match found with
  | none => .error ⟨.undefined target, some span⟩
  | some (.package path) =>
    match Package.member? path member with
    | some n => .ok n.signature
    | none => .error ⟨.undefinedMember target member, some span⟩
  | some other => .error ⟨.noMembers target member other, some span⟩

/-- Fails unless a function may be called with so many arguments. -/
def checkCount (callee : Expr) (params : List Ty) (variadic : Option Ty) (count : Nat)
    (span : Span) : Check Unit :=
  if count < params.length then
    .fail span (.fewArguments callee.calleeName params.length count)
  else if params.length < count ∧ variadic.isNone then
    .fail span (.manyArguments callee.calleeName params.length count)
  else pure ()

/-- Fails unless something of the type `found` may be used where `wanted` is wanted. -/
def checkAccepts (wanted found : Ty) (span : Span) (place : ValuePlace) : Check Unit :=
  if wanted.accepts found then pure () else .fail span (.notAccepted found wanted place)

/-- The type of an expression that is used as a value, given the computation of its type. -/
def valueType (e : Expr) (type : Check Ty) : Check Ty := do
  usedType e (← type)

/-- The type of an expression that is used where the type `wanted` is wanted, given the computation
of its type: an untyped constant becomes a floating-point number where that is wanted. -/
def valueTypeFor (e : Expr) (wanted : Ty) (type : Check Ty) : Check Ty := do
  match wanted, e.constants? with
  | .float, some spans =>
    let _ ← type
    Check.mark spans
    return .float
  | _, _ => valueType e type

/-- The types of two operands, given the computations of their types. An untyped constant takes the
type of the other operand; if the left one alone is one, the right one is looked at first. -/
def operandTypes (left right : Expr) (leftType rightType : Check Ty) : Check (Ty × Ty) := do
  if left.isConstant && !right.isConstant then
    let r ← valueType right rightType
    let l ← valueTypeFor left r leftType
    return (l, r)
  else
    let l ← valueType left leftType
    let r ← valueTypeFor right l rightType
    return (l, r)

/-- The type of a variable with an initial value, given the computation of the type of that. -/
def initialisedType (type : Option TypeExpr) (value : Expr) (valueTy : Check Ty) : Check Ty := do
  match type with
  | none => valueType value valueTy
  | some type =>
    let t ← Check.resolved type.resolve
    let found ← valueTypeFor value t valueTy
    checkAccepts t found value.span .declaration
    return t

/-- The type of a variable without an initial value. -/
def uninitialisedType (type : Option TypeExpr) (span : Span) : Check Ty :=
  match type with
  | none => .fail span .noTypeNoValue
  | some type => .resolved type.resolve

/-- The type of a variable that is the target of an assignment. -/
def targetType (scopes : Scoped Ty) (name : String) (span : Span) : Except TypeError Ty :=
  match scopes.find? name with
  | none => .error ⟨.undefined name, some span⟩
  | some t => if t.isValue then .ok t else .error ⟨.notAssignable name, some span⟩

/-- The scopes with the parameters of a function in the innermost one. -/
def declareParams (scopes : Scoped Ty) : List Parameter → Except TypeError (Scoped Ty)
  | [] => .ok scopes
  | p :: ps =>
    if scopes.declares p.name then .error ⟨.duplicateArgument p.name, some p.span⟩
    else match p.type.resolve with
      | .ok t => declareParams (scopes.declare p.name t) ps
      | .error u => .error (.ofUnknownType u)

/-- Fails if a function that must have a result can come to the end of its body. -/
def checkEnd (result : Option Ty) (body : Block) : Check Unit :=
  if result ≠ some .void ∧ !body.terminates then
    .fail { body.span with start := body.span.stop } .missingReturn
  else pure ()

mutual

/-- The type of an expression. -/
def checkExpr (scopes : Scoped Ty) : Expr → Check Ty
  | .literal value _ => pure (.ofScalar value.type)
  | .identifier name span =>
    match scopes.find? name with
    | some t => pure t
    | none => .fail span (.undefined name)
  | .binary op left right span => do
    let (l, r) ← operandTypes left right (checkExpr scopes left) (checkExpr scopes right)
    operationType op l r span
  | .unary op operand span => do
    let t ← valueType operand (checkExpr scopes operand)
    unaryType op t span
  | .selector target member span => selectorType (scopes.find? target) target member span
  | .call callee arguments span => do
    match ← checkExpr scopes callee with
    | .builtin b =>
      match arguments with
      | [a] =>
        let t ← valueType a (checkExpr scopes a)
        builtinResult b t a.span
      | _ => .fail span (.builtinArguments b arguments.length)
    | .function params variadic result =>
      checkCount callee params variadic arguments.length span
      checkArguments scopes variadic params arguments
      return result
    | other => .fail callee.span (.notFunction other)
  | .function params result (.mk statements bodySpan) _ => do
    let type ← Check.resolved (functionType params result)
    let resultType ← Check.resolved (resultType result)
    let inner ← declareParams scopes.push params
    checkStmts ⟨some resultType, false⟩ inner statements
    checkEnd (some resultType) (.mk statements bodySpan)
    return type

/-- Checks arguments against the types of the parameters; the arguments beyond those are checked
against the type `variadic`. -/
def checkArguments (scopes : Scoped Ty) (variadic : Option Ty) (params : List Ty) :
    List Expr → Check Unit
  | [] => pure ()
  | a :: arguments => do
    let wanted := params.head?.getD (variadic.getD .any)
    let found ← valueTypeFor a wanted (checkExpr scopes a)
    checkAccepts wanted found a.span .argument
    checkArguments scopes variadic params.tail arguments

/-- Checks a statement and gives the scopes behind it. -/
def checkStmt (f : Surroundings) (scopes : Scoped Ty) : Stmt → Check (Scoped Ty)
  | .define name value span => do
    if scopes.declares name then Check.fail span .nothingNew
    let t ← valueType value (checkExpr scopes value)
    return scopes.declare name t
  | .var name type value span => do
    if scopes.declares name then Check.fail span (.redeclared name)
    let t ← match value with
      | some value => initialisedType type value (checkExpr scopes value)
      | none => uninitialisedType type span
    return scopes.declare name t
  | .assign target op value span => do
    let t ← targetType scopes target span
    let found ← valueTypeFor value t (checkExpr scopes value)
    match op with
    | none => checkAccepts t found value.span .assignment
    | some op =>
      let result ← operationType op t found span
      checkAccepts t result span .assignment
    return scopes
  | .increment target up span => do
    let t ← targetType scopes target span
    if !t.isNumeric then Check.fail span (.increment target up t)
    return scopes
  | .expr e => do
    if !e.isCall then Check.fail e.span .unusedValue
    let _ ← checkExpr scopes e
    return scopes
  | .ret value span => do
    match f.result, value with
    | some .void, some value => Check.fail value.span .manyResults
    | some .void, none => return scopes
    | _, none => Check.fail span .noResult
    | some wanted, some value =>
      let found ← valueTypeFor value wanted (checkExpr scopes value)
      checkAccepts wanted found value.span .result
      return scopes
    | none, some value =>
      let t ← valueType value (checkExpr scopes value)
      Check.addResult ⟨t, value.span, value.constants?.getD []⟩
      return scopes
  | .breakLoop span => if f.inLoop then pure scopes else .fail span (.outsideLoop .breakK)
  | .continueLoop span => if f.inLoop then pure scopes else .fail span (.outsideLoop .continueK)
  | .cond condition (.mk thenStatements _) elseBlock _ => do
    let t ← valueType condition (checkExpr scopes condition)
    if t ≠ .bool then Check.fail condition.span (.notBoolean .choice t)
    checkStmts f scopes.push thenStatements
    match elseBlock with
    | some (.mk elseStatements _) => checkStmts f scopes.push elseStatements
    | none => pure ()
    return scopes
  | .loop init condition post (.mk statements _) _ => do
    let inner ← match init with
      | some s => checkStmt f scopes.push s
      | none => pure scopes.push
    match condition with
    | some c =>
      let t ← valueType c (checkExpr inner c)
      if t ≠ .bool then Check.fail c.span (.notBoolean .loop t)
    | none => pure ()
    let inner ← match post with
      | some (.define _ _ span) => Check.fail span .postDeclaration
      | some s => checkStmt f inner s
      | none => pure inner
    checkStmts { f with inLoop := true } inner.push statements
    return scopes
  | .block (.mk statements _) => do
    checkStmts f scopes.push statements
    return scopes

/-- Checks statements one after the other. -/
def checkStmts (f : Surroundings) (scopes : Scoped Ty) : List Stmt → Check Unit
  | [] => pure ()
  | s :: statements => do
    checkStmts f (← checkStmt f scopes s) statements

end

/-- Checks the body of a function whose parameters are in the innermost scope. -/
def checkFunction (result : Option Ty) (scopes : Scoped Ty) (params : List Parameter)
    (body : Block) : Check Unit := do
  let inner ← declareParams scopes.push params
  checkStmts ⟨result, false⟩ inner body.statements
  checkEnd result body

end Formula
