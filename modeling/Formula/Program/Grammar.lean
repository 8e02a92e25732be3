import Formula.Program
import Formula.Program.Cursor

/-!
# The grammar of programs

Readers for types, expressions, statements, blocks and declarations. Expressions and blocks may
lie within one another only so deep: a `Level` holds the readers for what may still be opened at
one depth, and each level is made from the one below it, so reading ends because levels run out.

## Main definitions

* `Parse.typeExpr`, `Parse.signature`: written types.
* `Level`, `Level.under`: the readers at one depth of nesting.
* `maxNesting`: how deep nesting may go.
* `Program.ofTokens`: a program from its tokens.
-/

namespace Formula

/-- How deep blocks and expressions may lie within one another. -/
def maxNesting : Nat := 100

namespace Parse

/-! ## Types -/

/-- Reads a type; `fuel` bounds how many function types it may hold. -/
def typeExprWith : Nat → Parse TypeExpr
  | 0 => fail (.wanted .typeName)
  | fuel + 1 => do
    let span ← here
    if ← peek (·.isKeyword .funcK) then
      let _ ← next
      let _ ← symbol .lparen .functionTypeOpen
      let params ← commaSeparated (typeExprWith fuel)
      let _ ← symbol .rparen .functionTypeClose
      let result ←
        if ← peek (·.startsType) then some <$> typeExprWith fuel else pure none
      return .function params result (span.join (← before))
    else
      return .named (← identifier .typeName) span

/-- Reads a type. Every function type in it takes a token at least, so the tokens that are left
bound their number. -/
def typeExpr : Parse TypeExpr := fun c =>
  typeExprWith (c.left + 1) c

/-- A name in a list of parameters, and the type that follows it, if one does. -/
structure ParameterName where
  name : String
  span : Span
  type : Option TypeExpr

/-- Reads a name in a list of parameters. -/
def parameterName : Parse (Option (ParameterName × Bool)) := do
  if ← peek (·.isSymbol .rparen) then return none
  let span ← here
  let name ← identifier .parameterName
  if ← eat .comma then return some (⟨name, span, none⟩, true)
  if ← peek (·.isSymbol .rparen) then return some (⟨name, span, none⟩, false)
  let type ← typeExpr
  return some (⟨name, span, some type⟩, ← eat .comma)

/-- Names share the type that follows them; the last ones must be followed by a type. -/
def shareTypes : List ParameterName → Except ParseError (List Parameter)
  | [] => .ok []
  | p :: ps =>
    match (p :: ps).findSome? (·.type) with
    | none => .error (.untypedParameter p.name p.span)
    | some type => (⟨p.name, type, p.span⟩ :: ·) <$> shareTypes ps

/-- Reads the parameters and the result type of a function. -/
def signature : Parse (List Parameter × Option TypeExpr) := do
  let _ ← symbol .lparen .parameterListOpen
  let names ← collect parameterName
  let params ← (shareTypes names : Except ParseError _)
  let _ ← symbol .rparen .parameterListClose
  if ← peek (fun c => c.isSymbol .lbrace || c.isTerminator) then return (params, none)
  return (params, some (← typeExpr))

end Parse

/-! ## Expressions and statements -/

/-- The binary operator that a token is. -/
def TokenKind.binaryOp? : TokenKind → Option BinaryOp
  | .symbol .pipePipe => some .or
  | .symbol .ampAmp => some .and
  | .symbol .eqEq => some .eq
  | .symbol .notEq => some .notEq
  | .symbol .lt => some .lt
  | .symbol .le => some .lte
  | .symbol .gt => some .gt
  | .symbol .ge => some .gte
  | .symbol .plus => some .add
  | .symbol .minus => some .sub
  | .symbol .star => some .mul
  | .symbol .slash => some .div
  | .symbol .percent => some .mod
  | _ => none

/-- The assignment that a token is, with the operator of a compound one. -/
def TokenKind.assignment? : TokenKind → Option (Option BinaryOp)
  | .symbol .equals => some none
  | .symbol .plusEquals => some (some .add)
  | .symbol .minusEquals => some (some .sub)
  | .symbol .starEquals => some (some .mul)
  | .symbol .slashEquals => some (some .div)
  | .symbol .percentEquals => some (some .mod)
  | _ => none

/-- The readers at one depth of nesting. -/
structure Level where
  /-- Reads an expression. -/
  expression : Parse Expr
  /-- Reads an operand with the operators before it. -/
  unary : Parse Expr
  /-- Goes on from an expression with the argument lists after it. -/
  calls : Expr → Parse Expr
  /-- Reads operands between operators that bind at least so tightly. -/
  binary : Nat → Parse Expr
  /-- Goes on from an operand with operators that bind at least so tightly. -/
  operators : Expr → Nat → Parse Expr
  /-- Reads a block. -/
  block : Parse Block
  /-- Reads a choice. -/
  choice : Parse Stmt
  /-- Reads a statement. -/
  statement : Parse Stmt

namespace Level

open Parse

/-- Opens one more level of nesting, if there is one. -/
def enter (below : Option Level) : Parse Level :=
  match below with
  | none => fail .nestingTooDeep
  | some level => pure level

section Below

variable (below : Option Level)

/-- Reads an expression, one level further down. -/
def expressionUnder : Parse Expr := do
  (← enter below).binary 1

/-- Reads a block, whose statements are one level further down. -/
def blockUnder : Parse Block := do
  let level ← enter below
  let opening ← symbol .lbrace .blockOpen
  let statements ← collect do
    skipSeparators
    if ← peek (fun c => c.isSymbol .rbrace || c.isEof) then return none
    let s ← level.statement
    if !(← peek (·.isSymbol .rbrace)) then terminator .statementEnd
    return some (s, true)
  let _ ← symbol .rbrace .blockClose
  return .mk statements (opening.span.join (← before))

/-- Reads a function without a name, of which the current token is the keyword. -/
def functionUnder : Parse Expr := do
  let start := (← next).span
  let (params, result) ← signature
  let body ← blockUnder below
  return .function params result body (start.join body.span)

/-- Reads a constant, a name, an expression in parentheses or a function. -/
def primaryUnder : Parse Expr := fun c =>
  let token := c.current
  match token.kind with
  | .constant value => .ok (.literal value token.span, c.advance)
  | .identifier name => .ok (.identifier name token.span, c.advance)
  | .symbol .lparen => (do
      let inner ← expressionUnder below
      let _ ← symbol .rparen .parenthesisClose
      return inner : Parse Expr) c.advance
  | .keyword .funcK => functionUnder below c
  | _ => fail .notAnExpression c

/-- Goes on from an expression with the member of a package, if a dot follows a name. -/
def selectorUnder (e : Expr) : Parse Expr := do
  if !(← peek (·.isSymbol .dot)) then return e
  match e with
  | .identifier target span =>
    let _ ← next
    let member ← identifier .memberName
    return .selector target member (span.join (← before))
  | _ => fail .selectorTarget

/-- Goes on from an expression with argument lists. The arguments of each, and what follows it, are
one level further down than what comes before it. -/
def callsUnder (e : Expr) : Parse Expr := do
  if ← eat .lparen then
    let level ← enter below
    let arguments ← commaSeparated level.expression
    let _ ← symbol .rparen .argumentsClose
    level.calls (.call e arguments (e.span.join (← before)))
  else if ← peek (·.isSymbol .dot) then fail .selectorTarget
  else return e

/-- Reads an operand with what follows it. -/
def postfixUnder : Parse Expr := do
  let e ← primaryUnder below
  let e ← selectorUnder e
  callsUnder below e

/-- Reads an operand with the operators before it. A plus sign leaves no trace. -/
def unaryUnder : Parse Expr := do
  if ← eat .plus then (← enter below).unary
  else if ← peek (·.isSymbol .minus) then operator .neg
  else if ← peek (·.isSymbol .bang) then operator .not
  else postfixUnder below
where
  /-- Reads an operator and its operand, one level further down. -/
  operator (op : UnaryOp) : Parse Expr := do
    let start := (← next).span
    let operand ← (← enter below).unary
    return .unary op operand (start.join operand.span)

/-- Goes on from an operand with operators that bind at least as tightly as `least`. The right
operand of each, and what follows it, are one level further down than what comes before it. -/
def operatorsUnder (left : Expr) (least : Nat) : Parse Expr := fun c =>
  match c.kind.binaryOp? with
  | none => .ok (left, c)
  | some op =>
    if op.precedence < least then .ok (left, c)
    else (do
      let level ← enter below
      let right ← level.binary (op.precedence + 1)
      level.operators (.binary op left right (left.span.join right.span)) least : Parse Expr)
        c.advance

/-- Reads operands between operators that bind at least as tightly as `least`. -/
def binaryUnder (least : Nat) : Parse Expr := do
  let left ← unaryUnder below
  operatorsUnder below left least

/-- Reads a declaration of a variable, of which the current token is the keyword. -/
def variableUnder : Parse VarDecl := do
  let start := (← next).span
  let name ← identifier .variableName
  let type ← if ← peek (·.isSymbol .equals) then pure none else some <$> typeExpr
  let value ← if ← eat .equals then some <$> expressionUnder below else pure none
  return ⟨name, type, value, start.join (← before)⟩

/-- Reads what follows a name and the token after it, if that makes them the start of a
statement. -/
def targetUnder? (name : String) (start : Span) : TokenKind → Option (Parse Stmt)
  | .symbol .define => some do
    let value ← expressionUnder below
    return .define name value (start.join value.span)
  | .symbol .plusPlus => some do
    return .increment name true (start.join (← before))
  | .symbol .minusMinus => some do
    return .increment name false (start.join (← before))
  | kind => kind.assignment?.map fun op => do
    let value ← expressionUnder below
    return .assign name op value (start.join value.span)

/-- Reads a definition, an assignment or an expression. -/
def simpleUnder : Parse Stmt := fun c =>
  let target? := match c.kind, c.rest with
    | .identifier name, second :: _ => targetUnder? below name c.current.span second.kind
    | _, _ => none
  match target? with
  | some statement => statement c.advance.advance
  | none => (.expr <$> expressionUnder below) c

/-- Reads a choice, of which the current token is `if`. -/
def choiceUnder : Parse Stmt := do
  let start := (← next).span
  let condition ← expressionUnder below
  let thenBlock ← blockUnder below
  let elseBlock ←
    if ← peek (·.elseFollows) then
      skipSeparators
      let _ ← next
      if ← peek (·.isKeyword .ifK) then
        let first ← here
        let nested ← (← enter below).choice
        pure (some (.mk [nested] (first.join (← before))))
      else some <$> blockUnder below
    else pure none
  return .cond condition thenBlock elseBlock (start.join (← before))

/-- Reads a loop, of which the current token is `for`. -/
def loopUnder : Parse Stmt := do
  let start := (← next).span
  if ← peek (·.isSymbol .lbrace) then
    let body ← blockUnder below
    return .loop none none none body (start.join body.span)
  let init ← if ← peek (·.isSymbol .semicolon) then pure none else some <$> simpleUnder below
  if ← eat .semicolon then
    let condition ←
      if ← peek (·.isSymbol .semicolon) then pure none else some <$> expressionUnder below
    let _ ← symbol .semicolon .loopConditionEnd
    let post ← if ← peek (·.isSymbol .lbrace) then pure none else some <$> simpleUnder below
    let body ← blockUnder below
    return .loop init condition post body (start.join body.span)
  match init with
  | some (.expr condition) =>
    let body ← blockUnder below
    return .loop none (some condition) none body (start.join body.span)
  | _ => fail (.wanted .loopCondition)

/-- Reads `return` and the value after it, if there is one on the line. -/
def returnUnder : Parse Stmt := do
  let span := (← next).span
  if ← peek (fun c => c.isTerminator || c.isSymbol .rbrace) then return .ret none span
  let value ← expressionUnder below
  return .ret (some value) (span.join value.span)

/-- Reads a statement. -/
def statementUnder : Parse Stmt := fun c =>
  match c.kind with
  | .keyword .varK => (do
      let d ← variableUnder below
      return .var d.name d.type d.value d.span : Parse Stmt) c
  | .keyword .returnK => returnUnder below c
  | .keyword .breakK => .ok (.breakLoop c.current.span, c.advance)
  | .keyword .continueK => .ok (.continueLoop c.current.span, c.advance)
  | .keyword .ifK => choiceUnder below c
  | .keyword .forK => loopUnder below c
  | .symbol .lbrace => (.block <$> blockUnder below) c
  | _ => simpleUnder below c

/-- The readers at the depth above the given one. -/
def under : Level where
  expression := expressionUnder below
  unary := unaryUnder below
  calls := callsUnder below
  binary := binaryUnder below
  operators := operatorsUnder below
  block := blockUnder below
  choice := choiceUnder below
  statement := statementUnder below

end Below

/-- The readers where so many levels of nesting may still be opened. -/
def withRemaining : Nat → Level
  | 0 => under none
  | n + 1 => under (some (withRemaining n))

/-- The readers outside of any block or expression. -/
def top : Level :=
  withRemaining maxNesting

end Level

/-! ## Declarations -/

namespace Parse

/-- What one declaration of a program declares. -/
inductive Declaration where
  | imports (decls : List ImportDecl)
  | item (item : Item)

/-- Reads the path of an imported package. -/
def importPath : Parse ImportDecl := do
  let span ← here
  return ⟨← text .importPath, span⟩

/-- Reads an import of one package or of several in parentheses, of which the current token is the
keyword. -/
def importDecl : Parse (List ImportDecl) := do
  let _ ← next
  if ← eat .lparen then
    collect do
      skipSeparators
      if ← eat .rparen then return none
      return some (← importPath, true)
  else return [← importPath]

/-- Reads a package-level variable. -/
def varDecl : Parse VarDecl :=
  Level.variableUnder (some (.withRemaining (maxNesting - 1)))

/-- Reads a package-level function, of which the current token is the keyword. -/
def functionDecl : Parse FunctionDecl := do
  let start := (← next).span
  let name ← identifier .functionName
  let (params, result) ← signature
  let body ← Level.top.block
  return ⟨name, params, result, body, start⟩

/-- Reads a declaration. -/
def declaration : Parse Declaration := fun c =>
  match c.kind with
  | .keyword .importK => (.imports <$> importDecl) c
  | .keyword .varK => ((.item ∘ .var) <$> varDecl) c
  | .keyword .funcK => ((.item ∘ .function) <$> functionDecl) c
  | _ => fail (.wanted .declaration) c

/-- Reads declarations up to the end of the text. -/
def declarations : Parse (List Declaration) :=
  collect do
    skipSeparators
    if ← peek (·.isEof) then return none
    let d ← declaration
    terminator .declarationEnd
    return some (d, true)

/-- The program that consists of the given declarations. -/
def programOf (ds : List Declaration) : Program where
  imports := ds.flatMap fun
    | .imports decls => decls
    | .item _ => []
  items := ds.filterMap fun
    | .imports _ => none
    | .item i => some i

end Parse

/-- Reads a program from its tokens. -/
def Program.ofTokens (tokens : List Token) : Except ParseError Program :=
  match Cursor.ofTokens? tokens with
  | none => .error .noTokens
  | some c => (Parse.declarations c).map fun (ds, _) => Parse.programOf ds

end Formula
