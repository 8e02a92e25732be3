import Formula.Program.Grammar

/-!
# Reading by index

The grammar once more, as a machine that stands at an index into the list of tokens and counts how
many blocks and expressions it is in. Loops are loops, levels of nesting are opened and closed one by
one, and an error may leave some of them open. What the cursor rules out by its type can go wrong
here: there may be no token at the index, more levels may be closed than are open, and a loop or a
recursion may go on for ever. All of these are slips, which are no errors of the text.

## Main definitions

* `Stand`, `Slip`, `Indexed`: machines and what must not happen to them
* `Indexed.Calls`, `Indexed.under`: the readers, and what they call when a level has been opened
* `Indexed.program`: a program from its tokens
-/

namespace Formula

/-- The index of the current token, and how many levels of nesting are open. -/
structure Stand where
  index : Nat
  depth : Nat
deriving Repr, DecidableEq

/-- What must not happen to a machine. -/
inductive Slip where
  /-- There is no token where one is looked up. -/
  | outOfRange
  /-- More levels of nesting are closed than are open. -/
  | underflow
  /-- A loop or a recursion goes on for longer than it may. -/
  | endless
  /-- A keyword is taken for granted that is not there. -/
  | unseen
deriving Repr, DecidableEq

/-- A reader that stands at an index. -/
abbrev Indexed := ExceptT ParseError (StateT Stand (Except Slip))

namespace Indexed

variable {α σ : Type}

/-- What must not happen. -/
def slip (f : Slip) : Indexed α := fun _ => .error f

/-! ## Levels of nesting -/

/-- Closes levels of nesting. -/
def leave (levels : Nat) : Indexed Unit := fun s =>
  if s.depth < levels then .error .underflow else .ok (.ok (), { s with depth := s.depth - levels })

/-- Closes a level of nesting behind a reader, also if it has failed. -/
def closing (p : Indexed α) : Indexed α := fun s =>
  match p s with
  | .error f => .error f
  | .ok (r, s) =>
    if s.depth = 0 then .error .underflow else .ok (r, { s with depth := s.depth - 1 })

/-! ## Loops -/

/-- Repeats a reader until it gives nothing or says that nothing follows, but not for more than so
many rounds. What it gives is added to what was read before. -/
def loop (step : Indexed (Option (α × Bool))) (add : σ → α → σ) (read : σ) : Nat → Indexed σ
  | 0 => slip .endless
  | rounds + 1 => do
    match ← step with
    | none => return read
    | some (a, more) => if more then loop step add (add read a) rounds else return add read a

/-- Repeats a reader and puts what it gives into a list. -/
def collect (step : Indexed (Option (α × Bool))) (rounds : Nat) : Indexed (List α) :=
  loop step (fun read a => read ++ [a]) [] rounds

section Tokens

variable (tokens : List Token)

/-! ## Single tokens -/

/-- The current token; behind the last one it is the last one. -/
def current : Indexed Token := fun s =>
  match tokens[min s.index (tokens.length - 1)]? with
  | none => .error .outOfRange
  | some t => .ok (.ok t, s)

/-- The token at the index, behind which the machine goes on; the last one is never left. -/
def advance : Indexed Token := fun s =>
  match tokens[s.index]? with
  | none => .error .outOfRange
  | some t =>
    .ok (.ok t, if s.index + 1 < tokens.length then { s with index := s.index + 1 } else s)

/-- Moves on by two tokens, whatever they are. -/
def jump : Indexed Unit := fun s =>
  .ok (.ok (), { s with index := s.index + 2 })

/-- The span of the token before an index; before the first one it is none of the text. -/
def spanBefore? : Nat → Option Span
  | 0 => some .nowhere
  | index + 1 => tokens[index]?.map (·.span)

/-- The span of the token that was read last. -/
def before : Indexed Span := fun s =>
  match spanBefore? tokens s.index with
  | none => .error .outOfRange
  | some span => .ok (.ok span, s)

/-- Whether there is a token at the index of which a condition holds. -/
def peek (test : TokenKind → Bool) : Indexed Bool := fun s =>
  .ok (.ok ((tokens[s.index]?).any (test ·.kind)), s)

/-- Whether the first token from the index on that is not a line end is `else`. -/
def elseFollows : Indexed Bool := fun s =>
  .ok (.ok (((tokens.drop s.index).dropWhile (·.kind == .newline)).head?.any
    (·.kind == .keyword .elseK)), s)

/-- Fails at the current token. -/
def fail (cause : ParseCause) : Indexed α := do
  throw (.at cause (← current tokens))

/-- Opens a level of nesting. -/
def enter : Indexed Unit := do
  modifyGet fun s => ((), { s with depth := s.depth + 1 })
  if maxNesting < (← get).depth then fail tokens .nestingTooDeep

/-- Reads one level of nesting further down, and leaves it even if reading fails. -/
def nested (p : Indexed α) : Indexed α := do
  enter tokens
  closing p

/-- Reads a symbol if it is the current token, and says whether it was. -/
def eat (s : Symbol) : Indexed Bool := do
  if ← peek tokens (· == .symbol s) then
    let _ ← advance tokens
    return true
  else return false

/-- Reads a symbol. -/
def symbol (s : Symbol) (what : Wanted) : Indexed Token := do
  if ← peek tokens (· == .symbol s) then advance tokens else fail tokens (.wanted what)

/-- Reads a keyword that was seen before. -/
def keyword (k : Keyword) : Indexed Token := do
  if ← peek tokens (· == .keyword k) then advance tokens else slip .unseen

/-- Reads a name. -/
def identifier (what : Wanted) : Indexed String := do
  match (← current tokens).kind with
  | .identifier name =>
    let _ ← advance tokens
    return name
  | _ => fail tokens (.wanted what)

/-- Reads a text constant. -/
def text (what : Wanted) : Indexed String := do
  match (← current tokens).kind with
  | .constant (.string value) =>
    let _ ← advance tokens
    return value
  | _ => fail tokens (.wanted what)

/-- Whether a token separates statements. -/
def isSeparator (k : TokenKind) : Bool :=
  k == .newline || k == .symbol .semicolon

/-- Whether a statement can end before a token. -/
def isTerminator (k : TokenKind) : Bool :=
  isSeparator k || k == .eof

/-- Whether a token can start a type. -/
def startsType (k : TokenKind) : Bool :=
  match k with
  | .identifier _ | .keyword .funcK => true
  | _ => false

/-- Whether the current token is the end of the text. -/
def isEof : Indexed Bool := do
  return (← current tokens).kind == .eof

/-- Reads what separates two statements; at the end of the text nothing is needed. -/
def terminator (what : Wanted) : Indexed Unit := do
  if ← isEof tokens then return
  if ← peek tokens isTerminator then
    let _ ← advance tokens
    return
  fail tokens (.wanted what)

/-- Skips separators, but not more than so many. -/
def skipSeparatorsFor : Nat → Indexed Unit
  | 0 => slip .endless
  | rounds + 1 => do
    if ← peek tokens isSeparator then
      let _ ← advance tokens
      skipSeparatorsFor rounds

/-- How many rounds a loop may go on for: no loop takes more than there are tokens. -/
def rounds : Nat :=
  tokens.length + 1

/-- Skips separators. -/
def skipSeparators : Indexed Unit :=
  skipSeparatorsFor tokens (rounds tokens)

/-- Reads what is separated by commas up to a closing parenthesis, which is left. -/
def commaSeparated (item : Indexed α) : Indexed (List α) :=
  collect (do
    if ← peek tokens (· == .symbol .rparen) then return none
    let a ← item
    return some (a, ← eat tokens .comma)) (rounds tokens)

/-! ## Types -/

/-- Reads a type, in which function types may lie within each other only so deep. -/
def typeExprWith : Nat → Indexed TypeExpr
  | 0 => slip .endless
  | levels + 1 => do
    let span := (← current tokens).span
    if ← peek tokens (· == .keyword .funcK) then
      let _ ← advance tokens
      let _ ← symbol tokens .lparen .functionTypeOpen
      let params ← commaSeparated tokens (typeExprWith levels)
      let _ ← symbol tokens .rparen .functionTypeClose
      let result ←
        if ← peek tokens startsType then some <$> typeExprWith levels else pure none
      return .function params result (span.join (← before tokens))
    else return .named (← identifier tokens .typeName) span

/-- Reads a type. -/
def typeExpr : Indexed TypeExpr :=
  typeExprWith tokens (rounds tokens)

/-- Reads a name in a list of parameters, and the type that follows it, if one does. -/
def parameterName : Indexed (Option (Parse.ParameterName × Bool)) := do
  if ← peek tokens (· == .symbol .rparen) then return none
  let span := (← current tokens).span
  let name ← identifier tokens .parameterName
  if ← eat tokens .comma then return some (⟨name, span, none⟩, true)
  if ← peek tokens (· == .symbol .rparen) then return some (⟨name, span, none⟩, false)
  let type ← typeExpr tokens
  return some (⟨name, span, some type⟩, ← eat tokens .comma)

/-- The parameters of the names that share a type. -/
def typed (names : List (String × Span)) (type : TypeExpr) : List Parameter :=
  names.map fun (name, span) => ⟨name, type, span⟩

/-- What was read of a list of parameters: those that have their type, and the names that wait for
theirs. A type is that of all the names that wait. -/
def addName (read : List Parameter × List (String × Span)) (p : Parse.ParameterName) :
    List Parameter × List (String × Span) :=
  let waiting := read.2 ++ [(p.name, p.span)]
  match p.type with
  | none => (read.1, waiting)
  | some type => (read.1 ++ typed waiting type, [])

/-- Reads a list of parameters. No name may wait for its type in the end. -/
def parameters : Indexed (List Parameter) := do
  let (params, waiting) ← loop (parameterName tokens) addName ([], []) (rounds tokens)
  match waiting with
  | [] => return params
  | (name, span) :: _ => throw (.untypedParameter name span)

/-- Reads the parameters and the result type of a function. -/
def signature : Indexed (List Parameter × Option TypeExpr) := do
  let _ ← symbol tokens .lparen .parameterListOpen
  let params ← parameters tokens
  let _ ← symbol tokens .rparen .parameterListClose
  if ← peek tokens (· == .symbol .lbrace) then return (params, none)
  if ← peek tokens isTerminator then return (params, none)
  return (params, some (← typeExpr tokens))

/-! ## Expressions and statements -/

/-- The readers that are called when a level of nesting has been opened. -/
structure Calls where
  expression : Indexed Expr
  unary : Indexed Expr
  binary : Nat → Indexed Expr
  choice : Indexed Stmt
  statement : Indexed Stmt

section Below

variable (below : Calls)

/-- Reads an expression. -/
def expressionUnder : Indexed Expr :=
  nested tokens (below.binary 1)

/-- Reads a block whose level has been opened. -/
def openedBlock : Indexed Block := do
  let opening ← symbol tokens .lbrace .blockOpen
  let statements ← collect (do
    skipSeparators tokens
    if ← peek tokens (· == .symbol .rbrace) then return none
    if ← isEof tokens then return none
    let s ← below.statement
    if !(← peek tokens (· == .symbol .rbrace)) then terminator tokens .statementEnd
    return some (s, true)) (rounds tokens)
  let _ ← symbol tokens .rbrace .blockClose
  return .mk statements (opening.span.join (← before tokens))

/-- Reads a block. -/
def blockUnder : Indexed Block :=
  nested tokens (openedBlock tokens below)

/-- Reads a function without a name. -/
def functionUnder : Indexed Expr := do
  let start := (← keyword tokens .funcK).span
  let (params, result) ← signature tokens
  let body ← blockUnder tokens below
  return .function params result body (start.join body.span)

/-- Reads a constant, a name, an expression in parentheses or a function. -/
def primaryUnder : Indexed Expr := do
  let token ← current tokens
  match token.kind with
  | .constant value =>
    let _ ← advance tokens
    return .literal value token.span
  | .identifier name =>
    let _ ← advance tokens
    return .identifier name token.span
  | .symbol .lparen =>
    let _ ← advance tokens
    let inner ← expressionUnder tokens below
    let _ ← symbol tokens .rparen .parenthesisClose
    return inner
  | .keyword .funcK => functionUnder tokens below
  | _ => fail tokens .notAnExpression

/-- Goes on from an expression with argument lists and members. Each argument list opens a level;
`chained` of them are open, and all are closed at the end. -/
def postfixFrom (e : Expr) (chained : Nat) : Nat → Indexed Expr
  | 0 => slip .endless
  | rounds + 1 => do
    if ← eat tokens .lparen then
      enter tokens
      let arguments ← commaSeparated tokens below.expression
      let _ ← symbol tokens .rparen .argumentsClose
      postfixFrom (.call e arguments (e.span.join (← before tokens))) (chained + 1) rounds
    else if ← peek tokens (· == .symbol .dot) then
      match e with
      | .identifier target span =>
        let _ ← advance tokens
        let member ← identifier tokens .memberName
        postfixFrom (.selector target member (span.join (← before tokens))) chained rounds
      | _ => fail tokens .selectorTarget
    else
      leave chained
      return e

/-- Reads an operand with what follows it. -/
def postfixUnder : Indexed Expr := do
  postfixFrom tokens below (← primaryUnder tokens below) 0 (rounds tokens)

/-- Reads an operator and its operand. -/
def operator (op : UnaryOp) : Indexed Expr := do
  let start := (← advance tokens).span
  enter tokens
  let operand ← below.unary
  leave 1
  return .unary op operand (start.join operand.span)

/-- Reads an operand with the operators before it. -/
def unaryUnder : Indexed Expr := do
  if ← peek tokens (· == .symbol .minus) then operator tokens below .neg
  else if ← peek tokens (· == .symbol .bang) then operator tokens below .not
  else if ← eat tokens .plus then nested tokens below.unary
  else postfixUnder tokens below

/-- Goes on from an operand with operators that bind at least as tightly as `least`. Each operator
opens a level; `chained` of them are open, and all are closed at the end. -/
def operatorsFrom (least : Nat) (left : Expr) (chained : Nat) : Nat → Indexed Expr
  | 0 => slip .endless
  | rounds + 1 => do
    match (← current tokens).kind.binaryOp? with
    | none =>
      leave chained
      return left
    | some op =>
      if op.precedence < least then
        leave chained
        return left
      else
        let _ ← advance tokens
        enter tokens
        let right ← below.binary (op.precedence + 1)
        operatorsFrom least (.binary op left right (left.span.join right.span)) (chained + 1) rounds

/-- Reads operands between operators that bind at least as tightly as `least`. -/
def binaryUnder (least : Nat) : Indexed Expr := do
  operatorsFrom tokens below least (← unaryUnder tokens below) 0 (rounds tokens)

/-- Reads a declaration of a variable. -/
def variableUnder : Indexed VarDecl := do
  let start := (← keyword tokens .varK).span
  let name ← identifier tokens .variableName
  let type ← if ← peek tokens (· == .symbol .equals) then pure none else some <$> typeExpr tokens
  let value ← if ← eat tokens .equals then some <$> expressionUnder tokens below else pure none
  return ⟨name, type, value, start.join (← before tokens)⟩

/-- Reads a statement that begins with a name and a token of the given kind, if there is one. -/
def targetUnder? (name : String) (start : Span) : TokenKind → Option (Indexed Stmt)
  | .symbol .define => some do
    jump
    let value ← expressionUnder tokens below
    return .define name value (start.join value.span)
  | .symbol .plusPlus => some do
    jump
    return .increment name true (start.join (← before tokens))
  | .symbol .minusMinus => some do
    jump
    return .increment name false (start.join (← before tokens))
  | kind => kind.assignment?.map fun op => do
    jump
    let value ← expressionUnder tokens below
    return .assign name op value (start.join value.span)

/-- The token behind the index, if there is one. -/
def second? : Indexed (Option Token) := fun s =>
  .ok (.ok tokens[s.index + 1]?, s)

/-- Reads a definition, an assignment or an expression. -/
def simpleUnder : Indexed Stmt := do
  let token ← current tokens
  let second ← second? tokens
  let target? := match token.kind, second with
    | .identifier name, some second => targetUnder? tokens below name token.span second.kind
    | _, _ => none
  match target? with
  | some statement => statement
  | none => .expr <$> expressionUnder tokens below

/-- Where a choice stands. -/
def choiceSpan : Stmt → Span
  | .cond _ _ _ span => span
  | _ => .nowhere

/-- Reads a choice. -/
def choiceUnder : Indexed Stmt := do
  let start := (← keyword tokens .ifK).span
  let condition ← expressionUnder tokens below
  let thenBlock ← blockUnder tokens below
  let elseBlock ←
    if ← elseFollows tokens then
      skipSeparators tokens
      let _ ← keyword tokens .elseK
      if ← peek tokens (· == .keyword .ifK) then
        let choice ← nested tokens below.choice
        pure (some (.mk [choice] (choiceSpan choice)))
      else some <$> blockUnder tokens below
    else pure none
  return .cond condition thenBlock elseBlock (start.join (← before tokens))

/-- Reads a loop. -/
def loopUnder : Indexed Stmt := do
  let start := (← keyword tokens .forK).span
  if ← peek tokens (· == .symbol .lbrace) then
    let body ← blockUnder tokens below
    return .loop none none none body (start.join body.span)
  let init ← if ← peek tokens (· == .symbol .semicolon) then pure none
    else some <$> simpleUnder tokens below
  if ← eat tokens .semicolon then
    let condition ← if ← peek tokens (· == .symbol .semicolon) then pure none
      else some <$> expressionUnder tokens below
    let _ ← symbol tokens .semicolon .loopConditionEnd
    let post ← if ← peek tokens (· == .symbol .lbrace) then pure none
      else some <$> simpleUnder tokens below
    let body ← blockUnder tokens below
    return .loop init condition post body (start.join body.span)
  match init with
  | some (.expr condition) =>
    let body ← blockUnder tokens below
    return .loop none (some condition) none body (start.join body.span)
  | _ => fail tokens (.wanted .loopCondition)

/-- Reads `return` and the value after it, if there is one on the line. -/
def returnUnder : Indexed Stmt := do
  let span := (← keyword tokens .returnK).span
  if ← peek tokens isTerminator then return .ret none span
  if ← peek tokens (· == .symbol .rbrace) then return .ret none span
  let value ← expressionUnder tokens below
  return .ret (some value) (span.join value.span)

/-- Reads a statement. -/
def statementUnder : Indexed Stmt := do
  if ← peek tokens (· == .keyword .varK) then
    let d ← variableUnder tokens below
    return .var d.name d.type d.value d.span
  else if ← peek tokens (· == .keyword .returnK) then returnUnder tokens below
  else if ← peek tokens (· == .keyword .breakK) then
    return .breakLoop (← keyword tokens .breakK).span
  else if ← peek tokens (· == .keyword .continueK) then
    return .continueLoop (← keyword tokens .continueK).span
  else if ← peek tokens (· == .keyword .ifK) then choiceUnder tokens below
  else if ← peek tokens (· == .keyword .forK) then loopUnder tokens below
  else if ← peek tokens (· == .symbol .lbrace) then .block <$> blockUnder tokens below
  else simpleUnder tokens below

/-- The readers that call those given when a level of nesting has been opened. -/
def under : Calls where
  expression := expressionUnder tokens below
  unary := unaryUnder tokens below
  binary := binaryUnder tokens below
  choice := choiceUnder tokens below
  statement := statementUnder tokens below

end Below

/-- The readers that call one another only so deep. -/
def calls : Nat → Calls
  | 0 => ⟨slip .endless, slip .endless, fun _ => slip .endless, slip .endless, slip .endless⟩
  | levels + 1 => under tokens (calls levels)

/-- What the readers call outside of any block or expression. -/
def top : Calls :=
  calls tokens maxNesting

/-! ## Declarations -/

/-- Reads the path of an imported package. -/
def importPath : Indexed ImportDecl := do
  let span := (← current tokens).span
  return ⟨← text tokens .importPath, span⟩

/-- Reads an import of one package or of several in parentheses. -/
def importDecl : Indexed (List ImportDecl) := do
  let _ ← keyword tokens .importK
  if ← eat tokens .lparen then
    collect (do
      skipSeparators tokens
      if ← eat tokens .rparen then return none
      return some (← importPath tokens, true)) (rounds tokens)
  else return [← importPath tokens]

/-- Reads a package-level function. -/
def functionDecl : Indexed FunctionDecl := do
  let start := (← keyword tokens .funcK).span
  let name ← identifier tokens .functionName
  let (params, result) ← signature tokens
  let body ← blockUnder tokens (top tokens)
  return ⟨name, params, result, body, start⟩

/-- Reads a declaration. -/
def declaration : Indexed Parse.Declaration := do
  if ← peek tokens (· == .keyword .importK) then .imports <$> importDecl tokens
  else if ← peek tokens (· == .keyword .varK) then
    (.item ∘ .var) <$> variableUnder tokens (top tokens)
  else if ← peek tokens (· == .keyword .funcK) then (.item ∘ .function) <$> functionDecl tokens
  else fail tokens (.wanted .declaration)

/-- Reads declarations up to the end of the text. -/
def declarations : Indexed (List Parse.Declaration) :=
  collect (do
    skipSeparators tokens
    if ← isEof tokens then return none
    let d ← declaration tokens
    terminator tokens .declarationEnd
    return some (d, true)) (rounds tokens)

/-- Reads a program from its tokens, from the first one on and outside of any block or expression. -/
def program : Except Slip (Except ParseError Program × Stand) :=
  if tokens.isEmpty then .ok (.error .noTokens, ⟨0, 0⟩)
  else (Parse.programOf <$> declarations tokens) ⟨0, 0⟩

end Tokens

end Indexed

end Formula
