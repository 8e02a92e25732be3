import Formula.Proofs.Constants.Value
import Formula.Proofs.Program.Node
import Formula.Typing.Program

/-!
# Where untyped constants stand

Each untyped constant of a program that is no operand of a larger one stands at a place where a type
is wanted, or none: that of the variable that it initialises or is assigned to, of the parameter
that it is given for, of the function that it is a result of, or of the operand on the other side of
an operator. Here this is told from the scopes of the program alone. What becomes a floating-point
number is marked somewhere else, by a checker that goes through the program in an order of its own.

## Main definitions

* `Expr.type?`: the type of an expression before anything is marked
* `Stmt.behind`: the scopes behind a statement
* `Slot`: a constant with the type that is wanted of it
* `Slot.Covers`: the constants in a constant
* `Expr.slots`, `Stmt.slots`, `Program.slots`: the constants in a program
* `FunctionDecl.entryResult`: what is wanted of the results of the entry function
-/

namespace Formula

open Program (Node)

/-! ## Types and scopes -/

/-- The type of what a predeclared function gives. -/
def Builtin.result : Builtin → Ty
  | .int | .len => .int
  | .float => .float
  | .string => .string

/-- **The type of an expression** before anything is marked; constants are integers then. -/
def Expr.type? (scopes : Scoped Ty) : Expr → Option Ty
  | .literal value _ => some (.ofScalar value.type)
  | .identifier name _ => scopes.find? name
  | .binary op left right _ =>
    if op.isComparison then some .bool
    else if left.isConstant then right.type? scopes
    else left.type? scopes
  | .unary _ operand _ => operand.type? scopes
  | .call callee _ _ =>
    match callee.type? scopes with
    | some (.builtin b) => some b.result
    | some (.function _ _ result) => some result
    | _ => none
  | .selector target member _ =>
    match scopes.find? target with
    | some (.package path) => (Package.member? path member).map Native.signature
    | _ => none
  | .function params result _ _ => (functionType params result).toOption

/-- Declares a name with a type, if there is one. -/
def Scoped.declareAs (scopes : Scoped Ty) (name : String) (type : Option Ty) : Scoped Ty :=
  match type with
  | some t => scopes.declare name t
  | none => scopes

/-- The type of a variable: the written one, or else that of its initial value. -/
def Expr.declaredType? (scopes : Scoped Ty) (type : Option TypeExpr) (value : Option Expr) :
    Option Ty :=
  match type with
  | some e => e.resolve.toOption
  | none => value.bind fun e => e.type? scopes

/-- The scopes behind a statement. -/
def Stmt.behind (scopes : Scoped Ty) : Stmt → Scoped Ty
  | .define name value _ => scopes.declareAs name (value.type? scopes)
  | .var name type value _ => scopes.declareAs name (Expr.declaredType? scopes type value)
  | _ => scopes

/-- The scopes behind a statement that may be missing. -/
def Stmt.behindIn (scopes : Scoped Ty) : Option Stmt → Scoped Ty
  | some s => s.behind scopes
  | none => scopes

/-- The scopes in the body of a function. -/
def Parameter.scopes (scopes : Scoped Ty) (params : List Parameter) : Scoped Ty :=
  params.foldl (fun scopes p => scopes.declareAs p.name p.type.resolve.toOption) scopes.push

/-! ## Slots -/

/-- **A constant with the type that is wanted of it**, if one is. -/
structure Slot where
  wanted : Option Ty
  expr : Expr

namespace Slot

/-- An expression where a type is wanted: it is a constant, or there are constants within it. -/
def ofExpr (wanted : Option Ty) (e : Expr) (within : List Slot) : List Slot :=
  if e.isConstant then [⟨wanted, e⟩] else within

/-- What is wanted of the operands of an operator between constants: a quotient or remainder is
computed with integers, wherever it stands. -/
def operands (wanted : Option Ty) : BinaryOp → Option Ty
  | .div | .mod => some .int
  | _ => wanted

/-- **The constants in a constant**, with the types that are wanted of them for its sake. -/
inductive Covers : Slot → Slot → Prop where
  | self {p} : Covers p p
  | operand {wanted operand span p} (h : Covers ⟨wanted, operand⟩ p) :
    Covers ⟨wanted, .unary .neg operand span⟩ p
  | left {wanted op left right span p} (h : Covers ⟨operands wanted op, left⟩ p) :
    Covers ⟨wanted, .binary op left right span⟩ p
  | right {wanted op left right span p} (h : Covers ⟨operands wanted op, right⟩ p) :
    Covers ⟨wanted, .binary op left right span⟩ p

end Slot

mutual

/-- The constants within an expression that is none itself. Of an operand the type of the other one
is wanted, of an argument that of its parameter; a predeclared function wants none. -/
def Expr.within (scopes : Scoped Ty) : Expr → List Slot
  | .literal _ _ | .identifier _ _ | .selector _ _ _ => []
  | .binary _ left right _ =>
    Slot.ofExpr (right.type? scopes) left (left.within scopes) ++
      Slot.ofExpr (left.type? scopes) right (right.within scopes)
  | .unary _ operand _ => Slot.ofExpr none operand (operand.within scopes)
  | .call function arguments _ =>
    Slot.ofExpr none function (function.within scopes) ++
      match function.type? scopes with
      | some (.function params variadic _) => Expr.withinArguments scopes variadic params arguments
      | _ => Expr.withinArguments scopes none [] arguments
  | .function params result (.mk statements _) _ =>
    Stmt.allSlots (resultType result).toOption (Parameter.scopes scopes params) statements

/-- The constants in arguments, for the types of the parameters and of further arguments. -/
def Expr.withinArguments (scopes : Scoped Ty) (variadic : Option Ty) (params : List Ty) :
    List Expr → List Slot
  | [] => []
  | a :: arguments =>
    Slot.ofExpr (params.head?.or variadic) a (a.within scopes) ++
      Expr.withinArguments scopes variadic params.tail arguments

/-- **The constants in a statement** of a function with the given result type. Of what is assigned
to a variable its type is wanted, and of an initial value the type that is written. -/
def Stmt.slots (result : Option Ty) (scopes : Scoped Ty) : Stmt → List Slot
  | .define _ value _ | .expr value => Slot.ofExpr none value (value.within scopes)
  | .var _ type value _ =>
    match value with
    | some e => Slot.ofExpr (type.bind fun t => t.resolve.toOption) e (e.within scopes)
    | none => []
  | .assign target _ value _ => Slot.ofExpr (scopes.find? target) value (value.within scopes)
  | .ret value _ =>
    match value with
    | some e => Slot.ofExpr result e (e.within scopes)
    | none => []
  | .increment _ _ _ | .breakLoop _ | .continueLoop _ => []
  | .cond condition (.mk thenStatements _) elseBlock _ =>
    Slot.ofExpr none condition (condition.within scopes) ++
      (Stmt.allSlots result scopes.push thenStatements ++
        match elseBlock with
        | some (.mk elseStatements _) => Stmt.allSlots result scopes.push elseStatements
        | none => [])
  | .loop init condition post (.mk statements _) _ =>
    (match init with
      | some i => i.slots result scopes.push
      | none => []) ++
    ((match condition with
      | some c => Slot.ofExpr none c (c.within (Stmt.behindIn scopes.push init))
      | none => []) ++
    ((match post with
      | some p => p.slots result (Stmt.behindIn scopes.push init)
      | none => []) ++
    Stmt.allSlots result (Stmt.behindIn (Stmt.behindIn scopes.push init) post).push statements))
  | .block (.mk statements _) => Stmt.allSlots result scopes.push statements

/-- The constants in statements, each in the scopes behind those before it. -/
def Stmt.allSlots (result : Option Ty) (scopes : Scoped Ty) : List Stmt → List Slot
  | [] => []
  | s :: ss => s.slots result scopes ++ Stmt.allSlots result (s.behind scopes) ss

end

/-- **The constants in an expression** of which a type is wanted, or none. -/
def Expr.slots (scopes : Scoped Ty) (wanted : Option Ty) (e : Expr) : List Slot :=
  Slot.ofExpr wanted e (e.within scopes)

/-- The constants in an expression that may be missing. -/
def Expr.slotsIn (scopes : Scoped Ty) (wanted : Option Ty) : Option Expr → List Slot
  | some e => e.slots scopes wanted
  | none => []

/-- The constants in a statement that may be missing. -/
def Stmt.slotsIn (result : Option Ty) (scopes : Scoped Ty) : Option Stmt → List Slot
  | some s => s.slots result scopes
  | none => []

/-- The constants in a block that may be missing. -/
def Block.slotsIn (result : Option Ty) (scopes : Scoped Ty) : Option Block → List Slot
  | some b => Stmt.allSlots result scopes.push b.statements
  | none => []

/-! ## Results -/

mutual

/-- The types of the results in a statement, without those of function literals in it. -/
def Stmt.results (scopes : Scoped Ty) : Stmt → List (Option Ty)
  | .ret value _ =>
    match value with
    | some e => [e.type? scopes]
    | none => []
  | .cond _ (.mk thenStatements _) elseBlock _ =>
    Stmt.allResults scopes.push thenStatements ++
      match elseBlock with
      | some (.mk elseStatements _) => Stmt.allResults scopes.push elseStatements
      | none => []
  | .loop init _ post (.mk statements _) _ =>
    (match init with
      | some i => i.results scopes.push
      | none => []) ++
    ((match post with
      | some p => p.results (Stmt.behindIn scopes.push init)
      | none => []) ++
    Stmt.allResults (Stmt.behindIn (Stmt.behindIn scopes.push init) post).push statements)
  | .block (.mk statements _) => Stmt.allResults scopes.push statements
  | _ => []

/-- The types of the results in statements. -/
def Stmt.allResults (scopes : Scoped Ty) : List Stmt → List (Option Ty)
  | [] => []
  | s :: ss => s.results scopes ++ Stmt.allResults (s.behind scopes) ss

end

/-- The types of the results in a statement that may be missing. -/
def Stmt.resultsIn (scopes : Scoped Ty) : Option Stmt → List (Option Ty)
  | some s => s.results scopes
  | none => []

/-- The types of the results in a block that may be missing. -/
def Block.resultsIn (scopes : Scoped Ty) : Option Block → List (Option Ty)
  | some b => Stmt.allResults scopes.push b.statements
  | none => []

/-! ## Programs -/

/-- **What is wanted of the results of the entry function**: the written type, or else a
floating-point number if one of the results is one, and the type of the first of them if not. -/
def FunctionDecl.entryResult (scopes : Scoped Ty) (d : FunctionDecl) : Option Ty :=
  match d.result with
  | some e => e.resolve.toOption
  | none =>
    let types := Stmt.allResults scopes.push d.body.statements
    if some .float ∈ types then some .float else types.head?.join

/-- The constants in a function of a program. The entry function has no parameters. -/
def FunctionDecl.slots (entryPoint : String) (scopes : Scoped Ty) (d : FunctionDecl) :
    List Slot :=
  if d.name = entryPoint then
    Stmt.allSlots (d.entryResult scopes) scopes.push d.body.statements
  else
    Stmt.allSlots (resultType d.result).toOption (Parameter.scopes scopes d.params) d.body.statements

/-- The scopes behind package-level variables. -/
def VarDecl.behind (scopes : Scoped Ty) : List VarDecl → Scoped Ty
  | [] => scopes
  | d :: vars =>
    VarDecl.behind (scopes.declareAs d.name (Expr.declaredType? scopes d.type d.value)) vars

/-- The constants in package-level variables. -/
def VarDecl.slots (scopes : Scoped Ty) : List VarDecl → List Slot
  | [] => []
  | d :: vars =>
    Expr.slotsIn scopes (d.type.bind fun t => t.resolve.toOption) d.value ++
      VarDecl.slots (scopes.declareAs d.name (Expr.declaredType? scopes d.type d.value)) vars

/-- The scopes with the imports and functions of a program. -/
def Program.declaredScopes (p : Program) (entryPoint : String) : Scoped Ty :=
  let scopes := p.imports.foldl (fun scopes i => scopes.declare i.binding (.package i.path))
    universeScopes
  p.functions.foldl (fun scopes d =>
    if d.name = entryPoint then scopes
    else scopes.declareAs d.name (functionType d.params d.result).toOption) scopes

/-- **The constants in a program**: those in its variables and those in its functions. -/
def Program.slots (p : Program) (entryPoint : String) : List Slot :=
  let scopes := p.declaredScopes entryPoint
  VarDecl.slots scopes p.vars ++
    p.functions.flatMap (FunctionDecl.slots entryPoint (VarDecl.behind scopes p.vars))

/-! ## Form by form -/

theorem Stmt.slots_var (result : Option Ty) (scopes : Scoped Ty) (name : String)
    (type : Option TypeExpr) (value : Option Expr) (span : Span) :
    (var name type value span).slots result scopes =
      Expr.slotsIn scopes (type.bind fun t => t.resolve.toOption) value := by
  cases value <;> simp only [slots, Expr.slotsIn, Expr.slots]

theorem Stmt.slots_ret (result : Option Ty) (scopes : Scoped Ty) (value : Option Expr) (span : Span) :
    (ret value span).slots result scopes = Expr.slotsIn scopes result value := by
  cases value <;> simp only [slots, Expr.slotsIn, Expr.slots]

theorem Stmt.slots_cond (result : Option Ty) (scopes : Scoped Ty) (condition : Expr)
    (thenStatements : List Stmt) (thenSpan : Span) (elseBlock : Option Block) (span : Span) :
    (cond condition (.mk thenStatements thenSpan) elseBlock span).slots result scopes =
      condition.slots scopes none ++
        (allSlots result scopes.push thenStatements ++ Block.slotsIn result scopes elseBlock) := by
  rcases elseBlock with _ | ⟨_, _⟩ <;>
    simp only [slots, Expr.slots, Block.slotsIn, Block.statements]

theorem Stmt.slots_loop (result : Option Ty) (scopes : Scoped Ty) (init : Option Stmt)
    (condition : Option Expr) (post : Option Stmt) (statements : List Stmt) (bodySpan span : Span) :
    (loop init condition post (.mk statements bodySpan) span).slots result scopes =
      slotsIn result scopes.push init ++
        (Expr.slotsIn (behindIn scopes.push init) none condition ++
          (slotsIn result (behindIn scopes.push init) post ++
            allSlots result (behindIn (behindIn scopes.push init) post).push statements)) := by
  cases init <;> cases condition <;> cases post <;>
    simp only [slots, slotsIn, Expr.slotsIn, Expr.slots, behindIn]

theorem Stmt.results_cond (scopes : Scoped Ty) (condition : Expr) (thenStatements : List Stmt)
    (thenSpan : Span) (elseBlock : Option Block) (span : Span) :
    (cond condition (.mk thenStatements thenSpan) elseBlock span).results scopes =
      allResults scopes.push thenStatements ++ Block.resultsIn scopes elseBlock := by
  rcases elseBlock with _ | ⟨_, _⟩ <;> simp only [results, Block.resultsIn, Block.statements]

theorem Stmt.results_loop (scopes : Scoped Ty) (init : Option Stmt) (condition : Option Expr)
    (post : Option Stmt) (statements : List Stmt) (bodySpan span : Span) :
    (loop init condition post (.mk statements bodySpan) span).results scopes =
      resultsIn scopes.push init ++ (resultsIn (behindIn scopes.push init) post ++
        allResults (behindIn (behindIn scopes.push init) post).push statements) := by
  cases init <;> cases post <;> simp only [results, resultsIn, behindIn]

end Formula
