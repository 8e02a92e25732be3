import Formula.Typing.Program

/-!
# Typing rules

What it means for a program to be well typed, apart from how the checker finds it out. The rules
know from the start which integers are computed as floating-point numbers, and give every expression
the type of the value that it has when the program runs.

## Main definitions

* `Ty.computedAt`: the type of what is computed at a place
* `Expr.Typed`, `Expr.ArgumentsTyped`: an expression has a type, arguments fit parameters
* `Expr.Declared`: a variable has a type by its declaration
* `Stmt.declares`: a statement declares a variable
* `Stmt.Typed`, `Stmt.AllTyped`: a statement fits its function and leads from scopes to scopes
-/

namespace Formula

/-- The type of what is computed with the type `t` at a place, where `floats` are the places of
integers that become floating-point numbers. -/
def Ty.computedAt (floats : List Span) (span : Span) (t : Ty) : Ty :=
  if t = .int ∧ span ∈ floats then .float else t

/-- Whether a statement declares a variable in the scope that it stands in. -/
def Stmt.declares : Stmt → Bool
  | .define .. | .var .. => true
  | _ => false

mutual

/-- **An expression has a type** in given scopes. -/
inductive Expr.Typed (floats : List Span) : Scoped Ty → Expr → Ty → Prop where
  | literal {scopes value span} :
    Expr.Typed floats scopes (.literal value span) ((Ty.ofScalar value.type).computedAt floats span)
  | identifier {scopes name span t} (found : scopes.find? name = some t) :
    Expr.Typed floats scopes (.identifier name span) t
  | binary {scopes op left right span l r t} (hleft : Expr.Typed floats scopes left l)
    (hright : Expr.Typed floats scopes right r) (hop : operationType op l r span = .ok t) :
    Expr.Typed floats scopes (.binary op left right span) (t.computedAt floats span)
  | unary {scopes op operand span t u} (hoperand : Expr.Typed floats scopes operand t)
    (hop : unaryType op t span = .ok u) : Expr.Typed floats scopes (.unary op operand span) u
  | selector {scopes target member span path n}
    (found : scopes.find? target = some (.package path))
    (hmember : Package.member? path member = some n) :
    Expr.Typed floats scopes (.selector target member span) n.signature
  /-- A predeclared function is called with one argument. -/
  | builtin {scopes function argument span b t u}
    (hfunction : Expr.Typed floats scopes function (.builtin b))
    (hargument : Expr.Typed floats scopes argument t)
    (hresult : builtinResult b t argument.span = .ok u) :
    Expr.Typed floats scopes (.call function [argument] span) u
  | call {scopes function arguments span params variadic result}
    (hfunction : Expr.Typed floats scopes function (.function params variadic result))
    (harguments : Expr.ArgumentsTyped floats scopes variadic params arguments) :
    Expr.Typed floats scopes (.call function arguments span) result
  /-- A function whose body fits its result type and does not come to an end without a result. -/
  | function {scopes inner params result statements bodySpan span ps r}
    (hparams : TypeExpr.resolveAll (params.map (·.type)) = .ok ps)
    (hresult : resultType result = .ok r)
    (hinner : declareParams scopes.push params = .ok inner)
    (hbody : Stmt.AllTyped floats r false inner statements)
    (hend : r = .void ∨ lastTerminates statements = true) :
    Expr.Typed floats scopes (.function params result (.mk statements bodySpan) span)
      (.function ps none r)

/-- **Arguments fit the types of parameters**, and those beyond them the type `variadic`. -/
inductive Expr.ArgumentsTyped (floats : List Span) :
    Scoped Ty → Option Ty → List Ty → List Expr → Prop where
  | nil {scopes variadic} : Expr.ArgumentsTyped floats scopes variadic [] []
  | param {scopes variadic p ps argument arguments t}
    (hargument : Expr.Typed floats scopes argument t) (haccepts : p.accepts t = true)
    (harguments : Expr.ArgumentsTyped floats scopes variadic ps arguments) :
    Expr.ArgumentsTyped floats scopes variadic (p :: ps) (argument :: arguments)
  | further {scopes p argument arguments t} (hargument : Expr.Typed floats scopes argument t)
    (haccepts : p.accepts t = true)
    (harguments : Expr.ArgumentsTyped floats scopes (some p) [] arguments) :
    Expr.ArgumentsTyped floats scopes (some p) [] (argument :: arguments)

/-- **A variable has a type** by the written type, the value or both that it is declared with. -/
inductive Expr.Declared (floats : List Span) :
    Scoped Ty → Option TypeExpr → Option Expr → Ty → Prop where
  | both {scopes type value t} (htype : type.resolve = .ok t)
    (hvalue : Expr.Typed floats scopes value t) :
    Expr.Declared floats scopes (some type) (some value) t
  | value {scopes value t} (hvalue : Expr.Typed floats scopes value t) (ht : t.isValue = true) :
    Expr.Declared floats scopes none (some value) t
  | type {scopes type t} (htype : type.resolve = .ok t) :
    Expr.Declared floats scopes (some type) none t

/-- **A statement fits a function** with the result type `result`, within a loop or not, and leads
from the scopes before it to those behind it. -/
inductive Stmt.Typed (floats : List Span) : Ty → Bool → Scoped Ty → Stmt → Scoped Ty → Prop where
  | define {result inLoop scopes name value span t} (hvalue : Expr.Typed floats scopes value t)
    (ht : t.isValue = true) :
    Stmt.Typed floats result inLoop scopes (.define name value span) (scopes.declare name t)
  | var {result inLoop scopes name type value span t}
    (hdeclared : Expr.Declared floats scopes type value t) :
    Stmt.Typed floats result inLoop scopes (.var name type value span) (scopes.declare name t)
  | assign {result inLoop scopes target value span t} (found : scopes.find? target = some t)
    (hvalue : Expr.Typed floats scopes value t) :
    Stmt.Typed floats result inLoop scopes (.assign target none value span) scopes
  | update {result inLoop scopes target op value span t u} (found : scopes.find? target = some t)
    (hvalue : Expr.Typed floats scopes value u) (hop : operationType op t u span = .ok t) :
    Stmt.Typed floats result inLoop scopes (.assign target (some op) value span) scopes
  | increment {result inLoop scopes target up span t} (found : scopes.find? target = some t)
    (ht : t.isNumeric = true) :
    Stmt.Typed floats result inLoop scopes (.increment target up span) scopes
  | expr {result inLoop scopes value t} (hvalue : Expr.Typed floats scopes value t) :
    Stmt.Typed floats result inLoop scopes (.expr value) scopes
  | ret {result inLoop scopes value span t} (hvalue : Expr.Typed floats scopes value t)
    (haccepts : result.accepts t = true) :
    Stmt.Typed floats result inLoop scopes (.ret (some value) span) scopes
  | retVoid {inLoop scopes span} : Stmt.Typed floats .void inLoop scopes (.ret none span) scopes
  | breakLoop {result scopes span} : Stmt.Typed floats result true scopes (.breakLoop span) scopes
  | continueLoop {result scopes span} :
    Stmt.Typed floats result true scopes (.continueLoop span) scopes
  | cond {result inLoop scopes condition thenStatements thenSpan elseBlock span}
    (hcondition : Expr.Typed floats scopes condition .bool)
    (hthen : Stmt.AllTyped floats result inLoop scopes.push thenStatements)
    (helse : ∀ b : Block, b ∈ elseBlock →
      Stmt.AllTyped floats result inLoop scopes.push b.statements) :
    Stmt.Typed floats result inLoop scopes
      (.cond condition (.mk thenStatements thenSpan) elseBlock span) scopes
  /-- A loop, of which what is done after the rounds declares nothing. -/
  | loop {result inLoop scopes inner init condition post statements bodySpan span}
    (hinit : ∀ i ∈ init, Stmt.Typed floats result inLoop scopes.push i inner)
    (hnone : init = none → inner = scopes.push)
    (hcondition : ∀ c ∈ condition, Expr.Typed floats inner c .bool)
    (hpost : ∀ p ∈ post, Stmt.Typed floats result inLoop inner p inner)
    (hkeeps : ∀ p ∈ post, p.declares = false)
    (hbody : Stmt.AllTyped floats result true inner.push statements) :
    Stmt.Typed floats result inLoop scopes
      (.loop init condition post (.mk statements bodySpan) span) scopes
  | block {result inLoop scopes statements span}
    (hbody : Stmt.AllTyped floats result inLoop scopes.push statements) :
    Stmt.Typed floats result inLoop scopes (.block (.mk statements span)) scopes

/-- Statements fit a function one after the other. -/
inductive Stmt.AllTyped (floats : List Span) : Ty → Bool → Scoped Ty → List Stmt → Prop where
  | nil {result inLoop scopes} : Stmt.AllTyped floats result inLoop scopes []
  | cons {result inLoop scopes inner s ss} (hs : Stmt.Typed floats result inLoop scopes s inner)
    (hss : Stmt.AllTyped floats result inLoop inner ss) :
    Stmt.AllTyped floats result inLoop scopes (s :: ss)

end

end Formula
