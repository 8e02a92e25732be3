import Formula.Compilation

/-!
# Stored programs

A compiled program is stored together with the digest of its source. Its stored form is a tree of
records and lists, in which an infinite constant has no writing and which is only read back when it
is not nested too deeply.

## Main definitions

* `Expr.constants`, `Program.constants`: the constants in a program.
* `Expr.depth`, `Program.depth`, `Compilation.depth`: how deeply the stored form is nested.
* `StoredProgram`, `StoredProgram.readBack?`: what is read from a stored program.

## Main results

* `StoredProgram.eq_of_readBack?`: what is read back is what was stored.
-/

namespace Formula

/-! ## Constants -/

mutual

/-- The constants in an expression. -/
def Expr.constants : Expr → List Scalar
  | .literal value _ => [value]
  | .identifier _ _ | .selector _ _ _ => []
  | .binary _ left right _ => left.constants ++ right.constants
  | .unary _ operand _ => operand.constants
  | .call function arguments _ => function.constants ++ constantsOfExprs arguments
  | .function _ _ body _ => body.constants

/-- The constants in several expressions. -/
def constantsOfExprs : List Expr → List Scalar
  | [] => []
  | e :: es => e.constants ++ constantsOfExprs es

/-- The constants in an expression that may be missing. -/
def constantsOfExpr? : Option Expr → List Scalar
  | none => []
  | some e => e.constants

/-- The constants in a statement. -/
def Stmt.constants : Stmt → List Scalar
  | .define _ value _ | .assign _ _ value _ | .expr value => value.constants
  | .var _ _ value _ | .ret value _ => constantsOfExpr? value
  | .increment _ _ _ | .breakLoop _ | .continueLoop _ => []
  | .cond condition thenBlock elseBlock _ =>
    condition.constants ++ thenBlock.constants ++ constantsOfBlock? elseBlock
  | .loop init condition post body _ =>
    constantsOfStmt? init ++ constantsOfExpr? condition ++ constantsOfStmt? post ++ body.constants
  | .block body => body.constants

/-- The constants in a statement that may be missing. -/
def constantsOfStmt? : Option Stmt → List Scalar
  | none => []
  | some s => s.constants

/-- The constants in several statements. -/
def constantsOfStmts : List Stmt → List Scalar
  | [] => []
  | s :: ss => s.constants ++ constantsOfStmts ss

/-- The constants in a block. -/
def Block.constants : Block → List Scalar
  | .mk statements _ => constantsOfStmts statements

/-- The constants in a block that may be missing. -/
def constantsOfBlock? : Option Block → List Scalar
  | none => []
  | some b => b.constants

end

/-- The constants in a declaration. -/
def Item.constants : Item → List Scalar
  | .var d => constantsOfExpr? d.value
  | .function d => d.body.constants

/-- The constants in a program. -/
def Program.constants (p : Program) : List Scalar :=
  p.items.flatMap Item.constants

/-- Whether a constant has a writing in a stored program. -/
def Scalar.isStorable : Scalar → Bool
  | .float x => Decimal.isFinite x
  | _ => true

/-! ## Nesting

A span is stored as a record of records, so it has two levels. A node of the tree is stored as a
record with one field, named for the sort of the node, that holds a record of the parts. -/

/-- The levels of a stored span. -/
def spanDepth : Nat := 2

/-- The levels of a stored node with parts that are nested as deeply as given, and a span. -/
def nodeDepth (parts : Nat) : Nat :=
  2 + max parts spanDepth

mutual

/-- The levels of a stored type expression. -/
def TypeExpr.depth : TypeExpr → Nat
  | .named _ _ => nodeDepth 0
  | .function params result _ => nodeDepth (max (1 + depthOfTypes params) (depthOfType? result))

/-- The levels of the deepest of several stored type expressions. -/
def depthOfTypes : List TypeExpr → Nat
  | [] => 0
  | t :: ts => max t.depth (depthOfTypes ts)

/-- The levels of a stored type expression that may be missing. -/
def depthOfType? : Option TypeExpr → Nat
  | none => 0
  | some t => t.depth

end

/-- The levels of a stored list of parameters. -/
def depthOfParams (params : List Parameter) : Nat :=
  1 + params.foldl (fun n p => max n (1 + max p.type.depth spanDepth)) 0

mutual

/-- The levels of a stored expression. -/
def Expr.depth : Expr → Nat
  | .literal _ _ | .identifier _ _ | .selector _ _ _ => nodeDepth 0
  | .binary _ left right _ => nodeDepth (max left.depth right.depth)
  | .unary _ operand _ => nodeDepth operand.depth
  | .call function arguments _ => nodeDepth (max function.depth (1 + depthOfExprs arguments))
  | .function params result body _ =>
    nodeDepth (max (depthOfParams params) (max (depthOfType? result) body.depth))

/-- The levels of the deepest of several stored expressions. -/
def depthOfExprs : List Expr → Nat
  | [] => 0
  | e :: es => max e.depth (depthOfExprs es)

/-- The levels of a stored expression that may be missing. -/
def depthOfExpr? : Option Expr → Nat
  | none => 0
  | some e => e.depth

/-- The levels of a stored statement. -/
def Stmt.depth : Stmt → Nat
  | .define _ value _ | .assign _ _ value _ => nodeDepth value.depth
  | .var _ type value _ => nodeDepth (max (depthOfType? type) (depthOfExpr? value))
  | .increment _ _ _ => nodeDepth 0
  | .expr value => 1 + value.depth
  | .ret value _ => nodeDepth (depthOfExpr? value)
  | .breakLoop _ | .continueLoop _ => 1 + spanDepth
  | .cond condition thenBlock elseBlock _ =>
    nodeDepth (max condition.depth (max thenBlock.depth (depthOfBlock? elseBlock)))
  | .loop init condition post body _ =>
    nodeDepth (max (max (depthOfStmt? init) (depthOfExpr? condition))
      (max (depthOfStmt? post) body.depth))
  | .block body => 1 + body.depth

/-- The levels of a stored statement that may be missing. -/
def depthOfStmt? : Option Stmt → Nat
  | none => 0
  | some s => s.depth

/-- The levels of the deepest of several stored statements. -/
def depthOfStmts : List Stmt → Nat
  | [] => 0
  | s :: ss => max s.depth (depthOfStmts ss)

/-- The levels of a stored block. -/
def Block.depth : Block → Nat
  | .mk statements _ => 1 + max (1 + depthOfStmts statements) spanDepth

/-- The levels of a stored block that may be missing. -/
def depthOfBlock? : Option Block → Nat
  | none => 0
  | some b => b.depth

end

/-- The levels of a stored declaration. -/
def Item.depth : Item → Nat
  | .var d => nodeDepth (max (depthOfType? d.type) (depthOfExpr? d.value))
  | .function d =>
    nodeDepth (max (depthOfParams d.params) (max (depthOfType? d.result) d.body.depth))

/-- The levels of a stored program: a record of the list of imports, each of which has a span, and
the list of declarations. -/
def Program.depth (p : Program) : Nat :=
  let imports := if p.imports.isEmpty then 0 else 1 + spanDepth
  1 + (1 + max imports (p.items.foldl (fun n i => max n i.depth) 0))

mutual

/-- The levels of a stored type. -/
def Ty.depth : Ty → Nat
  | .int | .float | .bool | .string | .void | .any => 0
  | .package _ | .builtin _ => 1
  | .function params variadic result =>
    2 + max (1 + depthOfTys params) (max (depthOfTy? variadic) result.depth)

/-- The levels of the deepest of several stored types. -/
def depthOfTys : List Ty → Nat
  | [] => 0
  | t :: ts => max t.depth (depthOfTys ts)

/-- The levels of a stored type that may be missing. -/
def depthOfTy? : Option Ty → Nat
  | none => 0
  | some t => t.depth

end

/-- The levels of the stored types of a program. -/
def TypeInfo.depth (t : TypeInfo) : Nat :=
  1 + max t.result.depth (1 + if t.floats.isEmpty then 0 else spanDepth)

/-- The levels of a stored compilation. -/
def Compilation.depth (c : Compilation) : Nat :=
  1 + max c.program.depth c.types.depth

/-! ## Stored programs -/

/-- A compiled program, and the digest of the source that it was compiled from. -/
structure StoredProgram where
  digest : String
  compilation : Compilation

/-- How deeply a stored program may be nested if it is to be read back. -/
def maxStoredDepth : Nat := 127

namespace StoredProgram

/-- The levels of a stored program. -/
def depth (s : StoredProgram) : Nat :=
  1 + s.compilation.depth

/-- What is read from a stored program: the program, or nothing if it has a constant without a
writing or is nested too deeply. -/
def readBack? (s : StoredProgram) : Option StoredProgram :=
  if s.compilation.program.constants.all Scalar.isStorable && s.depth ≤ maxStoredDepth then some s
  else none

theorem eq_of_readBack? {s t : StoredProgram} (h : s.readBack? = some t) : t = s := by
  unfold readBack? at h
  split at h
  · exact (Option.some.inj h).symm
  · cases h

end StoredProgram

end Formula
