import Formula.Program

/-!
# Where control can go

A function with a result must not come to the end of its body. Whether it does is decided by the
form of the body alone.

## Main definitions

* `Stmt.terminates`, `Block.terminates`: control never goes on behind a statement or block.
* `Stmt.breaksOut`, `Block.breaksOut`: a `break` can leave the loop around a statement or block.
-/

namespace Formula

mutual

/-- Whether a `break` within the statement leaves the loop around it. -/
def Stmt.breaksOut : Stmt → Bool
  | .breakLoop _ => true
  | .block b => b.breaksOut
  | .cond _ thenBlock none _ => thenBlock.breaksOut
  | .cond _ thenBlock (some elseBlock) _ => thenBlock.breaksOut || elseBlock.breaksOut
  | _ => false

/-- Whether a `break` within the block leaves the loop around it. -/
def Block.breaksOut : Block → Bool
  | .mk statements _ => anyBreaksOut statements

/-- Whether a `break` within one of the statements leaves the loop around them. -/
def anyBreaksOut : List Stmt → Bool
  | [] => false
  | s :: ss => s.breaksOut || anyBreaksOut ss

end

mutual

/-- Whether control never goes on behind the statement. -/
def Stmt.terminates : Stmt → Bool
  | .ret _ _ => true
  | .block b => b.terminates
  | .cond _ thenBlock (some elseBlock) _ => thenBlock.terminates && elseBlock.terminates
  | .loop _ none _ body _ => !body.breaksOut
  | _ => false

/-- Whether control never goes on behind the block: its last statement decides. -/
def Block.terminates : Block → Bool
  | .mk statements _ => lastTerminates statements

/-- Whether control never goes on behind the last of the statements. -/
def lastTerminates : List Stmt → Bool
  | [] => false
  | [s] => s.terminates
  | _ :: s :: ss => lastTerminates (s :: ss)

end

end Formula
