import Formula.Proofs.Constants.Slots
import Formula.Proofs.Typing.Bodies

/-!
# No constant is missed

The slots of a program are just its untyped constants: none of them overlaps another one, and each
constant at any place of the program is one of them or lies in one.

## Main definitions

* `Slot.Fills slots ns`: the slots are the constants in nodes side by side

## Main results

* `fills`: the slots of an expression or statement are the constants in it
* `Program.nodup_slots`, `Program.exists_slot`: the slots of a program are the constants in it
-/

namespace Formula

open Program (Node)

namespace Slot

/-- The node is no constant, or one that is covered by a slot. -/
def Covered (slots : List Slot) : Program.Node → Prop
  | .expr e => e.isConstant = true → ∃ p ∈ slots, ∃ wanted, p.Covers ⟨wanted, e⟩
  | _ => True

/-- **The slots are the constants in nodes side by side**: they are constants, do not overlap, and
none is missing. -/
structure Fills (slots : List Slot) (ns : List Program.Node) : Prop where
  constant : ∀ p ∈ slots, p.expr.isConstant = true
  spans : (slots.flatMap (·.expr.spans)).Sublist (ns.flatMap Node.spans)
  covered : ∀ n ∈ ns, n.All (Covered slots)

variable {slots slots' : List Slot} {n : Program.Node} {ns ns' : List Program.Node}

/-- What slots cover is covered by others in which they lie. -/
theorem covered_mono (h : ∀ p ∈ slots, ∀ q, p.Covers q → ∃ p' ∈ slots', p'.Covers q)
    (hn : n.All (Covered slots)) : n.All (Covered slots') := by
  intro path m hm
  have hm := hn path m hm
  cases m with
  | expr e =>
    intro he
    obtain ⟨p, hp, wanted, hcovers⟩ := hm he
    obtain ⟨p', hp', hcovers⟩ := h p hp _ hcovers
    exact ⟨p', hp', wanted, hcovers⟩
  | stmt | block | param => trivial

theorem covered_of_subset (h : ∀ p ∈ slots, p ∈ slots') (hn : n.All (Covered slots)) :
    n.All (Covered slots') :=
  covered_mono (fun p hp _ hq => ⟨p, h p hp, hq⟩) hn

/-- What is covered by a slot is covered by one in which that lies. -/
theorem covered_of_covers {part whole : Slot} (h : ∀ q, part.Covers q → whole.Covers q)
    (hn : n.All (Covered [part])) : n.All (Covered [whole]) :=
  covered_mono (fun p hp q hq => ⟨whole, List.mem_singleton_self _, h q (by
    rwa [List.mem_singleton.mp hp] at hq)⟩) hn

theorem covered_self (wanted : Option Ty) (e : Expr) : Covered [⟨wanted, e⟩] (.expr e) :=
  fun _ => ⟨_, List.mem_singleton_self _, wanted, .self⟩

/-- All constants in a constant are covered by its slot. -/
theorem covered_constant {e : Expr} {spans : List Span} (he : e.Constant spans)
    (wanted : Option Ty) : (Node.expr e).All (Covered [⟨wanted, e⟩]) := by
  -- A part is covered by the slot of its own, which lies in that of the whole.
  induction he generalizing wanted with
  | int => exact Node.all_iff.mpr ⟨covered_self wanted _, List.forall_mem_nil _⟩
  | neg _ ih =>
    refine Node.all_iff.mpr ⟨covered_self wanted _, List.forall_mem_singleton.mpr ?_⟩
    exact covered_of_covers (fun _ => .operand) (ih wanted)
  | sum _ _ _ ihl ihr | quotient _ _ _ ihl ihr =>
    refine Node.all_iff.mpr ⟨covered_self wanted _,
      List.forall_mem_cons.mpr ⟨?_, List.forall_mem_singleton.mpr ?_⟩⟩
    · exact covered_of_covers (fun _ => .left) (ihl _)
    · exact covered_of_covers (fun _ => .right) (ihr _)

namespace Fills

theorem nil : Fills [] [] :=
  ⟨List.forall_mem_nil _, .slnil, List.forall_mem_nil _⟩

theorem append (h : Fills slots ns) (h' : Fills slots' ns') :
    Fills (slots ++ slots') (ns ++ ns') where
  constant := List.forall_mem_append.mpr ⟨h.constant, h'.constant⟩
  spans := by
    rw [List.flatMap_append, List.flatMap_append]
    exact h.spans.append h'.spans
  covered := List.forall_mem_append.mpr
    ⟨fun n hn => covered_of_subset (fun _ => List.mem_append_left _) (h.covered n hn),
      fun n hn => covered_of_subset (fun _ => List.mem_append_right _) (h'.covered n hn)⟩

/-- A constant is the only one that is not in a larger one. -/
theorem ofConstant {e : Expr} (he : e.isConstant = true) (wanted : Option Ty) :
    Fills [⟨wanted, e⟩] [.expr e] := by
  obtain ⟨spans, hspans⟩ := Option.isSome_iff_exists.mp he
  refine ⟨List.forall_mem_singleton.mpr he, ?_, List.forall_mem_singleton.mpr ?_⟩
  · simp [Node.spans]
  · exact covered_constant (Expr.constant_of_constants? hspans) wanted

/-- The constants in the parts of a node that is none are those in the node. -/
theorem node (h : Fills slots n.parts) (hn : ∀ e, n = .expr e → e.isConstant = false) :
    Fills slots [n] := by
  refine ⟨h.constant, ?_, List.forall_mem_singleton.mpr (Node.all_iff.mpr ⟨?_, h.covered⟩)⟩
  · rw [List.flatMap_singleton, Node.spans_eq]
    exact h.spans.trans (List.sublist_append_right ..)
  · cases n with
    | expr e =>
      intro he
      rw [hn e rfl] at he
      cases he
    | stmt | block | param => trivial

/-- The constants in an expression, from those in its parts. -/
theorem expr {e : Expr} {within : List Slot} (h : Fills within (Node.expr e).parts)
    (wanted : Option Ty) : Fills (ofExpr wanted e within) [.expr e] := by
  unfold ofExpr
  split
  · exact ofConstant ‹_› wanted
  · refine h.node fun e' he' => ?_
    cases he'
    exact Bool.eq_false_iff.mpr ‹_›

theorem stmt {s : Stmt} (h : Fills slots (Node.stmt s).parts) : Fills slots [.stmt s] :=
  h.node fun _ he => nomatch he

theorem block {ss : List Stmt} {span : Span} (h : Fills slots (ss.map .stmt)) :
    Fills slots [.block (.mk ss span)] :=
  node h fun _ he => nomatch he

theorem cons (h : Fills slots [n]) (h' : Fills slots' ns) :
    Fills (slots ++ slots') (n :: ns) :=
  h.append h'

/-- There is no constant in parameters. -/
theorem params (ps : List Parameter) (h : Fills slots ns) : Fills slots (ps.map .param ++ ns) := by
  induction ps with
  | nil => exact h
  | cons p ps ih =>
    have hparam : Fills [] [.param p] := node nil fun _ he => nomatch he
    exact hparam.cons ih

theorem optional {α : Type} {node : α → Program.Node} {slotsOf : α → List Slot}
    {slots : Option α → List Slot} (hnone : slots none = [])
    (hsome : ∀ a, slots (some a) = slotsOf a) {o : Option α}
    (h : ∀ a ∈ o, Fills (slotsOf a) [node a]) : Fills (slots o) (o.toList.map node) := by
  cases o with
  | none =>
    rw [hnone]
    exact nil
  | some a =>
    rw [hsome]
    exact h a rfl

end Fills

end Slot

open Slot (Fills)

/-- The slots of an expression are the constants in it. -/
def Expr.Filled (e : Expr) : Prop :=
  ∀ scopes wanted, Fills (e.slots scopes wanted) [.expr e]

/-- The slots of arguments are the constants in them. -/
def Expr.AllFilled (es : List Expr) : Prop :=
  ∀ scopes variadic params,
    Fills (Expr.withinArguments scopes variadic params es) (es.map .expr)

/-- The slots of a statement are the constants in it. -/
def Stmt.Filled (s : Stmt) : Prop :=
  ∀ result scopes, Fills (s.slots result scopes) [.stmt s]

/-- The slots of statements are the constants in them. -/
def Stmt.AllFilled (ss : List Stmt) : Prop :=
  ∀ result scopes, Fills (Stmt.allSlots result scopes ss) (ss.map .stmt)

theorem Expr.fills_slotsIn {value : Option Expr} (h : ∀ e ∈ value, e.Filled) (scopes : Scoped Ty)
    (wanted : Option Ty) : Fills (Expr.slotsIn scopes wanted value) (value.toList.map .expr) :=
  .optional rfl (fun _ => rfl) fun e he => h e he scopes wanted

theorem Stmt.fills_slotsIn {s : Option Stmt} (h : ∀ i ∈ s, i.Filled) (result : Option Ty)
    (scopes : Scoped Ty) : Fills (Stmt.slotsIn result scopes s) (s.toList.map .stmt) :=
  .optional rfl (fun _ => rfl) fun i hi => h i hi result scopes

theorem Block.fills_slotsIn {b : Option Block} (h : ∀ b' ∈ b, Stmt.AllFilled b'.statements)
    (result : Option Ty) (scopes : Scoped Ty) :
    Fills (Block.slotsIn result scopes b) (b.toList.map .block) :=
  .optional rfl (fun _ => rfl) fun ⟨_, _⟩ hb => .block (h _ hb result scopes.push)

/-- **The slots of an expression or statement are the constants in it.** -/
theorem fills : SyntaxCases Expr.Filled Expr.AllFilled Stmt.Filled Stmt.AllFilled where
  literal _ _ _ wanted := .expr .nil wanted
  identifier _ _ _ wanted := .expr .nil wanted
  selector _ _ _ _ wanted := .expr .nil wanted
  binary _ _ _ _ hl hr scopes wanted := .expr ((hl scopes _).append (hr scopes _)) wanted
  unary _ _ _ ho scopes wanted := .expr (ho scopes none) wanted
  call function arguments _ hf ha scopes wanted := by
    refine .expr (.cons (hf scopes none) ?_) wanted
    split
    · exact ha scopes _ _
    · exact ha scopes none []
  function params _ _ _ _ hs _ wanted := .expr (.params params (.block (hs _ _))) wanted
  noArguments _ _ _ := .nil
  argument e es he hes scopes variadic params :=
    .cons (he scopes _) (hes scopes variadic params.tail)
  define _ _ _ hv result scopes := .stmt (hv scopes none)
  var name type value span hv result scopes := by
    rw [Stmt.slots_var]
    exact .stmt (Expr.fills_slotsIn hv scopes _)
  assign _ _ _ _ hv result scopes := .stmt (hv scopes _)
  increment _ _ _ _ _ := .stmt .nil
  expr _ hv result scopes := .stmt (hv scopes none)
  ret value span hv result scopes := by
    rw [Stmt.slots_ret]
    exact .stmt (Expr.fills_slotsIn hv scopes result)
  breakLoop _ _ _ := .stmt .nil
  continueLoop _ _ _ := .stmt .nil
  cond condition thenStatements thenSpan elseBlock span hc ht he result scopes := by
    rw [Stmt.slots_cond]
    refine .stmt (.cons (hc scopes none) (.cons (.block (ht result _)) ?_))
    exact Block.fills_slotsIn he result scopes
  loop init condition post statements bodySpan span hi hc hp hs result scopes := by
    rw [Stmt.slots_loop]
    refine .stmt ((Stmt.fills_slotsIn hi result _).append ?_)
    refine (Expr.fills_slotsIn hc _ none).append ?_
    exact (Stmt.fills_slotsIn hp result _).append (.block (hs result _))
  block _ _ hs result scopes := .stmt (.block (hs result _))
  noStatements _ _ := .nil
  statement s ss hs hss result scopes :=
    .cons (hs result scopes) (hss result _)

/-! ## Programs -/

theorem VarDecl.fills_slots (scopes : Scoped Ty) (vars : List VarDecl) :
    Fills (VarDecl.slots scopes vars) (vars.flatMap fun d => d.value.toList.map .expr) := by
  induction vars generalizing scopes with
  | nil => exact .nil
  | cons d vars ih =>
    exact (Expr.fills_slotsIn (fun e _ => fills.ofExpr e) scopes _).append (ih _)

theorem FunctionDecl.fills_slots (entryPoint : String) (scopes : Scoped Ty) (d : FunctionDecl) :
    Fills (d.slots entryPoint scopes) (d.params.map .param ++ [.block d.body]) := by
  obtain ⟨name, params, result, ⟨statements, span⟩, declSpan⟩ := d
  have hbody (result : Option Ty) (inner : Scoped Ty) :
      Fills (Stmt.allSlots result inner statements)
        (params.map .param ++ [.block (.mk statements span)]) :=
    .params params (.block (fills.ofStmts statements result inner))
  unfold slots
  split
  · exact hbody _ _
  · exact hbody _ _

namespace Program

/-- The slots of a program are the constants in its nodes. -/
theorem fills_slots (p : Program) (entryPoint : String) :
    ∃ ns, p.nodes.Perm ns ∧ Fills (p.slots entryPoint) ns := by
  -- The checker goes through the variables before the functions, in whatever order they are written.
  refine ⟨_, p.flatMap_perm (fun _ => rfl) fun _ => rfl, ?_⟩
  refine (VarDecl.fills_slots _ p.vars).append ?_
  generalize VarDecl.behind _ _ = scopes
  induction p.functions with
  | nil => exact .nil
  | cons d ds ih => exact (d.fills_slots entryPoint scopes).append ih

theorem flatMap_spans_nodes (p : Program) : p.nodes.flatMap Node.spans = p.spans := by
  rw [nodes, List.flatMap_assoc, spans]
  congr 1
  funext i
  cases i with
  | var d => cases h : d.value <;> simp [Item.nodes, Item.spans, Node.spans, h]
  | function d =>
    simp [Item.nodes, Item.spans, Node.spans, List.flatMap_map, ← List.map_eq_flatMap]

/-- **Constants do not overlap.** -/
theorem nodup_slots {p : Program} (h : p.spans.Nodup) (entryPoint : String) :
    ((p.slots entryPoint).flatMap (·.expr.spans)).Nodup := by
  obtain ⟨ns, hperm, hfills⟩ := p.fills_slots entryPoint
  rw [← flatMap_spans_nodes, (hperm.flatMap_right _).nodup_iff] at h
  exact h.sublist hfills.spans

/-- **Each constant at any place of a program is in one of its slots.** -/
theorem exists_slot {p : Program} {path : List Nat} {e : Expr} (h : p.at? path = some (.expr e))
    (he : e.isConstant = true) (entryPoint : String) :
    ∃ q ∈ p.slots entryPoint, ∃ wanted, q.Covers ⟨wanted, e⟩ := by
  obtain ⟨ns, hperm, hfills⟩ := p.fills_slots entryPoint
  obtain ⟨i, rest, n, rfl, hn, hm⟩ := exists_of_at? h
  exact hfills.covered n (hperm.mem_iff.mp (List.mem_of_getElem? hn)) rest _ hm he

theorem isConstant_of_mem_slots {p : Program} {entryPoint : String} {q : Slot}
    (h : q ∈ p.slots entryPoint) : q.expr.isConstant = true := by
  obtain ⟨ns, -, hfills⟩ := p.fills_slots entryPoint
  exact hfills.constant q h

end Program

end Formula
