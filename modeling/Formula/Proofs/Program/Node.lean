import Formula.Proofs.Program.Induction
import Formula.Proofs.Program.Spans

/-!
# The nodes of a program

Expressions, statements, blocks and parameters are the nodes of a program. A node is found by the
path that leads to it from a declaration, and where a program is read from a text, a node covers
its parts, which stand side by side.

## Main definitions

* `Program.Node`, `Program.Node.parts`: the nodes of a program, and their parts in the order of the
  text
* `Program.Node.at?`, `Program.at?`: the node at the end of a path
* `Program.HasSpan`: a span is one of those in the tree of a program
* `Region`: a class of spans that is closed under joining
* `Program.Node.Proper R n`, `Program.Node.Ordered R n`: a node covers its parts, which stand side
  by side, and the nodes in a node do
* `Program.Node.Row R lo hi ns`: nodes side by side between two offsets

## Main results

* `Program.Node.Row.node`: a node around a row of parts
* `Program.Node.Ordered.tiles`: the nodes in a node have different spans
-/

namespace Formula

/-- Where a statement stands. -/
def Stmt.span : Stmt → Span
  | define _ _ span | var _ _ _ span | assign _ _ _ span | increment _ _ span | ret _ span
  | breakLoop span | continueLoop span | cond _ _ _ span | loop _ _ _ _ span => span
  | expr value => value.span
  | block body => body.span

mutual

/-- The spans of the parts of a written type, its own one first. -/
def TypeExpr.spans : TypeExpr → List Span
  | .named _ span => [span]
  | .function params result span =>
    span :: (TypeExpr.spansOfAll params ++ match result with
      | some r => r.spans
      | none => [])

/-- The spans of the parts of several written types. -/
def TypeExpr.spansOfAll : List TypeExpr → List Span
  | [] => []
  | e :: es => e.spans ++ TypeExpr.spansOfAll es

end

theorem TypeExpr.spansOfAll_eq (es : List TypeExpr) : spansOfAll es = es.flatMap spans := by
  induction es with
  | nil => rfl
  | cons e es ih => rw [spansOfAll, ih, List.flatMap_cons]

/-- The spans of the parts of a written type that may be missing. -/
def TypeExpr.spansIn (type : Option TypeExpr) : List Span :=
  type.toList.flatMap spans

theorem TypeExpr.spans_function (params : List TypeExpr) (result : Option TypeExpr) (span : Span) :
    (function params result span).spans = span :: (params.flatMap spans ++ spansIn result) := by
  cases result <;> simp [spans, spansIn, spansOfAll_eq]

namespace Program

/-! ## Nodes and their parts -/

/-- An expression, statement, block or parameter of a program. -/
inductive Node where
  | expr (e : Expr)
  | stmt (s : Stmt)
  | block (b : Block)
  | param (p : Parameter)

namespace Node

/-- Where a node stands. -/
def span : Node → Span
  | expr e => e.span
  | stmt s => s.span
  | block b => b.span
  | param p => p.span

@[simp]
theorem span_expr (e : Expr) : (expr e).span = e.span := rfl

@[simp]
theorem span_stmt (s : Stmt) : (stmt s).span = s.span := rfl

@[simp]
theorem span_block (b : Block) : (block b).span = b.span := rfl

@[simp]
theorem span_param (p : Parameter) : (param p).span = p.span := rfl

/-- The parts of an expression in the order of the text. -/
def ofExpr : Expr → List Node
  | .literal _ _ | .identifier _ _ | .selector _ _ _ => []
  | .binary _ left right _ => [expr left, expr right]
  | .unary _ operand _ => [expr operand]
  | .call function arguments _ => expr function :: arguments.map expr
  | .function params _ body _ => params.map param ++ [block body]

/-- The parts of a statement in the order of the text. -/
def ofStmt : Stmt → List Node
  | .define _ value _ | .assign _ _ value _ | .expr value => [expr value]
  | .var _ _ value _ | .ret value _ => value.toList.map expr
  | .increment _ _ _ | .breakLoop _ | .continueLoop _ => []
  | .cond condition thenBlock elseBlock _ =>
    expr condition :: block thenBlock :: elseBlock.toList.map block
  | .loop init condition post body _ =>
    init.toList.map stmt ++ (condition.toList.map expr ++ (post.toList.map stmt ++ [block body]))
  | .block body => [block body]

/-- **The parts of a node** in the order of the text. -/
def parts : Node → List Node
  | expr e => ofExpr e
  | stmt s => ofStmt s
  | block b => b.statements.map stmt
  | param _ => []

/-- Whether a node may stand exactly where one of its parts stands: a statement that is an expression
or a block, and a block, as that of an `else if` is the choice in it. -/
def isWrapper : Node → Bool
  | stmt (.expr _) | stmt (.block _) | block _ => true
  | _ => false

/-- The spans of the types that are written in a node, but in no part of it. -/
def types : Node → List Span
  | expr (.function _ result _ _) => TypeExpr.spansIn result
  | stmt (.var _ type _ _) => TypeExpr.spansIn type
  | param p => p.type.spans
  | _ => []

/-- What is done after the rounds of a loop is simple, if the node is a loop. -/
def SimplePost : Node → Prop
  | stmt (.loop _ _ (some post) _ _) => post.isSimple = true
  | _ => True

/-- **Induction over nodes**: what holds of a node if it holds of its parts holds of all nodes. -/
theorem induction {Q : Node → Prop} (h : ∀ n : Node, (∀ m ∈ n.parts, Q m) → Q n) (n : Node) :
    Q n := by
  have hblock (b : Block) (hs : ∀ s ∈ b.statements, Q (stmt s)) : Q (block b) :=
    h _ (by simpa [parts] using hs)
  have hparam (p : Parameter) : Q (param p) := h _ nofun
  have hcases : SyntaxCases (fun e => Q (expr e)) (fun es => ∀ e ∈ es, Q (expr e))
      (fun s => Q (stmt s)) fun ss => ∀ s ∈ ss, Q (stmt s) :=
    { literal := fun _ _ => h _ nofun
      identifier := fun _ _ => h _ nofun
      binary := fun _ _ _ _ hl hr => h _ (by simp [parts, ofExpr, hl, hr])
      unary := fun _ _ _ ho => h _ (by simp [parts, ofExpr, ho])
      call := fun _ _ _ hf ha => h _ (by simpa [parts, ofExpr, hf] using ha)
      selector := fun _ _ _ => h _ nofun
      function := fun _ _ _ bodySpan _ hs => h _ <| by
        rintro m hm
        rcases List.mem_append.mp hm with hm | hm
        · obtain ⟨p, -, rfl⟩ := List.mem_map.mp hm
          exact hparam p
        · obtain rfl := List.mem_singleton.mp hm
          exact hblock (.mk _ bodySpan) hs
      noArguments := nofun
      argument := fun _ _ he hes => List.forall_mem_cons.mpr ⟨he, hes⟩
      define := fun _ _ _ hv => h _ (by simp [parts, ofStmt, hv])
      var := fun _ _ _ _ hv => h _ (by simpa [parts, ofStmt] using hv)
      assign := fun _ _ _ _ hv => h _ (by simp [parts, ofStmt, hv])
      increment := fun _ _ _ => h _ nofun
      expr := fun _ hv => h _ (by simp [parts, ofStmt, hv])
      ret := fun _ _ hv => h _ (by simpa [parts, ofStmt] using hv)
      breakLoop := fun _ => h _ nofun
      continueLoop := fun _ => h _ nofun
      cond := fun _ _ thenSpan elseBlock _ hc ht he => h _ <| by
        have helse : ∀ b ∈ elseBlock, Q (block b) := fun b hb => hblock b (he b hb)
        simpa [parts, ofStmt, hc, hblock (.mk _ thenSpan) ht] using helse
      loop := fun init condition post _ bodySpan _ hi hc hp hs => h _ <| by
        intro m hm
        simp only [parts, ofStmt, List.mem_append, List.mem_map, Option.mem_toList,
          List.mem_singleton] at hm
        rcases hm with ⟨i, hm, rfl⟩ | ⟨c, hm, rfl⟩ | ⟨p, hm, rfl⟩ | rfl
        · exact hi i hm
        · exact hc c hm
        · exact hp p hm
        · exact hblock (.mk _ bodySpan) hs
      block := fun _ span hs => h _ (by simp [parts, ofStmt, hblock (.mk _ span) hs])
      noStatements := nofun
      statement := fun _ _ hs hss => List.forall_mem_cons.mpr ⟨hs, hss⟩ }
  cases n with
  | expr e => exact hcases.ofExpr e
  | stmt s => exact hcases.ofStmt s
  | block b => exact hblock b (hcases.ofStmts b.statements)
  | param p => exact hparam p

/-! ## Paths -/

/-- The node at the end of a path, which goes on from each node to the part with the given number. -/
def at? (n : Node) : List Nat → Option Node
  | [] => some n
  | i :: path => n.parts[i]?.bind (at? · path)

@[simp]
theorem at?_nil (n : Node) : n.at? [] = some n := rfl

theorem at?_cons (n : Node) (i : Nat) (path : List Nat) :
    n.at? (i :: path) = n.parts[i]?.bind (at? · path) := rfl

theorem at?_cons_eq_some {n m : Node} {i : Nat} {path : List Nat} :
    n.at? (i :: path) = some m ↔ ∃ o, n.parts[i]? = some o ∧ o.at? path = some m :=
  Option.bind_eq_some_iff

/-- What all nodes in a node satisfy. -/
def All (Q : Node → Prop) (n : Node) : Prop :=
  ∀ path m, n.at? path = some m → Q m

theorem All.self {Q : Node → Prop} {n : Node} (h : n.All Q) : Q n :=
  h [] n rfl

theorem All.part {Q : Node → Prop} {n m : Node} (h : n.All Q) (hm : m ∈ n.parts) : m.All Q := by
  obtain ⟨i, hi⟩ := List.mem_iff_getElem?.mp hm
  intro path o ho
  refine h (i :: path) o ?_
  rw [at?_cons, hi]
  exact ho

theorem at?_append (n : Node) (path rest : List Nat) :
    n.at? (path ++ rest) = (n.at? path).bind (at? · rest) := by
  induction path generalizing n with
  | nil => rfl
  | cons i path ih =>
    rw [List.cons_append, at?_cons, at?_cons, Option.bind_assoc]
    congr 1
    funext m
    exact ih m

theorem All.at? {Q : Node → Prop} {n m : Node} (h : n.All Q) {path : List Nat}
    (hm : n.at? path = some m) : m.All Q := by
  intro rest o ho
  refine h (path ++ rest) o ?_
  rw [at?_append, hm]
  exact ho

/-- All nodes in a node are that one and all nodes in its parts. -/
theorem all_iff {Q : Node → Prop} {n : Node} : n.All Q ↔ Q n ∧ ∀ m ∈ n.parts, m.All Q := by
  refine ⟨fun h => ⟨h.self, fun m hm => h.part hm⟩, fun ⟨hself, hparts⟩ path m hm => ?_⟩
  cases path with
  | nil =>
    cases hm
    exact hself
  | cons i path =>
    obtain ⟨o, ho, hm⟩ := at?_cons_eq_some.mp hm
    exact hparts o (List.mem_of_getElem? ho) path m hm

end Node

end Program

/-- The nodes of a package-level declaration that lie in no other node. -/
def Item.nodes : Item → List Program.Node
  | .var d => d.value.toList.map .expr
  | .function d => d.params.map .param ++ [.block d.body]

/-- The spans of the types that are written in a package-level declaration, but in no node of it. -/
def Item.types : Item → List Span
  | .var d => TypeExpr.spansIn d.type
  | .function d => TypeExpr.spansIn d.result

namespace Program

/-- The nodes of a program that lie in no other node, in the order of the text. -/
def nodes (p : Program) : List Node :=
  p.items.flatMap Item.nodes

/-- **The node of a program at the end of a path**, which begins with the number of a node that lies
in no other one. -/
def at? (p : Program) : List Nat → Option Node
  | [] => none
  | i :: path => p.nodes[i]?.bind (Node.at? · path)

theorem at?_cons (p : Program) (i : Nat) (path : List Nat) :
    p.at? (i :: path) = p.nodes[i]?.bind (Node.at? · path) := rfl

theorem at?_cons_eq_some {p : Program} {m : Node} {i : Nat} {path : List Nat} :
    p.at? (i :: path) = some m ↔ ∃ n, p.nodes[i]? = some n ∧ n.at? path = some m :=
  Option.bind_eq_some_iff

/-- A path that leads anywhere leads to a node that lies in no other one, and on from there. -/
theorem exists_of_at? {p : Program} {m : Node} {path : List Nat} (h : p.at? path = some m) :
    ∃ i rest n, path = i :: rest ∧ p.nodes[i]? = some n ∧ n.at? rest = some m := by
  cases path with
  | nil => cases h
  | cons i rest =>
    obtain ⟨n, hn, hm⟩ := at?_cons_eq_some.mp h
    exact ⟨i, rest, n, rfl, hn, hm⟩

/-- A span is one of those in the tree of a program. -/
inductive HasSpan (p : Program) : Span → Prop where
  | ofImport {i : ImportDecl} (h : i ∈ p.imports) : HasSpan p i.span
  | ofItem {i : Item} (h : i ∈ p.items) : HasSpan p i.span
  | ofItemType {i : Item} {s : Span} (h : i ∈ p.items) (hs : s ∈ i.types) : HasSpan p s
  | ofNode {path : List Nat} {n : Node} (h : p.at? path = some n) : HasSpan p n.span
  | ofNodeType {path : List Nat} {n : Node} {s : Span} (h : p.at? path = some n)
      (hs : s ∈ n.types) : HasSpan p s

end Program

/-! ## Nodes side by side -/

/-- **A class of spans** that has, with two spans, the one that covers both. -/
structure Region where
  Has : Span → Prop
  join : ∀ {s t : Span}, Has s → Has t → Has (s.join t)

instance : Membership Span Region := ⟨fun R s => R.Has s⟩

theorem Region.join_mem {R : Region} {s t : Span} (hs : s ∈ R) (ht : t ∈ R) : s.join t ∈ R :=
  R.join hs ht

/-- All spans. -/
def Region.all : Region :=
  ⟨fun _ => True, fun _ _ => trivial⟩

namespace Program.Node

variable {R : Region}

/-- **A node stands where it should**: what is written in it lies in a region, it is not empty, and it
covers its parts, which stand side by side. -/
structure Proper (R : Region) (n : Node) : Prop where
  mem : n.span ∈ R
  types : ∀ s ∈ n.types, s ∈ R
  lt : n.span.start.offset < n.span.stop.offset
  covers : ∀ m ∈ n.parts,
    n.span.start.offset ≤ m.span.start.offset ∧ m.span.stop.offset ≤ n.span.stop.offset
  apart : n.parts.Pairwise fun m m' => m.span.stop.offset ≤ m'.span.start.offset
  /-- Only a wrapper stands exactly where one of its parts stands. -/
  strict : n.isWrapper = false → ∀ m ∈ n.parts,
    n.span.start.offset < m.span.start.offset ∨ m.span.stop.offset < n.span.stop.offset
  simplePost : n.SimplePost

/-- All nodes in a node stand where they should. -/
def Ordered (R : Region) (n : Node) : Prop :=
  n.All (Proper R)

/-- A node lies between two offsets. -/
structure Laid (R : Region) (lo hi : Nat) (n : Node) : Prop where
  ordered : n.Ordered R
  start_le : lo ≤ n.span.start.offset
  le_stop : n.span.stop.offset ≤ hi

/-- **Nodes side by side** between two offsets. -/
structure Row (R : Region) (lo hi : Nat) (ns : List Node) : Prop where
  laid : ∀ n ∈ ns, n.Laid R lo hi
  apart : ns.Pairwise fun m m' => m.span.stop.offset ≤ m'.span.start.offset

variable {lo lo' mid mid' hi hi' : Nat} {n : Node} {ns ms : List Node}

namespace Laid

theorem lt (h : n.Laid R lo hi) : n.span.start.offset < n.span.stop.offset :=
  h.ordered.self.lt

theorem mem (h : n.Laid R lo hi) : n.span ∈ R :=
  h.ordered.self.mem

theorem weaken (h : n.Laid R lo hi) (hlo : lo' ≤ lo) (hhi : hi ≤ hi') : n.Laid R lo' hi' :=
  ⟨h.ordered, Nat.le_trans hlo h.start_le, Nat.le_trans h.le_stop hhi⟩

theorem row (h : n.Laid R lo hi) : Row R lo hi [n] :=
  ⟨List.forall_mem_singleton.mpr h, List.pairwise_singleton ..⟩

/-- The row of a node that stands exactly between its own ends. -/
theorem row_self (h : n.Laid R lo hi) : Row R n.span.start.offset n.span.stop.offset [n] :=
  row ⟨h.ordered, Nat.le_refl _, Nat.le_refl _⟩

end Laid

namespace Row

theorem nil : Row R lo hi [] :=
  ⟨nofun, .nil⟩

theorem weaken (h : Row R lo hi ns) (hlo : lo' ≤ lo) (hhi : hi ≤ hi') : Row R lo' hi' ns :=
  ⟨fun n hn => (h.laid n hn).weaken hlo hhi, h.apart⟩

/-- Rows side by side. -/
theorem append (h : Row R lo mid ns) (h' : Row R mid' hi ms) (hmid : mid ≤ mid')
    (hlo : lo ≤ mid') (hhi : mid ≤ hi) : Row R lo hi (ns ++ ms) where
  laid := by
    refine List.forall_mem_append.mpr ⟨fun n hn => ?_, fun m hm => ?_⟩
    · exact (h.laid n hn).weaken (Nat.le_refl _) hhi
    · exact (h'.laid m hm).weaken hlo (Nat.le_refl _)
  apart := by
    refine List.pairwise_append.mpr ⟨h.apart, h'.apart, fun n hn m hm => ?_⟩
    have := (h.laid n hn).le_stop
    have := (h'.laid m hm).start_le
    omega

/-- **A node around a row of parts.** -/
theorem node (h : Row R lo hi n.parts) (hmem : n.span ∈ R) (htypes : ∀ s ∈ n.types, s ∈ R)
    (hstart : n.span.start.offset ≤ lo) (hstop : hi ≤ n.span.stop.offset)
    (hlt : n.span.start.offset < n.span.stop.offset)
    (hstrict : n.isWrapper = false → ∀ m ∈ n.parts,
      n.span.start.offset < m.span.start.offset ∨ m.span.stop.offset < n.span.stop.offset)
    (hpost : n.SimplePost) : n.Ordered R := by
  refine all_iff.mpr ⟨⟨hmem, htypes, hlt, fun m hm => ?_, h.apart, hstrict, hpost⟩, fun m hm =>
    (h.laid m hm).ordered⟩
  exact ⟨Nat.le_trans hstart (h.laid m hm).start_le, Nat.le_trans (h.laid m hm).le_stop hstop⟩

end Row

/-- The parts of a node stand side by side in it. -/
theorem Ordered.row (h : n.Ordered R) : Row R n.span.start.offset n.span.stop.offset n.parts :=
  ⟨fun m hm => ⟨h.part hm, (h.self.covers m hm).1, (h.self.covers m hm).2⟩, h.self.apart⟩

/-! ## What follows for all nodes -/

/-- The spans of the nodes in a node, without those of wrappers. -/
def spans : Node → List Span
  | expr e => e.spans
  | stmt s => s.spans
  | block b => Stmt.spansOfAll b.statements
  | param p => [p.span]

theorem flatMap_spans_stmt (ss : List Stmt) :
    (ss.map stmt).flatMap spans = Stmt.spansOfAll ss := by
  induction ss with
  | nil => rfl
  | cons s ss ih => rw [List.map_cons, List.flatMap_cons, ih, Stmt.spansOfAll, spans]

/-- The spans of a node are its own one, unless it is a wrapper, and those of its parts. -/
theorem spans_eq (n : Node) :
    n.spans = (if n.isWrapper then [] else [n.span]) ++ n.parts.flatMap spans := by
  have hparams (params : List Parameter) :
      params.flatMap (fun p => [p.span]) = params.map Parameter.span :=
    List.map_eq_flatMap.symm
  cases n with
  | expr e =>
    rcases e with _ | _ | _ | _ | _ | _ | ⟨params, result, ⟨statements, _⟩, _⟩ <;>
      simp [spans, Expr.spans, isWrapper, parts, ofExpr, Expr.span, Expr.spansOfAll_eq,
        List.flatMap_map, hparams]
  | stmt s =>
    rcases s with _ | ⟨_, _, _ | _, _⟩ | _ | _ | _ | ⟨_ | _, _⟩ | _ | _ |
      ⟨_, ⟨_, _⟩, _ | ⟨_, _⟩, _⟩ | ⟨_ | _, _ | _, _ | _, ⟨_, _⟩, _⟩ | ⟨_, _⟩ <;>
      simp [spans, Stmt.spans, isWrapper, parts, ofStmt, Stmt.span]
  | block b => simp [spans, isWrapper, parts, flatMap_spans_stmt]
  | param p => rfl

/-- What lies within each of some nodes side by side. -/
theorem Row.tiles (h : Row R lo hi ns)
    (hns : ∀ n ∈ ns, Tiles n.span.start.offset n.span.stop.offset n.spans) :
    Tiles lo hi (ns.flatMap spans) := by
  induction ns generalizing lo with
  | nil => exact .nil
  | cons n ns ih =>
    obtain ⟨hn, hrest⟩ := List.forall_mem_cons.mp h.laid
    obtain ⟨hbehind, hapart⟩ := List.pairwise_cons.mp h.apart
    have htail : Row R n.span.stop.offset hi ns :=
      ⟨fun m hm => ⟨(hrest m hm).ordered, hbehind m hm, (hrest m hm).le_stop⟩, hapart⟩
    have htiles := (hns n List.mem_cons_self).append
      (ih htail fun m hm => hns m (List.mem_cons_of_mem _ hm)) (Nat.le_refl _) (Nat.le_of_lt hn.lt)
      hn.le_stop
    exact htiles.weaken hn.start_le (Nat.le_refl _)

/-- **The nodes in a node have different spans**, but for wrappers. -/
theorem Ordered.tiles {n : Node} (h : n.Ordered R) :
    Tiles n.span.start.offset n.span.stop.offset n.spans := by
  induction n using induction with
  | h n ih =>
    have hparts := h.row.tiles fun m hm => ih m hm (h.part hm)
    rw [spans_eq]
    by_cases hwrapper : n.isWrapper
    · rw [if_pos hwrapper]
      exact hparts
    rw [if_neg hwrapper]
    refine hparts.cons h.self.lt fun hmem => ?_
    -- A part whose nodes have the span of this one would stand exactly where this one stands.
    obtain ⟨m, hm, hspan⟩ := List.mem_flatMap.mp hmem
    have := (ih m hm (h.part hm)).within _ hspan
    have := h.self.strict (by simpa using hwrapper) m hm
    omega

/-- What is done after the rounds of the loops in a node is simple. -/
def SimplePosts : Node → Prop
  | expr e => e.SimplePosts
  | stmt s => s.SimplePosts
  | block b => Stmt.AllSimplePosts b.statements
  | param _ => True

theorem simplePosts_of_parts {n : Node} (hpost : n.SimplePost) (h : ∀ m ∈ n.parts, m.SimplePosts) :
    n.SimplePosts := by
  have hstatements (ss : List Stmt) :
      Stmt.AllSimplePosts ss ↔ ∀ s ∈ ss, (stmt s).SimplePosts := by
    induction ss with
    | nil => exact ⟨fun _ => nofun, fun _ => trivial⟩
    | cons s ss ih =>
      rw [Stmt.AllSimplePosts, ih, List.forall_mem_cons]
      rfl
  cases n with
  | expr e =>
    cases e with
    | function params result body span =>
      have hbody := h (block body) (List.mem_append_right _ (List.mem_singleton_self _))
      cases body
      exact hbody
    | _ => simp_all [parts, ofExpr, SimplePosts, Expr.SimplePosts, Expr.allSimplePosts_iff]
  | stmt s =>
    rcases s with _ | ⟨_, _, _ | _, _⟩ | _ | _ | _ | ⟨_ | _, _⟩ | _ | _ |
      ⟨_, ⟨_, _⟩, _ | ⟨_, _⟩, _⟩ | ⟨_ | _, _ | _, _ | _, ⟨_, _⟩, _⟩ | ⟨_, _⟩ <;>
      simp_all [parts, ofStmt, SimplePosts, Stmt.SimplePosts, SimplePost]
  | block b => exact (hstatements _).mpr (by simpa [parts] using h)
  | param p => trivial

theorem Ordered.simplePosts {n : Node} (h : n.Ordered R) : n.SimplePosts := by
  induction n using induction with
  | h n ih => exact simplePosts_of_parts h.self.simplePost fun m hm => ih m hm (h.part hm)

end Program.Node
end Formula
