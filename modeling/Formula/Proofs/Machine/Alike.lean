import Mathlib.Data.List.Forall2
import Formula.Proofs.Machine.Plain

/-!
# Values that differ in the functions of the program

Operations look at scalars and at the kinds and texts of other values. So if two values are the same but
for functions of the program, which have the same names, then the operations have the same results and go
wrong alike.

## Main definitions

* `Value.onClosure f`: a value where functions of the program are changed
* `Value.Rel R`: values that are the same but for functions of the program, which `R` relates

## Main results

* `operate_onClosure`, `Builtin.call_onClosure`, `Native.call_onClosure`: operations do not look into
  functions of the program
* `operate_rel`, `Builtin.call_rel`, `Native.call_rel`: operations on related values
-/

namespace Formula

namespace Value

/-- A value where functions of the program are changed. -/
def onClosure (f : Closure → Closure) : Value → Value
  | closure c => .closure (f c)
  | v => v

variable {f : Closure → Closure}

theorem kind_onClosure (v : Value) : (v.onClosure f).kind = v.kind := by
  cases v <;> rfl

theorem isString_onClosure (v : Value) : (v.onClosure f).isString = v.isString := by
  cases v <;> rfl

theorem text_onClosure (hf : ∀ c, (f c).name = c.name) (v : Value) :
    (v.onClosure f).text = v.text := by
  cases v with
  | closure c => exact congrArg ("func " ++ ·) (hf c)
  | _ => rfl

end Value

/-! ## Operations on changed values -/

section Changed

variable {f : Closure → Closure}

theorem valueOrder?_onClosure (op : BinaryOp) (l r : Value) :
    valueOrder? op (l.onClosure f) (r.onClosure f) = valueOrder? op l r := by
  cases l <;> cases r <;> first | rfl | (rename_i s _; cases s <;> rfl)

theorem operate_onClosure (op : BinaryOp) (l r : Value) :
    operate op (l.onClosure f) (r.onClosure f) = operate op l r := by
  unfold operate compareValues
  rw [valueOrder?_onClosure, Value.kind_onClosure, Value.kind_onClosure]
  split
  · rfl
  · cases op <;> cases l <;> cases r <;> first | rfl | (rename_i s _; cases s <;> rfl)

theorem Builtin.call_onClosure (b : Builtin) (args : List Value) :
    b.call (args.map (Value.onClosure f)) = b.call args := by
  rcases args with _ | ⟨v, _ | ⟨w, args⟩⟩
  · rfl
  · cases v <;> cases b <;> rfl
  · rfl

namespace Format

/-- The pieces of a text that begins with a directive. -/
theorem pieces_directive (cs : List Char) (args : List Value) :
    pieces ('%' :: cs) args = match readDirective? cs with
      | none => (["%!(NOVERB)"], args)
      | some (s, verb, rest) =>
        if verb = '%' then ("%" :: (pieces rest args).1, (pieces rest args).2)
        else match args with
          | [] => (("%!" ++ verb.toString ++ "(MISSING)") :: (pieces rest []).1, (pieces rest []).2)
          | arg :: args => (formatValue s verb arg :: (pieces rest args).1, (pieces rest args).2) := by
  rw [pieces, if_pos rfl]
  split
  · rename_i h
    rw [h]
  · rename_i s verb rest h
    cases args <;> simp only [h]

variable (hf : ∀ c, (f c).name = c.name)
include hf

theorem labelled_onClosure (v : Value) : labelled (v.onClosure f) = labelled v := by
  rw [labelled, labelled, Value.kind_onClosure, Value.text_onClosure hf]

theorem formatValue_onClosure (s : Spec) (verb : Char) (v : Value) :
    formatValue s verb (v.onClosure f) = formatValue s verb v := by
  have hbody : body? s verb (v.onClosure f) = body? s verb v := by
    cases v with
    | closure c =>
      have hname := hf c
      unfold body?
      split <;> simp_all [Value.onClosure, Value.text]
    | _ => rfl
  rw [formatValue, formatValue, hbody, labelled_onClosure hf]

theorem pieces_onClosure (cs : List Char) (args : List Value) :
    pieces cs (args.map (Value.onClosure f)) =
      ((pieces cs args).1, (pieces cs args).2.map (Value.onClosure f)) := by
  fun_induction pieces cs args with
  | case1 args => rw [pieces]
  | case2 args cs h => simp only [pieces_directive, h]
  | case3 cs args s rest ps left hp h _ ih => simp only [pieces_directive, h, if_true, ih, hp]
  | case4 cs s verb rest h _ hv ps left hp ih =>
    have hleft : left = left.map (Value.onClosure f) := by
      rw [List.map_nil, hp] at ih
      exact congrArg Prod.snd ih
    simp only [List.map_nil, pieces_directive, h, hv, if_false, hp, ← hleft]
  | case5 cs s verb rest h _ hv arg args ps left hp ih =>
    simp only [List.map_cons, pieces_directive, h, hv, if_false, ih, hp, formatValue_onClosure hf]
  | case6 c cs args hc ps left hp ih => rw [pieces, if_neg hc, ih, hp]

theorem extraText_onClosure (args : List Value) :
    extraText (args.map (Value.onClosure f)) = extraText args := by
  cases args with
  | nil => rfl
  | cons v args =>
    have hlabelled : labelled ∘ Value.onClosure f = labelled := funext (labelled_onClosure hf)
    rw [List.map_cons, extraText, extraText, ← List.map_cons, List.map_map, hlabelled]
    all_goals simp

theorem sprintf_onClosure (format : String) (args : List Value) :
    sprintf format (args.map (Value.onClosure f)) = sprintf format args := by
  simp only [sprintf, pieces_onClosure hf, extraText_onClosure hf]

theorem sprintAfter_onClosure (last : Value) (args : List Value) :
    sprintAfter (last.onClosure f) (args.map (Value.onClosure f)) = sprintAfter last args := by
  induction args generalizing last with
  | nil => rfl
  | cons v args ih =>
    simp only [List.map_cons, sprintAfter, ih, Value.isString_onClosure, Value.text_onClosure hf]

theorem sprint_onClosure (args : List Value) :
    sprint (args.map (Value.onClosure f)) = sprint args := by
  cases args with
  | nil => rfl
  | cons v args =>
    rw [List.map_cons, sprint, sprint, sprintAfter_onClosure hf, Value.text_onClosure hf]

theorem sprintln_onClosure (args : List Value) :
    sprintln (args.map (Value.onClosure f)) = sprintln args := by
  have htext : Value.text ∘ Value.onClosure f = Value.text := funext (Value.text_onClosure hf)
  rw [sprintln, sprintln, List.map_map, htext]

end Format

theorem Native.call_onClosure (hf : ∀ c, (f c).name = c.name) (draw : Nat) (n : Native)
    (args : List Value) : n.call draw (args.map (Value.onClosure f)) = n.call draw args := by
  rcases args with _ | ⟨u, args⟩
  · rfl
  cases n with
  | sprint =>
    exact congrArg (fun s => Except.ok (Value.string s)) (Format.sprint_onClosure hf (u :: args))
  | sprintln =>
    exact congrArg (fun s => Except.ok (Value.string s)) (Format.sprintln_onClosure hf (u :: args))
  | sprintf =>
    rcases u with (_ | _ | format | _) | _ | _ | _ | _ | _
    case scalar.string =>
      exact congrArg (fun s => Except.ok (Value.string s)) (Format.sprintf_onClosure hf format args)
    all_goals rfl
  | _ =>
    -- the other functions look at three arguments at most
    rcases u with (_ | _ | _ | _) | _ | _ | _ | _ | _ <;> try rfl
    all_goals rcases args with _ | ⟨v, args⟩ <;> try rfl
    all_goals rcases v with (_ | _ | _ | _) | _ | _ | _ | _ | _ <;> try rfl
    all_goals rcases args with _ | ⟨w, args⟩ <;> try rfl
    all_goals rcases w with (_ | _ | _ | _) | _ | _ | _ | _ | _ <;> rfl

end Changed

/-! ## Related values -/

/-- **Values that are the same but for functions of the program**, which `R` relates. -/
inductive Value.Rel (R : Closure → Closure → Prop) : Value → Value → Prop where
  | closure {c c' : Closure} (h : R c c') : Value.Rel R (.closure c) (.closure c')
  | plain {v : Value} (h : ∀ c, v ≠ .closure c) : Value.Rel R v v

namespace Value.Rel

variable {R : Closure → Closure → Prop} {v v' : Value}

theorem scalar (s : Scalar) : Rel R (.scalar s) (.scalar s) :=
  .plain (by rintro _ ⟨⟩)

theorem nil : Rel R .nil .nil :=
  .plain (by rintro _ ⟨⟩)

theorem eq (hR : ∀ c c', R c c' → c' = c) (h : Rel R v v') : v' = v := by
  cases h with
  | closure h => rw [hR _ _ h]
  | plain => rfl

/-- All but the name of a function of the program is left out. -/
def nameOnly (c : Closure) : Closure :=
  ⟨c.name, [], default, .empty⟩

/-- Related values are the same but for what the functions of the program do. -/
theorem onClosure_eq (hR : ∀ c c', R c c' → c'.name = c.name) (h : Rel R v v') :
    v'.onClosure nameOnly = v.onClosure nameOnly := by
  cases h with
  | closure h =>
    rw [onClosure, onClosure, nameOnly, nameOnly, hR _ _ h]
  | plain => rfl

end Value.Rel

section Related

open Value (Rel)

variable {R : Closure → Closure → Prop} {v v' w w' : Value} {args args' : List Value}

theorem operateUnary_rel (op : UnaryOp) (h : Rel R v v') : operateUnary op v' = operateUnary op v := by
  cases h with
  | closure => cases op <;> rfl
  | plain => rfl

theorem stepNumber_rel (up : Bool) (h : Rel R v v') : stepNumber up v' = stepNumber up v := by
  cases h <;> rfl

theorem selectMember_rel (h : Rel R v v') (target member : String) :
    selectMember v' target member = selectMember v target member := by
  cases h <;> rfl

variable (hR : ∀ c c', R c c' → c'.name = c.name)
include hR

theorem operate_rel (op : BinaryOp) (hv : Rel R v v') (hw : Rel R w w') :
    operate op v' w' = operate op v w := by
  rw [← operate_onClosure op v', hv.onClosure_eq hR, hw.onClosure_eq hR, operate_onClosure]

theorem map_onClosure_rel (h : List.Forall₂ (Rel R) args args') :
    args'.map (Value.onClosure Rel.nameOnly) = args.map (Value.onClosure Rel.nameOnly) := by
  induction h with
  | nil => rfl
  | cons hv _ ih => rw [List.map_cons, List.map_cons, hv.onClosure_eq hR, ih]

theorem Builtin.call_rel (b : Builtin) (h : List.Forall₂ (Rel R) args args') :
    b.call args' = b.call args := by
  rw [← b.call_onClosure args', map_onClosure_rel hR h, b.call_onClosure]

theorem Native.call_rel (draw : Nat) (n : Native) (h : List.Forall₂ (Rel R) args args') :
    n.call draw args' = n.call draw args := by
  have hname (c : Closure) : (Rel.nameOnly c).name = c.name := rfl
  rw [← n.call_onClosure hname draw args', map_onClosure_rel hR h, n.call_onClosure hname]

end Related

end Formula
