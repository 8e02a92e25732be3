import Formula.Proofs.Format.Directive
import Formula.Proofs.Format.Parts
import Formula.Proofs.Text.Size

/-!
# The bytes of formatted texts

What is formatted without a format has the bytes of the values, and of what stands between and behind
them. What is formatted by a format has the bytes of its parts and of the reports: a directive adds to
the text of its argument what it takes to fill it up to the width.

## Main definitions

* `blanks`: how many neighbours among some values are both no texts
* `sprintBytes`, `sprintlnBytes`: the bytes of values that are put one after the other
* `Part.bytes`, `sprintfBytes`: the bytes of a part of a format, and of a formatted text

## Main results

* `size_sprint`, `size_sprintln`: formatting without a format
* `Spec.size_pad`: what is added to fill a text up to the width
* `size_sprintf`: formatting with a format
-/

namespace Formula.Format

open Text

/-! ## Texts put together -/

theorem size_join (ts : List String) :
    (String.join ts).utf8ByteSize = (ts.map String.utf8ByteSize).sum := by
  induction ts with
  | nil => rfl
  | cons t ts ih =>
    rw [String.join_cons, String.utf8ByteSize_append, ih, List.map_cons, List.sum_cons]

theorem size_intercalate (separator : String) (ts : List String) :
    (separator.intercalate ts).utf8ByteSize =
      (ts.map String.utf8ByteSize).sum + (ts.length - 1) * separator.utf8ByteSize := by
  induction ts with
  | nil => simp
  | cons t ts ih =>
    rcases ts with _ | ⟨u, ts⟩
    · simp
    · simp only [List.length_cons, Nat.add_sub_cancel] at ih ⊢
      rw [String.intercalate_cons_cons, String.utf8ByteSize_append, String.utf8ByteSize_append, ih]
      simp only [List.map_cons, List.sum_cons, Nat.succ_mul]
      omega

theorem size_toString (c : Char) : c.toString.utf8ByteSize = c.utf8Size :=
  String.utf8ByteSize_singleton

theorem size_copies (n : Nat) (c : Char) : (copies n c).utf8ByteSize = n * c.utf8Size := by
  rw [copies, size_ofList, byteLength_replicate]

/-! ## Without a format -/

/-- The bytes of the texts of some values. -/
def valueBytes (args : List Value) : Nat :=
  (args.map fun v => v.text.utf8ByteSize).sum

/-- How many neighbours among some values are both no texts. -/
def blanks (args : List Value) : Nat :=
  (args.zip args.tail).countP fun pair => !pair.1.isString && !pair.2.isString

theorem size_sprintAfter (last : Value) (args : List Value) :
    (sprintAfter last args).utf8ByteSize = valueBytes args + blanks (last :: args) := by
  induction args generalizing last with
  | nil => rfl
  | cons v args ih =>
    have hblank : (if last.isString || v.isString then "" else " ").utf8ByteSize =
        if !last.isString && !v.isString then 1 else 0 := by
      cases last.isString <;> cases v.isString <;> rfl
    have hblanks : blanks (last :: v :: args) =
        blanks (v :: args) + if !last.isString && !v.isString then 1 else 0 :=
      List.countP_cons
    rw [sprintAfter, String.utf8ByteSize_append, String.utf8ByteSize_append, ih, hblank, hblanks,
      valueBytes, valueBytes, List.map_cons, List.sum_cons]
    omega

/-- The bytes of values one after the other, with a blank between two neighbours that are no texts. -/
def sprintBytes (args : List Value) : Nat :=
  valueBytes args + blanks args

/-- The bytes of values with a blank between two of them and a line feed behind all. -/
def sprintlnBytes (args : List Value) : Nat :=
  valueBytes args + max 1 args.length

theorem size_sprint (args : List Value) : (sprint args).utf8ByteSize = sprintBytes args := by
  cases args with
  | nil => rfl
  | cons v args =>
    rw [sprint, String.utf8ByteSize_append, size_sprintAfter, ← Nat.add_assoc]
    rfl

theorem size_sprintln (args : List Value) : (sprintln args).utf8ByteSize = sprintlnBytes args := by
  have hfeed : "\n".utf8ByteSize = 1 := rfl
  have hblank : " ".utf8ByteSize = 1 := rfl
  rw [sprintln, String.utf8ByteSize_append, size_intercalate, List.map_map, List.length_map, hfeed,
    hblank, Nat.mul_one, Nat.add_assoc]
  refine congrArg _ ?_
  omega

/-! ## With a format -/

/-- **What is added to fill a text up to the width** is a byte for each character that is missing. -/
theorem Spec.size_pad (s : Spec) (body : String) :
    (s.pad body).utf8ByteSize = body.utf8ByteSize + (s.width.getD 0 - body.length) := by
  -- zeros go between the sign and the digits, which make up the text together
  have hsign := congrArg byteLength (splitSign_append body)
  rw [byteLength_append] at hsign
  have hblank : ' '.utf8Size = 1 := rfl
  have hzero : '0'.utf8Size = 1 := rfl
  rw [← byteLength_toList, ← byteLength_toList body, toList_pad]
  split
  · rw [byteLength_append, byteLength_replicate, hblank, Nat.mul_one]
  split
  · rw [byteLength_append, byteLength_append, byteLength_replicate, hzero, Nat.mul_one]
    omega
  · rw [byteLength_append, byteLength_replicate, hblank, Nat.mul_one, Nat.add_comm]

/-- The bytes of a value with its kind. -/
def labelBytes (v : Value) : Nat :=
  v.kind.name.utf8ByteSize + 1 + v.text.utf8ByteSize

theorem size_labelled (v : Value) : (labelled v).utf8ByteSize = labelBytes v := by
  rw [labelled, String.utf8ByteSize_append, String.utf8ByteSize_append]
  rfl

/-- The bytes of one argument by one directive. -/
def formattedBytes (s : Spec) (verb : Char) (v : Value) : Nat :=
  match body? s verb v with
  | some body => body.utf8ByteSize + (s.width.getD 0 - body.length)
  | none => verb.utf8Size + labelBytes v + 4

theorem size_formatValue (s : Spec) (verb : Char) (v : Value) :
    (formatValue s verb v).utf8ByteSize = formattedBytes s verb v := by
  rw [formatValue, formattedBytes]
  cases body? s verb v with
  | some body => exact s.size_pad body
  | none =>
    have hopen : "%!".utf8ByteSize = 2 := rfl
    have hparen : "(".utf8ByteSize = 1 := rfl
    have hclose : ")".utf8ByteSize = 1 := rfl
    simp only [String.utf8ByteSize_append, size_labelled, size_toString, hopen, hparen, hclose]
    omega

/-- The bytes of a part of a format. -/
def Part.bytes (arg : Option Value) : Part → Nat
  | char c => c.utf8Size
  | percent => 1
  | directive s verb =>
    match arg with
    | some v => formattedBytes s verb v
    | none => verb.utf8Size + 11

theorem Part.size_text (arg : Option Value) (p : Part) :
    (p.text arg).utf8ByteSize = p.bytes arg := by
  cases p with
  | char c => exact size_toString c
  | percent => rfl
  | directive s verb =>
    cases arg with
    | some v => exact size_formatValue s verb v
    | none =>
      have hopen : "%!".utf8ByteSize = 2 := rfl
      have hmissing : "(MISSING)".utf8ByteSize = 9 := rfl
      simp only [text, bytes, String.utf8ByteSize_append, size_toString, hopen, hmissing]
      omega

/-- The bytes of the report about arguments that no directive took. -/
def extraBytes (args : List Value) : Nat :=
  if args.isEmpty then 0 else 10 + (args.map labelBytes).sum + 2 * (args.length - 1)

theorem size_extraText (args : List Value) : (extraText args).utf8ByteSize = extraBytes args := by
  cases args with
  | nil => rfl
  | cons v args =>
    have hopen : "%!(EXTRA ".utf8ByteSize = 9 := rfl
    have hclose : ")".utf8ByteSize = 1 := rfl
    have hcomma : ", ".utf8ByteSize = 2 := rfl
    have hlabels : ((v :: args).map labelled).map String.utf8ByteSize =
        (v :: args).map labelBytes := by
      rw [List.map_map]
      exact List.map_congr_left fun w _ => size_labelled w
    have hreport : extraText (v :: args) =
        "%!(EXTRA " ++ ", ".intercalate ((v :: args).map labelled) ++ ")" := rfl
    rw [hreport, String.utf8ByteSize_append, String.utf8ByteSize_append, size_intercalate, hopen,
      hclose, hcomma, hlabels, List.length_map, extraBytes, List.isEmpty_cons,
      if_neg Bool.false_ne_true]
    omega

/-- The bytes of a text that is formatted by a format: those of its parts, of the report about a format
that is not read to its end, and of the one about arguments that are left. -/
def sprintfBytes (format : String) (args : List Value) : Nat :=
  ((supplied (partsOf format.toList).1 args).map fun part => part.1.bytes part.2).sum +
    (if (partsOf format.toList).2 then 0 else 10) +
    extraBytes (args.drop (demand (partsOf format.toList).1))

/-- **A formatted text** has the bytes of its parts and of the reports. -/
theorem size_sprintf (format : String) (args : List Value) :
    (sprintf format args).utf8ByteSize = sprintfBytes format args := by
  have hparts : (texts (supplied (partsOf format.toList).1 args)).map String.utf8ByteSize =
      (supplied (partsOf format.toList).1 args).map fun part => part.1.bytes part.2 := by
    rw [texts, List.map_map]
    exact List.map_congr_left fun part _ => part.1.size_text part.2
  have hend : ((endTexts (partsOf format.toList).2).map String.utf8ByteSize).sum =
      if (partsOf format.toList).2 then 0 else 10 := by
    cases (partsOf format.toList).2 <;> rfl
  rw [sprintf_eq_join, String.utf8ByteSize_append, size_join, List.map_append, List.sum_append,
    hparts, hend, size_extraText, sprintfBytes]

end Formula.Format
