import Formula.Decimal.Fixed
import Formula.Value

/-!
# Formatted text

A format is a text with directives: a percent sign, flags, a width, a precision and a verb. Each
directive takes the next argument and is replaced by its formatted form.

## Main definitions

* `Spec`, `Spec.pad`: the flags of a directive, and what they add around a text.
* `readDirective?`: the directive at the head of a text.
* `formatValue`: one argument by one directive.
* `sprintf`, `sprint`, `sprintln`: formatting with a format, and without one.

## Main results

* `length_of_readDirective?`: a directive takes a character at least.
-/

namespace Formula.Format

/-- `n` copies of a character. -/
def copies (n : Nat) (c : Char) : String :=
  String.ofList (List.replicate n c)

/-- What stands between the percent sign and the verb of a directive. -/
structure Spec where
  minus : Bool := false
  plus : Bool := false
  space : Bool := false
  zero : Bool := false
  width : Option Nat := none
  precision : Option Nat := none
deriving Repr, DecidableEq

namespace Spec

/-- A sign at the head of a text, and the rest. -/
def splitSign (body : String) : String × String :=
  match body.toList with
  | '-' :: rest => ("-", String.ofList rest)
  | '+' :: rest => ("+", String.ofList rest)
  | _ => ("", body)

/-- Fills a text up to the width: with blanks after it, with zeros behind its sign, or with blanks
before it. -/
def pad (s : Spec) (body : String) : String :=
  match s.width.getD 0 - body.length with
  | 0 => body
  | fill =>
    if s.minus then body ++ copies fill ' '
    else if s.zero then
      let (sign, digits) := splitSign body
      sign ++ copies fill '0' ++ digits
    else copies fill ' ' ++ body

/-- What is written before the magnitude of a number. -/
def sign (s : Spec) (negative : Bool) : String :=
  if negative then "-" else if s.plus then "+" else if s.space then " " else ""

/-- The text cut to the precision. -/
def cut (s : Spec) (body : String) : String :=
  match s.precision with
  | some p => String.ofList (body.toList.take p)
  | none => body

end Spec

/-- Reads the flags at the head of a text. -/
def readFlags (s : Spec) : List Char → Spec × List Char
  | [] => (s, [])
  | '-' :: cs => readFlags { s with minus := true } cs
  | '+' :: cs => readFlags { s with plus := true } cs
  | ' ' :: cs => readFlags { s with space := true } cs
  | '0' :: cs => readFlags { s with zero := true } cs
  | c :: cs => (s, c :: cs)

/-- The number beyond which no digit of a width or a precision is read. -/
def maxNumber : Nat := 1000000

/-- Reads a number that may be missing. A digit after a number beyond `maxNumber` makes it unfit to
be read. -/
def readNumber? (number : Option Nat) : List Char → Option (Option Nat × List Char)
  | [] => some (number, [])
  | c :: cs =>
    if c.isDigit then
      if maxNumber < number.getD 0 then none
      else readNumber? (some (10 * number.getD 0 + Decimal.digitValue c)) cs
    else some (number, c :: cs)

/-- Reads a point and a precision, if there is a point; a missing number is zero. -/
def readPrecision? : List Char → Option (Option Nat × List Char)
  | '.' :: cs => (readNumber? none cs).map fun (p, rest) => (some (p.getD 0), rest)
  | cs => some (none, cs)

/-- Reads a directive after its percent sign. -/
def readDirective? (cs : List Char) : Option (Spec × Char × List Char) :=
  let (flags, afterFlags) := readFlags {} cs
  match readNumber? none afterFlags with
  | none => none
  | some (width, afterWidth) =>
    match readPrecision? afterWidth with
    | none | some (_, []) => none
    | some (precision, verb :: rest) => some ({ flags with width, precision }, verb, rest)

theorem length_readFlags (s : Spec) (cs : List Char) : (readFlags s cs).2.length ≤ cs.length := by
  fun_induction readFlags s cs <;> simp_all only [List.length_cons] <;> omega

theorem length_of_readNumber? {number n : Option Nat} {cs rest : List Char}
    (h : readNumber? number cs = some (n, rest)) : rest.length ≤ cs.length := by
  fun_induction readNumber? number cs with
  | case1 => cases h; exact Nat.le_refl _
  | case2 => cases h
  | case3 _ _ _ _ _ ih =>
    have := ih h
    simp only [List.length_cons]
    omega
  | case4 => cases h; exact Nat.le_refl _

theorem length_of_readPrecision? {p : Option Nat} {cs rest : List Char}
    (h : readPrecision? cs = some (p, rest)) : rest.length ≤ cs.length := by
  unfold readPrecision? at h
  split at h
  · obtain ⟨⟨n, r⟩, hn, hr⟩ := Option.map_eq_some_iff.1 h
    have := length_of_readNumber? hn
    cases hr
    simp only [List.length_cons]
    omega
  · cases h; exact Nat.le_refl _

/-- A directive takes a character at least. -/
theorem length_of_readDirective? {cs rest : List Char} {s : Spec} {verb : Char}
    (h : readDirective? cs = some (s, verb, rest)) : rest.length < cs.length := by
  have h₁ := length_readFlags {} cs
  simp only [readDirective?] at h
  split at h
  · cases h
  · rename_i hw
    have h₂ := length_of_readNumber? hw
    split at h
    · cases h
    · cases h
    · rename_i hp
      have h₃ := length_of_readPrecision? hp
      cases h
      simp only [List.length_cons] at h₃
      omega

/-- The digits of a number in hexadecimal. -/
def hexText (upper : Bool) (n : Nat) : String :=
  let ds := Nat.toDigits 16 n
  String.ofList (if upper then ds.map Char.toUpper else ds)

/-- The bytes of a text in hexadecimal, two digits each. -/
def bytesText (s : String) : String :=
  String.ofList <| s.toUTF8.toList.flatMap fun b =>
    let ds := Nat.toDigits 16 b.toNat
    List.replicate (2 - ds.length) '0' ++ ds

/-- The magnitude of a number as it is shown on its own, with a sign that zero never has. -/
def shownFloat (s : Spec) (x : Float) : String :=
  s.sign (Decimal.isNegative x && x != 0) ++ Scalar.floatText x.abs

/-- The formatted form of a value before it is filled up to the width, if the verb is one for such
values. -/
def body? (s : Spec) (verb : Char) (value : Value) : Option String :=
  match verb, value with
  | 'v', .float x =>
    match s.precision with
    | none => some (shownFloat s x)
    | some p => some (s.sign (Decimal.isNegative x) ++ String.ofList (Decimal.fixed p x))
  | 'v', .int n | 'd', .int n => some (s.sign (n < 0) ++ toString n.toInt.natAbs)
  | 'v', .string t | 's', .string t => some (s.cut t)
  | 'v', v => some v.text
  | 'q', .string t => some (Text.quoteShown t)
  | 't', .bool b => some (Scalar.boolText b)
  | 'x', .int n => some (s.sign (n < 0) ++ hexText false n.toInt.natAbs)
  | 'X', .int n => some (s.sign (n < 0) ++ hexText true n.toInt.natAbs)
  | 'x', .string t => some (bytesText t)
  | 'f', .float x | 'F', .float x =>
    some (s.sign (Decimal.isNegative x) ++ String.ofList (Decimal.fixed (s.precision.getD 6) x))
  | 'e', .float x =>
    some (s.sign (Decimal.isNegative x) ++
      String.ofList (Decimal.fixedScientific (s.precision.getD 6) x))
  | 'g', .float x => some (shownFloat s x)
  | _, _ => none

/-- A value with its kind, as reports about a format show it. -/
def labelled (value : Value) : String :=
  value.kind.name ++ "=" ++ value.text

/-- One argument by one directive. A verb that is not one for such values is reported. -/
def formatValue (s : Spec) (verb : Char) (value : Value) : String :=
  match body? s verb value with
  | some body => s.pad body
  | none => "%!" ++ verb.toString ++ "(" ++ labelled value ++ ")"

/-- The pieces of a formatted text, and the arguments that are left. A directive that cannot be
read ends the text. -/
def pieces : List Char → List Value → List String × List Value
  | [], args => ([], args)
  | c :: cs, args =>
    if c = '%' then
      match h : readDirective? cs with
      | none => (["%!(NOVERB)"], args)
      | some (s, verb, rest) =>
        have := length_of_readDirective? h
        if verb = '%' then
          let (ps, left) := pieces rest args
          ("%" :: ps, left)
        else match args with
          | [] =>
            let (ps, left) := pieces rest []
            (("%!" ++ verb.toString ++ "(MISSING)") :: ps, left)
          | arg :: args =>
            let (ps, left) := pieces rest args
            (formatValue s verb arg :: ps, left)
    else
      let (ps, left) := pieces cs args
      (c.toString :: ps, left)
termination_by cs => cs.length

/-- What is reported about arguments that no directive took. -/
def extraText : List Value → String
  | [] => ""
  | args => "%!(EXTRA " ++ ", ".intercalate (args.map labelled) ++ ")"

/-- The arguments formatted by a format. -/
def sprintf (format : String) (args : List Value) : String :=
  let (ps, left) := pieces format.toList args
  String.join ps ++ extraText left

/-- The values one after the other, the last one before them being `last`, with a blank between two
of which neither is a text. -/
def sprintAfter (last : Value) : List Value → String
  | [] => ""
  | v :: vs => (if last.isString || v.isString then "" else " ") ++ v.text ++ sprintAfter v vs

/-- The values one after the other, with a blank between two of which neither is a text. -/
def sprint : List Value → String
  | [] => ""
  | v :: vs => v.text ++ sprintAfter v vs

/-- The values with blanks between them and a line feed at the end. -/
def sprintln (args : List Value) : String :=
  " ".intercalate (args.map Value.text) ++ "\n"

end Formula.Format
