import Formula.Compilation
import Formula.Registry

/-!
# From declarations to source text

Declarations are put together to one text: a comment with the name, the imports, a variable for each
input and for each helper function, and the formula as the body of the entry function.

## Main definitions

* `Scalar.literal?`: the source text of a value.
* `Registry.assemble`: the source text of declarations.
-/

namespace Formula

/-- A character within a quoted text of the language. -/
def escapeSource : Char → List Char
  | '"' => ['\\', '"']
  | '\\' => ['\\', '\\']
  | '\n' => ['\\', 'n']
  | '\r' => ['\\', 'r']
  | '\t' => ['\\', 't']
  | '\x00' => ['\\', '0']
  | c => [c]

/-- A text in quotes, as the language reads it. -/
def quoteSource (s : String) : String :=
  String.ofList ('"' :: s.toList.flatMap escapeSource ++ ['"'])

namespace Scalar

/-- Floating-point numbers in source text always have a point or an exponent; they are written
positionally from `0.0001` up to sixteen digits before the point. -/
def sourceLayout : Decimal.Layout where
  tie := .upward
  lowest := some (-4)
  highest := some 15
  marksWhole := true
  signsExponent := false
  exponentWidth := 1
  special := ("NaN", "inf", "-inf")

/-- The source text of a value. The least integer has no constant of its own and is written as a
difference; infinities and not-a-number have no source text. -/
def literal? : Scalar → Option String
  | int n =>
    if n = Int64.minValue then some ("(" ++ intText (n + 1) ++ " - 1)") else some (intText n)
  | float x => if Decimal.isFinite x then some (sourceLayout.write x) else none
  | bool b => some (boolText b)
  | string s => some (quoteSource s)

end Scalar

/-- The declaration of an input. Where its default has no source text it has no initial value: the
value is put in when the program is run. -/
def Variable.sourceLine (v : Variable) : String :=
  "var " ++ v.name ++ " " ++ v.type.name ++
    match v.initialValue.literal? with
    | some text => " = " ++ text ++ "\n"
    | none => "\n"

/-- The declaration of a helper function. -/
def Helper.sourceLine (h : Helper) : String :=
  "var " ++ h.name ++ " = " ++ Text.trim h.body ++ "\n"

/-- A text without the line feeds at its two ends. -/
def trimLines (s : String) : String :=
  String.ofList ((s.toList.dropWhile (· == '\n')).reverse.dropWhile (· == '\n')).reverse

/-- The source text of declarations. -/
def Registry.assemble (r : Registry) : String :=
  "// evaluator: " ++ Text.trim r.name ++ "\n" ++
    String.join (r.imports.map fun path => "import " ++ quoteSource path ++ "\n") ++
    String.join (r.vars.map Variable.sourceLine) ++
    String.join (r.helpers.map Helper.sourceLine) ++
    "func " ++ defaultEntryPoint ++ "() \x7b\n" ++ trimLines r.formula ++ "\n\x7d\n"

end Formula
