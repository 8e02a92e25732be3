import Formula.Fault
import Formula.Package.Format
import Formula.Package.Search
import Formula.Text.LetterCase

/-!
# Calling the functions of packages

## Main definitions

* `maxTextBytes`: the longest text that may be built by repetition.
* `Native.call`: the result of a function, where the functions that draw at random take the number
  `draw`.
-/

namespace Formula

/-- The longest text, in bytes, that repetition may build. -/
def maxTextBytes : Nat := 67108864

/-- The greater of two numbers, the second one if they are level; not a number if one is none. -/
def greater (x y : Float) : Float :=
  if x.isNaN || y.isNaN then Float.ofBits 0x7FF8000000000000 else if y < x then x else y

/-- The lesser of two numbers, the second one if they are level; not a number if one is none. -/
def lesser (x y : Float) : Float :=
  if x.isNaN || y.isNaN then Float.ofBits 0x7FF8000000000000 else if x < y then x else y

/-- The number in the range from `0` up to but not including `1` that a draw stands for. -/
def unitDraw (draw : Nat) : Float :=
  Decimal.floatOfDecimal false (draw % 9007199254740992) 0 / 9007199254740992.0

/-- The integer from `low` up to but not including `high` that a draw stands for. -/
def rangeDraw (draw : Nat) (low high : Int64) : Int64 :=
  Int64.ofInt (low.toInt + (draw : Int) % (high.toInt - low.toInt))

/-- `count` times the same text, unless the count is negative or the result too long. -/
def repeated (s : String) (count : Int64) : Except Fault Value :=
  if count < 0 then .error .negativeRepeat
  else if s.utf8ByteSize * count.toInt.toNat ≤ maxTextBytes then
    .ok (.string (Text.repeatText s count.toInt.toNat))
  else .error (.longText .repeat)

namespace Native

/-- Whether a function draws a number at random. -/
def draws : Native → Bool
  | intn | randomInt | float64 => true
  | _ => false

/-- The result of a function whose arguments have the right types; arguments beyond those that it
reads are ignored. -/
def call (draw : Nat) (n : Native) (args : List Value) : Except Fault Value :=
  match n, args with
  | sprintf, .string format :: rest => .ok (.string (Format.sprintf format rest))
  | sprint, args => .ok (.string (Format.sprint args))
  | sprintln, args => .ok (.string (Format.sprintln args))
  | toUpper, .string s :: _ => .ok (.string (Text.toUpper s))
  | toLower, .string s :: _ => .ok (.string (Text.toLower s))
  | trimSpace, .string s :: _ => .ok (.string (Text.trim s))
  | contains, .string s :: .string part :: _ => .ok (.bool (Text.holds part.toList s.toList))
  | hasPrefix, .string s :: .string start :: _ => .ok (.bool (s.startsWith start))
  | hasSuffix, .string s :: .string stop :: _ => .ok (.bool (s.endsWith stop))
  | .repeat, .string s :: .int count :: _ => repeated s count
  | .repeat, _ :: .int count :: _ =>
    if count < 0 then .error .negativeRepeat else .error (.nativeArguments .repeat)
  | replaceAll, .string s :: .string old :: .string replacement :: _ =>
    .ok (.string (Text.replaceAll s old replacement))
  | sqrt, .float x :: _ => .ok (.float x.sqrt)
  | pow, .float x :: .float y :: _ => .ok (.float (x.pow y))
  | abs, .float x :: _ => .ok (.float x.abs)
  | floor, .float x :: _ => .ok (.float x.floor)
  | ceil, .float x :: _ => .ok (.float x.ceil)
  | round, .float x :: _ => .ok (.float x.round)
  | max, .float x :: .float y :: _ => .ok (.float (greater x y))
  | min, .float x :: .float y :: _ => .ok (.float (lesser x y))
  | intn, .int high :: _ =>
    if high ≤ 0 then .error (.emptyRange .intn) else .ok (.int (rangeDraw draw 0 high))
  | randomInt, .int low :: .int high :: _ =>
    if high ≤ low then .error (.emptyRange .randomInt) else .ok (.int (rangeDraw draw low high))
  | float64, _ => .ok (.float (unitDraw draw))
  | n, _ => .error (.nativeArguments n)

end Native

end Formula
