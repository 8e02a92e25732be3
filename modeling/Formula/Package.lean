import Formula.Ty

/-!
# Packages

The packages that a formula may import, and the functions that they offer.

## Main definitions

* `Package.paths`: the packages.
* `Native`: their functions, with `Native.package`, `Native.name` and `Native.signature`.
* `Package.member?`: the function of a package by its name.

## Main results

* `Package.member?_name`: a function is found in its package under its name.
-/

namespace Formula

/-- A function that a package offers. -/
inductive Native where
  | sprintf
  | sprint
  | sprintln
  | toUpper
  | toLower
  | trimSpace
  | contains
  | hasPrefix
  | hasSuffix
  | repeat
  | replaceAll
  | sqrt
  | pow
  | abs
  | floor
  | ceil
  | round
  | max
  | min
  | intn
  | randomInt
  | float64
deriving Repr, DecidableEq, Inhabited

namespace Native

/-- All functions of packages. -/
def all : List Native := [
  sprintf, sprint, sprintln, toUpper, toLower, trimSpace, contains, hasPrefix, hasSuffix, .repeat,
  replaceAll, sqrt, pow, abs, floor, ceil, round, max, min, intn, randomInt, float64]

/-- The path of the package that a function belongs to. -/
def package : Native → String
  | sprintf | sprint | sprintln => "fmt"
  | toUpper | toLower | trimSpace | contains | hasPrefix | hasSuffix | .repeat | replaceAll =>
    "strings"
  | sqrt | pow | abs | floor | ceil | round | max | min => "math"
  | intn | randomInt | float64 => "math/rand"

/-- The name of a function within its package. -/
def name : Native → String
  | sprintf => "Sprintf"
  | sprint => "Sprint"
  | sprintln => "Sprintln"
  | toUpper => "ToUpper"
  | toLower => "ToLower"
  | trimSpace => "TrimSpace"
  | contains => "Contains"
  | hasPrefix => "HasPrefix"
  | hasSuffix => "HasSuffix"
  | .repeat => "Repeat"
  | replaceAll => "ReplaceAll"
  | sqrt => "Sqrt"
  | pow => "Pow"
  | abs => "Abs"
  | floor => "Floor"
  | ceil => "Ceil"
  | round => "Round"
  | max => "Max"
  | min => "Min"
  | intn => "Intn"
  | randomInt => "RandomInt"
  | float64 => "Float64"

/-- The type of a function. -/
def signature : Native → Ty
  | sprintf => .function [.string] (some .any) .string
  | sprint | sprintln => .function [] (some .any) .string
  | toUpper | toLower | trimSpace => .plainFunction [.string] .string
  | contains | hasPrefix | hasSuffix => .plainFunction [.string, .string] .bool
  | .repeat => .plainFunction [.string, .int] .string
  | replaceAll => .plainFunction [.string, .string, .string] .string
  | sqrt | abs | floor | ceil | round => .plainFunction [.float] .float
  | pow | max | min => .plainFunction [.float, .float] .float
  | intn => .plainFunction [.int] .int
  | randomInt => .plainFunction [.int, .int] .int
  | float64 => .plainFunction [] .float

theorem mem_all (n : Native) : n ∈ all := by
  cases n <;> decide

end Native

namespace Package

/-- The paths of the packages. -/
def paths : List String := ["fmt", "strings", "math", "math/rand"]

/-- The function that a package offers under a name. -/
def member? (path name : String) : Option Native :=
  Native.all.find? fun n => n.package == path && n.name == name

theorem member?_name (n : Native) : member? n.package n.name = some n := by
  cases n <;> decide +kernel

theorem package_mem_paths (n : Native) : n.package ∈ paths := by
  cases n <;> decide +kernel

end Package

end Formula
