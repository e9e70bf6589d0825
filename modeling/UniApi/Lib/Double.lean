/-
**Doubles: the numbers of IEEE 754 that are not negative.**

A double is a mantissa of 53 bits times a power of two, or infinite. Results are rounded to the
nearest double, and to the even one of two.
-/

import Mathlib.Algebra.Order.Ring.Int
import Mathlib.Data.Nat.Log

namespace UniApi.Lib

/-- A double that is not negative: `finite mantissa exponent` is `mantissa * 2 ^ exponent`. -/
inductive Double where
  | finite (mantissa : Nat) (exponent : Int)
  | infinite
  deriving DecidableEq

namespace Double

/-- The nearest whole number, the even one of two. -/
def roundHalfEven (numerator denominator : Nat) : Nat :=
  let quotient := numerator / denominator
  let twice := 2 * (numerator % denominator)
  if denominator < twice ∨ (twice = denominator ∧ quotient % 2 = 1) then quotient + 1 else quotient

/-- A ratio divided by a power of two. -/
def scale (numerator denominator : Nat) (exponent : Int) : Nat × Nat :=
  if 0 ≤ exponent then (numerator, denominator * 2 ^ exponent.toNat)
  else (numerator * 2 ^ (-exponent).toNat, denominator)

/-- The exponent of the last place: mantissas have 53 bits, and no exponent is below -1074. -/
def lastPlace (numerator denominator : Nat) : Int :=
  let guess : Int := (numerator.log2 : Int) - denominator.log2 - 53
  let scaled := scale numerator denominator guess
  max (-1074) (if scaled.1 / scaled.2 < 2 ^ 53 then guess else guess + 1)

/-- The double nearest to a ratio. -/
def ofRatio (numerator denominator : Nat) : Double :=
  let exponent := lastPlace numerator denominator
  let scaled := scale numerator denominator exponent
  let mantissa := roundHalfEven scaled.1 scaled.2
  if 0 ≤ exponent ∧ 2 ^ 1024 ≤ mantissa * 2 ^ exponent.toNat then infinite
  else finite mantissa exponent

/-- A double as a ratio. -/
def ratio (mantissa : Nat) (exponent : Int) : Nat × Nat :=
  if 0 ≤ exponent then (mantissa * 2 ^ exponent.toNat, 1) else (mantissa, 2 ^ (-exponent).toNat)

/-- A product with a whole number that is a double itself. -/
def mulNat (factor : Nat) : Double → Double
  | finite mantissa exponent =>
    let value := ratio mantissa exponent
    ofRatio (factor * value.1) value.2
  | infinite => infinite

/-- A decimal number, by the digits on both sides of its point. -/
def ofDecimal (whole fraction : List Nat) : Double :=
  ofRatio ((whole ++ fraction).foldl (fun value next => 10 * value + next) 0) (10 ^ fraction.length)

/-- A quotient by a whole number that is a double itself. -/
def divNat (divisor : Nat) : Double → Double
  | finite mantissa exponent =>
    let value := ratio mantissa exponent
    ofRatio value.1 (value.2 * divisor)
  | infinite => infinite

/-- The whole number that is not below. -/
def ceil : Double → Double
  | finite mantissa exponent =>
    let value := ratio mantissa exponent
    ofRatio ((value.1 + value.2 - 1) / value.2) 1
  | infinite => infinite

/-- Whether a double is more than zero. -/
def isPositive : Double → Bool
  | finite mantissa _ => 0 < mantissa
  | infinite => true

/-- Whether a double is at most another one. -/
def le : Double → Double → Bool
  | _, infinite => true
  | infinite, finite _ _ => false
  | finite mantissa exponent, finite mantissa' exponent' =>
    let value := ratio mantissa exponent
    let value' := ratio mantissa' exponent'
    value.1 * value'.2 ≤ value'.1 * value.2

/-- The larger of two doubles. -/
def larger (first second : Double) : Double := if first.le second then second else first

/-- Seconds as whole nanoseconds, where 64 bits hold the seconds. -/
def nanoseconds : Double → Option Nat
  | finite mantissa exponent =>
    let value := ratio mantissa exponent
    let nanos := roundHalfEven (value.1 * 1000000000) value.2
    if nanos < 2 ^ 64 * 1000000000 then some nanos else none
  | infinite => none

example : (ofDecimal [2, 0] []).mulNat 1048576 = ofRatio 20971520 1 := by decide

example : (ofDecimal [1] [1]).mulNat 1000 = ofRatio 1100 1 := by decide

end Double

end UniApi.Lib
