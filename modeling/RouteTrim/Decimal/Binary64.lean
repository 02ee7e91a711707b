/-!
# Binary floating point numbers

A number with 53 significant bits, held exactly as a sign, a mantissa and a power of two, so that
reading a decimal and writing the shortest one that reads back are integer arithmetic.

`ofDecimal` rounds to the nearest such number, a tie to the even mantissa; what lies above the
largest finite one is infinite.
-/

set_option autoImplicit false

namespace RouteTrim.Decimal

/-- A floating point number. A finite one is `± mantissa * 2 ^ exponent`. -/
inductive Binary64 where
  | finite (negative : Bool) (mantissa : Nat) (exponent : Int)
  | infinite (negative : Bool)
  | notANumber
  deriving DecidableEq, Repr

namespace Binary64

/-- The least exponent, shared by zero and the numbers close to it. -/
def leastExponent : Int := -1074

def largestExponent : Int := 971

/-- A quotient rounded to the nearest integer, a tie to the even one. -/
def roundHalfEven (numerator denominator : Nat) : Nat :=
  let quotient := numerator / denominator
  let twice := 2 * (numerator % denominator)
  if twice < denominator then quotient
  else if denominator < twice then quotient + 1
  else quotient + quotient % 2

/-- `numerator / (denominator * 2 ^ exponent)` as a fraction of natural numbers. -/
def scaled (numerator denominator : Nat) (exponent : Int) : Nat × Nat :=
  if 0 ≤ exponent then (numerator, denominator * Nat.pow 2 exponent.toNat)
  else (numerator * Nat.pow 2 (-exponent).toNat, denominator)

/-- The number nearest to a positive fraction. -/
def ofFraction (negative : Bool) (numerator denominator : Nat) : Binary64 :=
  let bits : Int := (numerator.log2 : Int) - denominator.log2
  let (n, d) := scaled numerator denominator (bits - 53)
  let exponent := if n / d < Nat.pow 2 53 then bits - 53 else bits - 52
  let exponent := max leastExponent exponent
  let (n, d) := scaled numerator denominator exponent
  let mantissa := roundHalfEven n d
  let (mantissa, exponent) :=
    if mantissa = Nat.pow 2 53 then (Nat.pow 2 52, exponent + 1) else (mantissa, exponent)
  if largestExponent < exponent then .infinite negative else .finite negative mantissa exponent

/-- The number nearest to `± digits * 10 ^ power`. Powers far outside the range are decided by
the position of the first digit. -/
def ofDecimal (negative : Bool) (digits : Nat) (power : Int) : Binary64 :=
  if digits = 0 then .finite negative 0 leastExponent
  else
    let first : Int := (Nat.toDigits 10 digits).length + power
    if 400 < first then .infinite negative
    else if first < -400 then .finite negative 0 leastExponent
    else if 0 ≤ power then ofFraction negative (digits * Nat.pow 10 power.toNat) 1
    else ofFraction negative digits (Nat.pow 10 (-power).toNat)

/-- Whether the number is zero, of either sign. -/
def isZero : Binary64 → Bool
  | finite _ mantissa _ => mantissa == 0
  | _ => false

/-- The integer that the number equals, if it equals one. -/
def toInt? : Binary64 → Option Int
  | finite negative mantissa exponent =>
    let (n, d) := scaled mantissa 1 (-exponent)
    if n % d = 0 then some (if negative then -((n / d : Nat) : Int) else (n / d : Nat)) else none
  | _ => none

end Binary64

end RouteTrim.Decimal
