import Alerting.Number.Basic

/-!
# Rounding to the nearest number

`Format.nearest` gives the rank of the magnitude closest to a fraction; a fraction halfway between
two magnitudes goes to the one with the even mantissa, and one beyond the greatest magnitude by
half a step or more to infinity. Decimals, whole numbers and the values of the 32-bit format are
all read through it.
-/

namespace Alerting

def roundHalfEven (numerator denominator : Nat) : Nat :=
  let quotient := numerator / denominator
  match compare (2 * (numerator % denominator)) denominator with
  | .lt => quotient
  | .gt => quotient + 1
  | .eq => if quotient % 2 = 0 then quotient else quotient + 1

def leadingExponent (numerator denominator : Nat) : Int :=
  let estimate : Int := (numerator.log2 : Int) - denominator.log2
  if denominator * Nat.pow 2 estimate.toNat ≤ numerator * Nat.pow 2 (-estimate).toNat then
    estimate
  else estimate - 1

namespace Format

def nearest (format : Format) (numerator denominator : Nat) : Nat :=
  if numerator = 0 then 0
  else
    let exponent := max format.leastExponent
      (leadingExponent numerator denominator - format.fractionBits)
    let mantissa := roundHalfEven (numerator * Nat.pow 2 (-exponent).toNat)
      (denominator * Nat.pow 2 exponent.toNat)
    min format.infiniteRank
      ((exponent - format.leastExponent).toNat * format.stride + mantissa)

end Format

structure Decimal where
  digits : Nat
  exponent : Int
deriving DecidableEq, Repr

def digitCount (n : Nat) : Nat := (Nat.toDigits 10 n).length

namespace Decimal

/-- The power of ten just above the leading digit: a positive decimal lies below `10 ^ scale` and
not below `10 ^ (scale - 1)`. -/
def scale (decimal : Decimal) : Int := digitCount decimal.digits + decimal.exponent

/-- The rank nearest to a decimal. Decimals beyond `10 ^ 400` or below `10 ^ -400` are past the
range of every format, which keeps the powers of ten small. -/
def nearest (format : Format) (decimal : Decimal) : Nat :=
  if decimal.digits = 0 ∨ decimal.scale < -400 then 0
  else if 400 < decimal.scale then format.infiniteRank
  else
    format.nearest (decimal.digits * Nat.pow 10 decimal.exponent.toNat)
      (Nat.pow 10 (-decimal.exponent).toNat)

end Decimal

namespace Number

def ofDecimal (negative : Bool) (decimal : Decimal) : Number :=
  .signed negative (.ofRank (decimal.nearest .double))

def ofInt (n : Int) : Number :=
  .signed (decide (n < 0)) (.ofRank (Format.double.nearest n.natAbs 1))

def ofDecimalSingle (negative : Bool) (decimal : Decimal) : Number :=
  let rank := decimal.nearest .single
  if rank < Format.single.infiniteRank then
    let exponent := Format.single.exponent rank
    .signed negative (.ofRank (Format.double.nearest
      (Format.single.mantissa rank * Nat.pow 2 exponent.toNat)
      (Nat.pow 2 (-exponent).toNat)))
  else .signed negative .infinite

end Number

end Alerting
