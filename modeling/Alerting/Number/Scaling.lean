import Alerting.Number.Nearest

/-!
# Scaling by powers of ten

Products and quotients of magnitudes are exact fractions, rounded to the nearest magnitude. A
magnitude is scaled by a power of ten in this way. The power is itself rounded, and a division by a
large power is done in steps, so the outcome is close to the scaled magnitude without always being
the nearest one to it.
-/

namespace Alerting

namespace Magnitude

def nearest (numerator denominator : Nat) : Magnitude :=
  .ofRank (Format.double.nearest numerator denominator)

def mul (left right : Magnitude) : Magnitude :=
  nearest (left.numerator * right.numerator) (left.denominator * right.denominator)

def div (left right : Magnitude) : Magnitude :=
  nearest (left.numerator * right.denominator) (left.denominator * right.numerator)

def powerOfTen (exponent : Nat) : Magnitude := nearest (Nat.pow 10 exponent) 1

def maxPower : Nat := 308

def raise? (magnitude : Magnitude) (exponent : Nat) : Option Magnitude :=
  if magnitude = zero then some zero
  else if maxPower < exponent then none
  else
    let product := magnitude.mul (powerOfTen exponent)
    if product.isFinite then some product else none

def lower (magnitude : Magnitude) (exponent : Nat) : Magnitude :=
  if exponent ≤ maxPower then magnitude.div (powerOfTen exponent)
  else if magnitude = zero then zero
  else (magnitude.div (powerOfTen maxPower)).lower (exponent - maxPower)
termination_by exponent
decreasing_by
  unfold maxPower at *
  omega

def scale? (magnitude : Magnitude) (exponent : Int) : Option Magnitude :=
  if exponent < 0 then some (magnitude.lower exponent.natAbs)
  else magnitude.raise? exponent.natAbs

end Magnitude

end Alerting
