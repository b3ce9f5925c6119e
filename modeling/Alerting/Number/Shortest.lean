import Alerting.Number.Nearest

/-!
# The fewest digits that read back

`Magnitude.shortest` writes a finite magnitude with as few decimal digits as suffice to read the
same magnitude back. For a given number of digits only the two decimals around the value on that
grid are candidates; of two that both read back the closer is taken, and a tie between them is the
choice of the format that writes the number.
-/

namespace Alerting

/-- Where an exact tie between two equally short decimals goes. -/
inductive Tie where
  | toEven
  | upward
deriving DecidableEq, Repr

namespace Magnitude

def readsBack (magnitude : Magnitude) (decimal : Decimal) : Bool :=
  decimal.nearest .double == magnitude.rank

def scale (magnitude : Magnitude) : Int :=
  let whole := magnitude.numerator / magnitude.denominator
  if whole = 0 then
    let zeros := digitCount (magnitude.denominator / magnitude.numerator) - 1
    if magnitude.numerator * Nat.pow 10 zeros < magnitude.denominator then -(zeros : Int)
    else 1 - (zeros : Int)
  else digitCount whole

def floorAt (magnitude : Magnitude) (exponent : Int) : Nat :=
  (magnitude.numerator * Nat.pow 10 (-exponent).toNat) /
    (magnitude.denominator * Nat.pow 10 exponent.toNat)

def compareMiddle (magnitude : Magnitude) (digits : Nat) (exponent : Int) : Ordering :=
  compare (2 * magnitude.numerator * Nat.pow 10 (-exponent).toNat)
    ((2 * digits + 1) * magnitude.denominator * Nat.pow 10 exponent.toNat)

def candidate? (magnitude : Magnitude) (tie : Tie) (exponent : Int) : Option Decimal :=
  let below := magnitude.floorAt exponent
  let lower : Decimal := ⟨below, exponent⟩
  let upper : Decimal := ⟨below + 1, exponent⟩
  match magnitude.readsBack lower, magnitude.readsBack upper with
  | false, false => none
  | true, false => some lower
  | false, true => some upper
  | true, true =>
      match magnitude.compareMiddle below exponent, tie with
      | .lt, _ => some lower
      | .gt, _ => some upper
      | .eq, .upward => some upper
      | .eq, .toEven => some (if below % 2 = 0 then lower else upper)

def exact (magnitude : Magnitude) : Decimal :=
  let exponent := Format.double.exponent magnitude.rank
  ⟨magnitude.numerator * Nat.pow 5 (-exponent).toNat, min exponent 0⟩

end Magnitude

namespace Decimal

def dropZeros : Nat → Decimal → Decimal
  | 0, decimal => decimal
  | count + 1, decimal =>
      if decimal.digits ≠ 0 ∧ decimal.digits % 10 = 0 then
        dropZeros count ⟨decimal.digits / 10, decimal.exponent + 1⟩
      else decimal

end Decimal

namespace Magnitude

/-- The shortest decimal that reads back, without trailing zeros. Seventeen digits always suffice;
were they not to, all digits are written. -/
def shortest (magnitude : Magnitude) (tie : Tie) : Decimal :=
  if magnitude.rank = 0 then ⟨0, 0⟩
  else
    let scale := magnitude.scale
    let found := (List.range 17).findSome? fun count =>
      magnitude.candidate? tie (scale - (count + 1 : Nat))
    let decimal := found.getD magnitude.exact
    decimal.dropZeros (digitCount decimal.digits)

end Magnitude

end Alerting
