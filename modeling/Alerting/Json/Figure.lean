import Alerting.Json.Value
import Alerting.Number.Numeral
import Alerting.Number.Scaling

/-!
# Numbers in JSON text

A number without point and exponent is a whole number if 64 bits hold it. Any other number is read
from its leading digits, as many as 64 bits hold, which are then scaled by a power of ten. Numbers
of a few digits are read exactly in this way, others to within the last place or so.
-/

namespace Alerting

namespace Json

structure Figure where
  negative : Bool
  whole : List Char
  fraction : List Char
  exponent : Int
  isWhole : Bool
deriving DecidableEq, Repr

namespace Figure

def parse? (text : List Char) : Option Figure := do
  let (negative, unsigned) := match text with
    | '-' :: rest => (true, rest)
    | _ => (false, text)
  let (whole, rest) := Numeral.splitDigits unsigned
  if whole = [] ∨ (whole.head? = some '0' ∧ 1 < whole.length) then none
  else
    let (fraction, rest) ← match rest with
      | '.' :: rest =>
          let (fraction, rest) := Numeral.splitDigits rest
          if fraction = [] then none else some (fraction, rest)
      | _ => some ([], rest)
    let exponent ← Numeral.exponent? rest
    some ⟨negative, whole, fraction, exponent, fraction = [] ∧ rest = []⟩

def fill (value : Nat) : List Char → Nat × Nat
  | [] => (value, 0)
  | digit :: rest =>
      let longer := 10 * value + Numeral.digitValue digit
      if longer < UInt64.size then fill longer rest else (value, rest.length + 1)

/-- The decimal of the leading digits. Where digits before the point are left out, those after it
are still appended if they fit. -/
def leading (figure : Figure) : Decimal :=
  let (digits, left) := fill 0 figure.whole
  let (digits, dropped) := fill digits figure.fraction
  ⟨digits, figure.exponent + left + dropped - figure.fraction.length⟩

/-- The whole number, if 64 bits hold it. Minus zero is not one, since whole numbers have no signed
zero. -/
def whole? (figure : Figure) : Option Int :=
  let value := Numeral.digitsValue figure.whole
  if !figure.isWhole then none
  else if figure.negative then
    if 0 < value ∧ Int64.minValue.toInt ≤ -(value : Int) then some (-value) else none
  else if value < UInt64.size then some value
  else none

def number? (figure : Figure) : Option Number :=
  let decimal := figure.leading
  let digits := Magnitude.nearest decimal.digits 1
  (digits.scale? decimal.exponent).map (.signed figure.negative)

def scalar? (figure : Figure) : Option Scalar :=
  match figure.whole? with
  | some value => some (.int value)
  | none => figure.number?.map .float

end Figure

end Json

end Alerting
