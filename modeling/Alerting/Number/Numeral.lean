import Alerting.Number.Nearest

/-!
# Numerals

Thresholds, operands and numeric text are read by one grammar: an optional sign, then `inf`,
`infinity` or `nan` in any case, or digits with an optional point (at least one digit in all) and
an optional exponent. Nothing else is a numeral, blanks and digits beyond ASCII included.
-/

namespace Alerting

namespace Numeral

def digitValue (digit : Char) : Nat := digit.toNat - '0'.toNat

def digitsValue (digits : List Char) : Nat :=
  digits.foldl (fun value digit => 10 * value + digitValue digit) 0

def splitDigits (text : List Char) : List Char × List Char :=
  (text.takeWhile Char.isDigit, text.dropWhile Char.isDigit)

def splitSign : List Char → Bool × List Char
  | '-' :: rest => (true, rest)
  | '+' :: rest => (false, rest)
  | text => (false, text)

def splitFraction : List Char → List Char × List Char
  | '.' :: rest => splitDigits rest
  | text => ([], text)

def exponent? (text : List Char) : Option Int :=
  match text with
  | [] => some 0
  | mark :: rest =>
      if mark = 'e' ∨ mark = 'E' then
        let (negative, digits) := splitSign rest
        if digits ≠ [] ∧ digits.all Char.isDigit then
          some (if negative then -(digitsValue digits : Int) else digitsValue digits)
        else none
      else none

def decimal? (text : List Char) : Option Decimal := do
  let (whole, rest) := splitDigits text
  let (fraction, rest) := splitFraction rest
  if whole = [] ∧ fraction = [] then none
  else
    let exponent ← exponent? rest
    some ⟨digitsValue (whole ++ fraction), exponent - fraction.length⟩

def word? (text : List Char) : Option (Bool → Number) :=
  let word := String.ofList (text.map Char.toLower)
  if word = "nan" then some fun _ => .nan
  else if word = "inf" ∨ word = "infinity" then some fun negative => .signed negative .infinite
  else none

def read (round : Bool → Decimal → Number) (text : String) : Option Number :=
  let (negative, rest) := splitSign text.toList
  match word? rest with
  | some number => some (number negative)
  | none => (decimal? rest).map (round negative)

end Numeral

namespace Number

def parse? (text : String) : Option Number := Numeral.read .ofDecimal text

def parseSingle? (text : String) : Option Number := Numeral.read .ofDecimalSingle text

end Number

end Alerting
