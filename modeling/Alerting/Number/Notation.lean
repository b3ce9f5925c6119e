import Alerting.Number.Shortest

/-!
# Writing numbers

A `Notation` holds the decisions of an output format about numbers: which magnitudes are written
out in full, whether a whole number shows a fraction digit, and where ties between equally short
digits go.
-/

namespace Alerting

structure Notation where
  plain : Int → Bool
  pointZero : Bool
  tie : Tie

namespace Notation

def positional (style : Notation) (digits : List Char) (point : Int) : List Char :=
  if point ≤ 0 then
    '0' :: '.' :: List.replicate (-point).toNat '0' ++ digits
  else
    let whole := point.toNat
    if digits.length ≤ whole then
      digits ++ List.replicate (whole - digits.length) '0' ++
        (if style.pointZero then ['.', '0'] else [])
    else digits.take whole ++ '.' :: digits.drop whole

def scientific (digits : List Char) (exponent : Int) : List Char :=
  let mantissa := match digits with
    | [] => []
    | [digit] => [digit]
    | digit :: rest => digit :: '.' :: rest
  mantissa ++ 'e' :: (if exponent < 0 then '-' else '+') :: Nat.toDigits 10 exponent.natAbs

def magnitude (style : Notation) (magnitude : Magnitude) : List Char :=
  if magnitude.rank = 0 then if style.pointZero then ['0', '.', '0'] else ['0']
  else
    let decimal := magnitude.shortest style.tie
    let digits := Nat.toDigits 10 decimal.digits
    let point := (digits.length : Int) + decimal.exponent
    if style.plain (point - 1) then style.positional digits point
    else scientific digits (point - 1)

end Notation

namespace Number

def shown : Notation := ⟨fun _ => true, false, .upward⟩

def text : Number → String
  | .nan => "NaN"
  | .signed negative magnitude =>
      let body := if magnitude.isFinite then shown.magnitude magnitude else ['i', 'n', 'f']
      String.ofList (if negative then '-' :: body else body)

instance : ToString Number := ⟨Number.text⟩

end Number

end Alerting
