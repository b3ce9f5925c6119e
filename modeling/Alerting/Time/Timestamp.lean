import Alerting.Time.Instant
import Alerting.Text.Blank
import Alerting.Number.Numeral

/-!
# Timestamps

An instant is written as a date and a time of day in UTC, with as many fraction digits as it needs
in groups of three. A leap second is second 60 of its minute. Readers are more lenient: numbers may
be short, blanks may stand before any part, and the time may be given at an offset from UTC.
-/

namespace Alerting

namespace Timestamp

def padded (width value : Nat) : List Char :=
  let digits := Nat.toDigits 10 value
  List.replicate (width - digits.length) '0' ++ digits

/-- The years 0 to 9999 have four digits, all others a sign. -/
def yearText (year : Int) : List Char :=
  if 0 ≤ year ∧ year ≤ 9999 then padded 4 year.toNat
  else (if year < 0 then '-' else '+') :: padded 4 year.natAbs

def fractionText (nanos : Nat) : List Char :=
  if nanos = 0 then []
  else if nanos % 1000000 = 0 then '.' :: padded 3 (nanos / 1000000)
  else if nanos % 1000 = 0 then '.' :: padded 6 (nanos / 1000)
  else '.' :: padded 9 nanos

abbrev Reader (α : Type) := List Char → Option (α × List Char)

def digits (width : Nat) : Reader Nat := fun text =>
  let found := (text.take width).takeWhile Char.isDigit
  if found = [] then none else some (Numeral.digitsValue found, text.drop found.length)

def number (width : Nat) : Reader Nat := fun text => digits width (dropBlanks text)

def year : Reader Int := fun text =>
  match dropBlanks text with
  | '-' :: rest => (digits rest.length rest).map fun (value, rest) => (-(value : Int), rest)
  | '+' :: rest => (digits rest.length rest).map fun (value, rest) => ((value : Int), rest)
  | text => (digits 4 text).map fun (value, rest) => ((value : Int), rest)

def mark (char : Char) : Reader Unit := fun text =>
  match dropBlanks text with
  | first :: rest => if first = char then some ((), rest) else none
  | [] => none

/-- Reads an optional fraction of a second in nanoseconds. Digits after the ninth are dropped. -/
def fraction : Reader Nat := fun text =>
  match text with
  | '.' :: rest =>
      let (found, rest) := Numeral.splitDigits rest
      if found = [] then none
      else
        let kept := found.take 9
        some (Numeral.digitsValue kept * Nat.pow 10 (9 - kept.length), rest)
  | _ => some (0, text)

def twoDigits : Reader Nat := fun text =>
  match text with
  | first :: second :: rest =>
      if first.isDigit ∧ second.isDigit then some (Numeral.digitsValue [first, second], rest)
      else none
  | _ => none

def offsetSeconds : Reader Nat := fun text => do
  let (hours, rest) ← twoDigits text
  let (minutes, rest) ← twoDigits (rest.dropWhile fun char => char == ':' || isBlank char)
  if minutes < 60 then some (hours * 3600 + minutes * 60, rest) else none

def offset : Reader Int := fun text =>
  let utc := text.take 3
  if utc.map Char.toUpper = ['U', 'T', 'C'] then some (0, text.drop 3)
  else match text with
    | 'Z' :: rest | 'z' :: rest => some (0, rest)
    | '+' :: rest => (offsetSeconds rest).map fun (value, rest) => ((value : Int), rest)
    | '-' :: rest | '−' :: rest =>
        (offsetSeconds rest).map fun (value, rest) => (-(value : Int), rest)
    | _ => none

def separator : Reader Unit := fun text =>
  match text with
  | 'T' :: rest | 't' :: rest | ' ' :: rest => some ((), rest)
  | _ => none

end Timestamp

namespace Instant

def text (instant : Instant) : String :=
  let date := Date.ofDayNumber (instant.second / secondsPerDay)
  let time := instant.secondOfDay.toNat
  let leap := if instant.isLeap then 1 else 0
  String.ofList (Timestamp.yearText date.year ++ '-' :: Timestamp.padded 2 date.month ++
    '-' :: Timestamp.padded 2 date.day ++ 'T' :: Timestamp.padded 2 (time / 3600) ++
    ':' :: Timestamp.padded 2 (time / 60 % 60) ++ ':' :: Timestamp.padded 2 (time % 60 + leap) ++
    Timestamp.fractionText (instant.nano % nanosPerSecond).toNat ++ ['Z'])

instance : ToString Instant := ⟨Instant.text⟩

def parse? (text : String) : Option Instant := do
  let (year, rest) ← Timestamp.year text.toList
  let (_, rest) ← Timestamp.mark '-' rest
  let (month, rest) ← Timestamp.number 2 rest
  let (_, rest) ← Timestamp.mark '-' rest
  let (day, rest) ← Timestamp.number 2 rest
  let (_, rest) ← Timestamp.separator rest
  let (hour, rest) ← Timestamp.number 2 rest
  let (_, rest) ← Timestamp.mark ':' rest
  let (minute, rest) ← Timestamp.number 2 rest
  let (_, rest) ← Timestamp.mark ':' rest
  let (second, rest) ← Timestamp.number 2 rest
  let (fraction, rest) ← Timestamp.fraction rest
  let (offset, rest) ← Timestamp.offset (dropBlanks rest)
  let date : Date := ⟨year, month, day⟩
  if dropBlanks rest = [] ∧ -262143 ≤ year ∧ year ≤ 262142 ∧ date.isValid ∧ hour < 24 ∧
      minute < 60 ∧ second ≤ 60 ∧ offset.natAbs < secondsPerDay then
    let time := (hour * 60 + minute) * 60 + min second 59 - offset
    let leap := if second = 60 then nanosPerSecond else 0
    of? (date.dayNumber * secondsPerDay + time) (leap + fraction)
  else none

end Instant

end Alerting
