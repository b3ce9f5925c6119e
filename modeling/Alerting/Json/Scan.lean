import Alerting.Json.Figure
import Alerting.Json.Token

/-!
# Scanning JSON text

The scanner reads a text character by character. Outside quotes it gathers the characters of a
number or a word until a character that cannot belong to it; inside quotes it resolves escapes.
Text that is not JSON is refused: control characters inside quotes, unknown escapes, and words other
than `true`, `false` and `null`. A string with half of a surrogate pair and a number past all finite
ones are tokens that have no value.
-/

namespace Alerting

namespace Json

def wordScalar? (text : List Char) : Option Scalar :=
  if text = Scalar.null.text then some .null
  else if text = (Scalar.bool true).text then some (.bool true)
  else if text = (Scalar.bool false).text then some (.bool false)
  else none

end Json

/-- What the scanner is in the middle of. Gathered characters are held last first; those of a string
that turns out to be broken are given up. -/
inductive Scanning where
  | blank
  | number (chars : List Char)
  | word (chars : List Char)
  | quoted (chars : Option (List Char))
  | escape (chars : Option (List Char))
  /-- Inside a numeric escape: its value so far, the digits to come, and the first half of a
  surrogate pair if it is the second one. -/
  | code (chars : Option (List Char)) (value missing : Nat) (high : Option Nat)
  | half (chars : List Char) (high : Nat)
  | halfEscape (chars : List Char) (high : Nat)
deriving Repr

structure Scanner where
  scanning : Scanning
  tokens : List Token
deriving Repr

namespace Scanner

def start : Scanner := ⟨.blank, []⟩

def isBlank (char : Char) : Bool := char == ' ' || char == '\t' || char == '\n' || char == '\r'

def isNumberChar (char : Char) : Bool :=
  char.isDigit || char == '-' || char == '+' || char == '.' || char == 'e' || char == 'E'

def markToken? (char : Char) : Option Token :=
  if char = Token.openBrace then some .objectStart
  else if char = Token.closeBrace then some .objectEnd
  else if char = '[' then some .arrayStart
  else if char = ']' then some .arrayEnd
  else if char = ':' then some .colon
  else if char = ',' then some .comma
  else none

def between (tokens : List Token) (char : Char) : Option Scanner :=
  if isBlank char then some ⟨.blank, tokens⟩
  else if char = '"' then some ⟨.quoted (some []), tokens⟩
  else if char = '-' ∨ char.isDigit then some ⟨.number [char], tokens⟩
  else if char.isLower then some ⟨.word [char], tokens⟩
  else (markToken? char).map fun token => ⟨.blank, token :: tokens⟩

def numberToken? (text : List Char) : Option Token :=
  (Json.Figure.parse? text).map fun figure =>
    match figure.scalar? with
    | some scalar => .scalar scalar
    | none => .vastNumber

def stringToken : Option (List Char) → Token
  | some chars => .scalar (.string (String.ofList chars.reverse))
  | none => .brokenString

def settle (scanner : Scanner) : Option (List Token) :=
  match scanner.scanning with
  | .blank => some scanner.tokens
  | .number chars => (numberToken? chars.reverse).map (· :: scanner.tokens)
  | .word chars => (Json.wordScalar? chars.reverse).map (.scalar · :: scanner.tokens)
  | _ => none

def shortEscape? (char : Char) : Option Char :=
  match char with
  | '"' => some '"'
  | '\\' => some '\\'
  | '/' => some '/'
  | 'b' => some '\x08'
  | 'f' => some '\x0c'
  | 'n' => some '\n'
  | 'r' => some '\r'
  | 't' => some '\t'
  | _ => none

def hexValue? (char : Char) : Option Nat :=
  if char.isDigit then some (char.toNat - '0'.toNat)
  else if 'a' ≤ char ∧ char ≤ 'f' then some (char.toNat - 'a'.toNat + 10)
  else if 'A' ≤ char ∧ char ≤ 'F' then some (char.toNat - 'A'.toNat + 10)
  else none

def isHigh (unit : Nat) : Bool := 0xD800 ≤ unit && unit < 0xDC00

def isLow (unit : Nat) : Bool := 0xDC00 ≤ unit && unit < 0xE000

/-- What follows a complete numeric escape. Half of a surrogate pair without the other one breaks
the string. -/
def afterUnit (chars : Option (List Char)) (unit : Nat) (high : Option Nat) : Scanning :=
  match chars, high with
  | none, _ => .quoted none
  | some chars, none =>
      if isHigh unit then .half chars unit
      else if isLow unit then .quoted none
      else .quoted (some (Char.ofNat unit :: chars))
  | some chars, some high =>
      if isLow unit then
        let code := 0x10000 + (high - 0xD800) * 0x400 + (unit - 0xDC00)
        .quoted (some (Char.ofNat code :: chars))
      else .quoted none

def insideQuotes (chars : Option (List Char)) (char : Char) : Option Scanning :=
  if char = '\\' then some (.escape chars)
  else if char.toNat < 0x20 then none
  else some (.quoted (chars.map (char :: ·)))

def afterBackslash (chars : Option (List Char)) (char : Char) : Option Scanning :=
  if char = 'u' then some (.code chars 0 4 none)
  else (shortEscape? char).map fun plain => .quoted (chars.map (plain :: ·))

def step (scanner : Scanner) (char : Char) : Option Scanner :=
  let tokens := scanner.tokens
  let go (scanning : Scanning) : Scanner := ⟨scanning, tokens⟩
  let string (chars : Option (List Char)) : Option Scanner :=
    if char = '"' then some ⟨.blank, stringToken chars :: tokens⟩
    else (insideQuotes chars char).map go
  match scanner.scanning with
  | .blank => between tokens char
  | .number chars =>
      if isNumberChar char then some (go (.number (char :: chars)))
      else scanner.settle.bind (between · char)
  | .word chars =>
      if char.isLower then some (go (.word (char :: chars)))
      else scanner.settle.bind (between · char)
  | .quoted chars => string chars
  | .escape chars => (afterBackslash chars char).map go
  | .code chars value missing high => do
      let value := 16 * value + (← hexValue? char)
      if missing ≤ 1 then some (go (afterUnit chars value high))
      else some (go (.code chars value (missing - 1) high))
  | .half chars high => if char = '\\' then some (go (.halfEscape chars high)) else string none
  | .halfEscape chars high =>
      if char = 'u' then some (go (.code (some chars) 0 4 (some high)))
      else (afterBackslash none char).map go

def scan? (text : List Char) : Option (List Token) := do
  let scanner ← text.foldlM step start
  let tokens ← scanner.settle
  some tokens.reverse

end Scanner

end Alerting
