import Alerting.Json.Value
import Alerting.Number.Notation

/-!
# JSON text

A JSON text is the written form of a sequence of tokens. The compact form of a value is its tokens
one after another; the pretty form puts blanks between them, which mean nothing to a reader.
-/

namespace Alerting

inductive Token where
  | objectStart
  | objectEnd
  | arrayStart
  | arrayEnd
  | colon
  | comma
  | scalar (value : Scalar)
  | vastNumber
  | brokenString
deriving DecidableEq, Repr

namespace Json

/-- Numbers in JSON text are written out in full between `10 ^ -5` and `10 ^ 16`, and always have a
fraction digit or an exponent. -/
def numberStyle : Notation := ⟨fun exponent => -5 ≤ exponent && exponent < 16, true, .toEven⟩

def escape (char : Char) : List Char :=
  match char with
  | '"' => ['\\', '"']
  | '\\' => ['\\', '\\']
  | '\x08' => ['\\', 'b']
  | '\x0c' => ['\\', 'f']
  | '\n' => ['\\', 'n']
  | '\r' => ['\\', 'r']
  | '\t' => ['\\', 't']
  | char =>
      if char.toNat < 0x20 then
        ['\\', 'u', '0', '0', (char.toNat / 16).digitChar, (char.toNat % 16).digitChar]
      else [char]

end Json

namespace Scalar

/-- The text of a scalar. Numbers that are not finite have no JSON text and are written as
`null`. -/
def text : Scalar → List Char
  | .null => ['n', 'u', 'l', 'l']
  | .bool true => ['t', 'r', 'u', 'e']
  | .bool false => ['f', 'a', 'l', 's', 'e']
  | .int (.ofNat n) => Nat.toDigits 10 n
  | .int (.negSucc n) => '-' :: Nat.toDigits 10 (n + 1)
  | .float .nan => ['n', 'u', 'l', 'l']
  | .float (.signed negative magnitude) =>
      if magnitude.isFinite then
        let body := Json.numberStyle.magnitude magnitude
        if negative then '-' :: body else body
      else ['n', 'u', 'l', 'l']
  | .string value => '"' :: value.toList.flatMap Json.escape ++ ['"']

end Scalar

namespace Token

def openBrace : Char := '\x7b'

def closeBrace : Char := '\x7d'

def text : Token → List Char
  | .objectStart => [openBrace]
  | .objectEnd => [closeBrace]
  | .arrayStart => ['[']
  | .arrayEnd => [']']
  | .colon => [':']
  | .comma => [',']
  | .scalar value => value.text
  | .vastNumber => ['1', 'e', '9', '9', '9']
  | .brokenString => ['"', '\\', 'u', 'd', '8', '0', '0', '"']

def opens : Token → Bool
  | .objectStart | .arrayStart => true
  | _ => false

def closes : Token → Bool
  | .objectEnd | .arrayEnd => true
  | _ => false

def newLine (depth : Nat) : List Char := '\n' :: List.replicate (2 * depth) ' '

def gap (depth : Nat) (left right : Token) : List Char :=
  if left.opens && right.closes then []
  else if left.opens || right.closes || left == .comma then newLine depth
  else if left == .colon then [' ']
  else []

def compact (tokens : List Token) : List Char := tokens.flatMap text

def prettyAfter (depth : Nat) (left : Token) : List Token → List Char
  | [] => []
  | right :: rest =>
      let inside := if left.opens then depth + 1 else depth
      let depth := if right.closes then inside - 1 else inside
      gap depth left right ++ right.text ++ prettyAfter depth right rest

def pretty : List Token → List Char
  | [] => []
  | first :: rest => first.text ++ prettyAfter 0 first rest

end Token

namespace Json

mutual

def tokens : Json → List Token
  | .scalar value => [.scalar value]
  | .unreadable => [.vastNumber]
  | .array [] => [.arrayStart, .arrayEnd]
  | .array (first :: rest) => .arrayStart :: first.tokens ++ itemTokens rest
  | .object [] => [.objectStart, .objectEnd]
  | .object ((name, value) :: rest) =>
      .objectStart :: .scalar (.string name) :: .colon :: value.tokens ++ memberTokens rest

def itemTokens : List Json → List Token
  | [] => [.arrayEnd]
  | item :: rest => .comma :: item.tokens ++ itemTokens rest

def memberTokens : List (String × Json) → List Token
  | [] => [.objectEnd]
  | (name, value) :: rest =>
      .comma :: .scalar (.string name) :: .colon :: value.tokens ++ memberTokens rest

end

def compact (json : Json) : String := String.ofList (Token.compact json.tokens)

def pretty (json : Json) : String := String.ofList (Token.pretty json.tokens)

end Json

end Alerting
