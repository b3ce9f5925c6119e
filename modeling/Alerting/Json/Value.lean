import Alerting.Number.Nearest

/-!
# JSON values

Rules, events and settings are exchanged as JSON. A value is a scalar or a container; the members
of an object keep their order, and a name may occur more than once. Whole numbers and numbers with
a fraction or an exponent are kept apart, since only the former can stand for counts and
identities. A part of a text can be well-formed and still have no value; it does no harm where
nothing reads it.
-/

namespace Alerting

inductive Scalar where
  | null
  | bool (value : Bool)
  | int (value : Int)
  | float (value : Number)
  | string (value : String)
deriving DecidableEq, Repr

inductive Json where
  | scalar (value : Scalar)
  | array (items : List Json)
  | object (members : List (String × Json))
  /-- A part of a text that has no value: a number past all finite ones, a string with half of a
  surrogate pair, an object with such a name, or a container that stands too deep. -/
  | unreadable
deriving Repr

instance : Inhabited Json := ⟨.scalar .null⟩

namespace Json

def null : Json := .scalar .null

def bool (value : Bool) : Json := .scalar (.bool value)

def int (value : Int) : Json := .scalar (.int value)

def nat (value : Nat) : Json := .scalar (.int value)

def float (value : Number) : Json := .scalar (.float value)

def string (value : String) : Json := .scalar (.string value)

mutual

def isReadable : Json → Bool
  | .scalar _ => true
  | .array items => allReadable items
  | .object members => membersReadable members
  | .unreadable => false

def allReadable : List Json → Bool
  | [] => true
  | item :: rest => item.isReadable && allReadable rest

def membersReadable : List (String × Json) → Bool
  | [] => true
  | (_, value) :: rest => value.isReadable && membersReadable rest

end

def string? : Json → Option String
  | .scalar (.string value) => some value
  | _ => none

def bool? : Json → Option Bool
  | .scalar (.bool value) => some value
  | _ => none

def int? : Json → Option Int
  | .scalar (.int value) => some value
  | _ => none

def number? : Json → Option Number
  | .scalar (.int value) => some (.ofInt value)
  | .scalar (.float value) => some value
  | _ => none

def items? : Json → Option (List Json)
  | .array items => some items
  | _ => none

def members? : Json → Option (List (String × Json))
  | .object members => some members
  | _ => none

def uint64? (json : Json) : Option UInt64 := do
  let value ← json.int?
  if h : value.toNat < UInt64.size ∧ 0 ≤ value then some (.ofNatLT value.toNat h.1) else none

def uint32? (json : Json) : Option UInt32 := do
  let value ← json.int?
  if h : value.toNat < UInt32.size ∧ 0 ≤ value then some (.ofNatLT value.toNat h.1) else none

def int64? (json : Json) : Option Int64 := do
  let value ← json.int?
  if Int64.minValue.toInt ≤ value ∧ value ≤ Int64.maxValue.toInt then some (.ofInt value)
  else none

end Json

end Alerting
