import Alerting.Number.Basic

/-!
# Operators

The comparisons that conditions can make. Names that stand for no comparison are kept, so that
rules with them can be stored and shown; such an operator never holds.
-/

namespace Alerting

inductive Operator where
  | is
  | isNot
  | contains
  | notContains
  | greaterThan
  | lessThan
  | greaterOrEqual
  | lessOrEqual
  | unknown (name : String)
deriving DecidableEq, Repr

namespace Operator

def name : Operator → String
  | is => "is"
  | isNot => "is_not"
  | contains => "contains"
  | notContains => "not_contains"
  | greaterThan => "greater_than"
  | lessThan => "less_than"
  | greaterOrEqual => "greater_or_equal"
  | lessOrEqual => "less_or_equal"
  | unknown name => name

def known : List Operator :=
  [is, isNot, contains, notContains, greaterThan, lessThan, greaterOrEqual, lessOrEqual]

def ofName (name : String) : Operator :=
  (known.find? fun operator => operator.name == name).getD (unknown name)

def isNumeric : Operator → Bool
  | greaterThan | lessThan | greaterOrEqual | lessOrEqual => true
  | _ => false

/-- Compares two numbers. Operators that are not numeric never hold. -/
def compare (operator : Operator) (left right : Number) : Bool :=
  match operator with
  | greaterThan => right < left
  | lessThan => left < right
  | greaterOrEqual => right ≤ left
  | lessOrEqual => left ≤ right
  | _ => false

end Operator

end Alerting
