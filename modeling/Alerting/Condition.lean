import Alerting.Json.Fields
import Alerting.Operator
import Alerting.Time.Span

/-!
# Conditions

A condition compares one property of an event with an operand. A condition on a metric can ask that
the comparison has held for a while, and then looks at a window of past readings.
-/

namespace Alerting

structure Condition where
  property : String
  operator : Operator
  operand : String
  /-- For how many seconds the comparison must have held; 0 asks only about the event at hand. -/
  duration : UInt64
deriving DecidableEq, Repr

namespace Condition

def window (condition : Condition) : Option Span :=
  if condition.duration = 0 then none else some (.seconds condition.duration.toNat)

def text (condition : Condition) : String :=
  let comparison :=
    condition.property ++ " " ++ condition.operator.name ++ " " ++ condition.operand
  if condition.duration = 0 then comparison
  else comparison ++ " for " ++ toString condition.duration.toNat ++ "s"

def toJson (condition : Condition) : Json :=
  .object
    [("property", .string condition.property),
     ("operator", .string condition.operator.name),
     ("value", .string condition.operand),
     ("duration_secs", .nat condition.duration.toNat)]

def ofJson? (json : Json) : Option Condition := do
  let [property, operator, operand, duration] ←
    json.fields? ["property", "operator", "value", "duration_secs"] | none
  some
    { property := ← Json.required Json.string? property
      operator := .ofName (← Json.required Json.string? operator)
      operand := ← Json.required Json.string? operand
      duration := ← Json.defaulted 0 Json.uint64? duration }

end Condition

end Alerting
