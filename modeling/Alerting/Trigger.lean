import Alerting.Json.Fields

/-!
# Triggers

A rule reacts to one named event or to one named metric; an event is an occurrence of the one or a
reading of the other.
-/

namespace Alerting

inductive TriggerKind where
  | event
  | metric
deriving DecidableEq, Repr

namespace TriggerKind

def text : TriggerKind → String
  | event => "event"
  | metric => "metric"

def nameField : TriggerKind → String
  | event => "event_name"
  | metric => "metric_name"

def ofJson? (json : Json) : Option TriggerKind :=
  if json.string? = some event.text ∨ json.int? = some 0 then some event
  else if json.string? = some metric.text ∨ json.int? = some 1 then some metric
  else none

end TriggerKind

inductive Trigger where
  | event (name : String)
  | metric (name : String)
deriving DecidableEq, Repr

namespace Trigger

def kind : Trigger → TriggerKind
  | event _ => .event
  | metric _ => .metric

def name : Trigger → String
  | event name => name
  | metric name => name

def ofKind : TriggerKind → String → Trigger
  | .event => event
  | .metric => metric

def eventName? : Trigger → Option String
  | event name => some name
  | metric _ => none

def metricName? : Trigger → Option String
  | event _ => none
  | metric name => some name

def text (trigger : Trigger) : String := trigger.kind.text ++ ":" ++ trigger.name

def toMembers (trigger : Trigger) : List (String × Json) :=
  [("trigger_type", .string trigger.kind.text), (trigger.kind.nameField, .string trigger.name)]

/-- Reads a trigger from the members of a rule or an event. Only the name field of its own kind
counts. -/
def ofMembers? (members : List (String × Json)) : Option Trigger := do
  let kind ← Json.required TriggerKind.ofJson? (← Json.member? members "trigger_type")
  let name ← Json.required Json.string? (← Json.member? members kind.nameField)
  some (ofKind kind name)

end Trigger

end Alerting
