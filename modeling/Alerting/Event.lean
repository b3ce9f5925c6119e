import Alerting.Property
import Alerting.Time.Timestamp
import Alerting.Trigger
import Alerting.Vocabulary

/-!
# Events

Something that happened, or a reading of a metric, with properties that conditions and templates
can refer to.
-/

namespace Alerting

structure Event where
  objectType : String
  trigger : Trigger
  properties : Properties := .empty
  timestamp : Option Instant := none
deriving DecidableEq

namespace Event

def occurrence (objectType name : String) : Event := { objectType, trigger := .event name }

def withProperty (event : Event) (name : String) (value : Property) : Event :=
  { event with properties := event.properties.insert name value }

def reading (objectType metric : String) (value : Number) : Event :=
  withProperty { objectType, trigger := .metric metric } PropertyName.value (.number value)

def stamp (event : Event) (now : Instant) : Event :=
  { event with timestamp := some (event.timestamp.getD now) }

def metricValue? (event : Event) : Option Number := do
  let _ ← event.trigger.metricName?
  (← event.properties.get? PropertyName.value).number?

def toJson (event : Event) : Json :=
  .object
    (("object_type", .string event.objectType) :: event.trigger.toMembers ++
     [("properties", event.properties.toJson),
      ("timestamp", Json.orNull (fun instant => .string instant.text) event.timestamp)])

def instantOfJson? (json : Json) : Option Instant := json.string?.bind Instant.parse?

def ofJson? (json : Json) : Option Event := do
  guard json.isReadable
  let members ← json.members?
  let member := Json.member? members
  some
    { objectType := ← Json.required Json.string? (← member "object_type")
      trigger := ← Trigger.ofMembers? members
      properties := ← Json.defaulted .empty Properties.ofJson? (← member "properties")
      timestamp :=
        ← Json.defaulted none (Json.nullable instantOfJson?) (← member "timestamp") }

end Event

end Alerting
