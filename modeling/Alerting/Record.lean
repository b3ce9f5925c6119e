import Alerting.Event

/-!
# History records

A record of a rule that fired, with what it saw and what it did as JSON text.
-/

namespace Alerting

structure Record where
  id : UInt64 := 0
  ruleId : UInt64
  firedAt : Instant
  eventData : String
  actions : String
deriving DecidableEq, Repr

namespace Record

def toJson (record : Record) : Json :=
  .object
    [("id", .nat record.id.toNat),
     ("rule_id", .nat record.ruleId.toNat),
     ("fired_at", .string record.firedAt.text),
     ("event_data", .string record.eventData),
     ("actions", .string record.actions)]

def ofJson? (json : Json) : Option Record := do
  let [id, ruleId, firedAt, eventData, actions] ←
    json.fields? ["id", "rule_id", "fired_at", "event_data", "actions"] | none
  some
    { id := ← Json.defaulted 0 Json.uint64? id
      ruleId := ← Json.required Json.uint64? ruleId
      firedAt := ← Json.required Event.instantOfJson? firedAt
      eventData := ← Json.required Json.string? eventData
      actions := ← Json.required Json.string? actions }

end Record

end Alerting
