import Alerting.Action
import Alerting.Condition
import Alerting.Fault
import Alerting.Trigger

/-!
# Rules

A rule names what it watches, the conditions that must all hold, the actions to take, and how long
to keep quiet after it has fired.
-/

namespace Alerting

/-- A rule. Identities are given by the store; a rule that is not stored has identity 0. -/
structure Rule where
  id : UInt64 := 0
  name : String
  description : String := ""
  enabled : Bool := true
  builtIn : Bool := false
  objectType : String
  trigger : Trigger
  cooldownSeconds : Int64 := 0
  conditions : List Condition := []
  actions : List Action := []
deriving DecidableEq, Repr

inductive RuleDefect where
  | noName
  | longName
  | noObjectType
  | noTriggerName (kind : TriggerKind)
deriving DecidableEq, Repr

namespace Rule

def maxNameLength : Nat := 256

def cooldown (rule : Rule) : Option Span :=
  if rule.cooldownSeconds.toInt ≤ 0 then none else some (.seconds rule.cooldownSeconds.toInt)

end Rule

def RuleDefect.reason : RuleDefect → String
  | noName => "rule name cannot be empty"
  | longName =>
      "rule name exceeds maximum length of " ++ toString Rule.maxNameLength ++ " characters"
  | noObjectType => "object type cannot be empty"
  | noTriggerName kind => kind.text ++ " name cannot be empty"

namespace Rule

def defect? (rule : Rule) : Option RuleDefect :=
  if rule.name.isEmpty then some .noName
  else if maxNameLength < rule.name.utf8ByteSize then some .longName
  else if rule.objectType.isEmpty then some .noObjectType
  else if rule.trigger.name.isEmpty then some (.noTriggerName rule.trigger.kind)
  else none

def validate (rule : Rule) : Except Fault Unit :=
  match rule.defect? with
  | some defect => .error (.invalidRule defect.reason)
  | none => .ok ()

def build (rule : Rule) : Except Fault Rule := do
  rule.validate
  return rule

def toJson (rule : Rule) : Json :=
  .object
    ([("id", .nat rule.id.toNat),
      ("name", .string rule.name),
      ("description", .string rule.description),
      ("enabled", .bool rule.enabled),
      ("built_in", .bool rule.builtIn),
      ("object_type", .string rule.objectType)] ++
     rule.trigger.toMembers ++
     [("cooldown_secs", .int rule.cooldownSeconds.toInt),
      ("conditions", .array (rule.conditions.map Condition.toJson)),
      ("actions", .array (rule.actions.map Action.toJson))])

def listFields : List String := ["conditions", "actions"]

/-- Reads a rule. Unknown members must be readable, except those of conditions and actions. -/
def ofJson? (json : Json) : Option Rule := do
  let members ← json.members?
  guard <| members.all fun (name, value) => listFields.contains name || value.isReadable
  let member := Json.member? members
  some
    { id := ← Json.defaulted 0 Json.uint64? (← member "id")
      name := ← Json.required Json.string? (← member "name")
      description := ← Json.defaulted "" Json.string? (← member "description")
      enabled := ← Json.required Json.bool? (← member "enabled")
      builtIn := ← Json.defaulted false Json.bool? (← member "built_in")
      objectType := ← Json.required Json.string? (← member "object_type")
      trigger := ← Trigger.ofMembers? members
      cooldownSeconds := ← Json.defaulted 0 Json.int64? (← member "cooldown_secs")
      conditions :=
        ← Json.defaulted [] (Json.listOf Condition.ofJson?) (← member "conditions")
      actions := ← Json.defaulted [] (Json.listOf Action.ofJson?) (← member "actions") }

end Rule

end Alerting
