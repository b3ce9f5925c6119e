import Alerting.Json.Fields

/-!
# Actions

What a rule does when it fires: it sends a notification to a target. Only the bell is a target that
notifications are delivered to; others are kept and passed over.
-/

namespace Alerting

inductive Target where
  | bell
  | other (name : String)
deriving DecidableEq, Repr

namespace Target

def name : Target → String
  | bell => "bell"
  | other name => name

def ofName (name : String) : Target := if name = bell.name then bell else other name

end Target

/-- A notification that a firing rule sends, with templates for its title and its message. An empty
template stands for a text of its own. -/
structure Action where
  target : Target
  title : String := ""
  message : String := ""
deriving DecidableEq, Repr

namespace Action

def toJson (action : Action) : Json :=
  .object
    [("target", .string action.target.name),
     ("template_title", .string action.title),
     ("template_message", .string action.message)]

def ofJson? (json : Json) : Option Action := do
  let [target, title, message] ←
    json.fields? ["target", "template_title", "template_message"] | none
  some
    { target := .ofName (← Json.required Json.string? target)
      title := ← Json.defaulted "" Json.string? title
      message := ← Json.defaulted "" Json.string? message }

end Action

end Alerting
