import Alerting.Event
import Alerting.Rule

/-!
# Templates

Titles and messages of notifications are templates. A name between double braces stands for a value
of the rule or of the event; what is between double braces and is not a known name stays as it is.
Values are inserted as they are and never read as templates themselves.
-/

namespace Alerting

namespace Template

def splitClosing : List Char → Option (List Char × List Char)
  | '\x7d' :: '\x7d' :: rest => some ([], rest)
  | char :: rest => (splitClosing rest).map fun (name, rest) => (char :: name, rest)
  | [] => none

theorem length_of_splitClosing {text name rest : List Char}
    (h : splitClosing text = some (name, rest)) : rest.length < text.length := by
  induction text generalizing name rest with
  | nil => simp [splitClosing] at h
  | cons char tail ih =>
    unfold splitClosing at h
    split at h
    · rename_i heq
      simp only [List.cons.injEq] at heq
      simp only [Option.some.injEq, Prod.mk.injEq] at h
      obtain ⟨-, rfl⟩ := heq
      rw [← h.2]
      simp only [List.length_cons]
      omega
    · rename_i heq
      simp only [List.cons.injEq] at heq
      obtain ⟨rfl, rfl⟩ := heq
      obtain ⟨⟨inner, remaining⟩, hinner, hpair⟩ := Option.map_eq_some_iff.1 h
      have := ih hinner
      simp only [Prod.mk.injEq] at hpair
      rw [← hpair.2, List.length_cons]
      omega
    · rename_i heq
      simp at heq

def resolve? (value : String → Option String) (text : List Char) : Option (String × List Char) :=
  (splitClosing text).bind fun (name, after) =>
    (value (String.ofList name)).map fun shown => (shown, after)

theorem length_of_resolve? {value : String → Option String} {text after : List Char}
    {shown : String} (h : resolve? value text = some (shown, after)) :
    after.length < text.length := by
  obtain ⟨⟨name, rest⟩, split, found⟩ := Option.bind_eq_some_iff.1 h
  obtain ⟨_, -, same⟩ := Option.map_eq_some_iff.1 found
  cases same
  exact length_of_splitClosing split

/-- A text with its placeholders replaced. Where an opening mark begins none, the scan goes on
behind the mark. -/
def fill (value : String → Option String) (text : List Char) : List Char :=
  match text with
  | '\x7b' :: '\x7b' :: rest =>
      match _found : resolve? value rest with
      | some (shown, after) => shown.toList ++ fill value after
      | none => '\x7b' :: '\x7b' :: fill value rest
  | char :: rest => char :: fill value rest
  | [] => []
termination_by text.length
decreasing_by
  · have := length_of_resolve? _found
    simp only [List.length_cons]
    omega
  all_goals simp only [List.length_cons]; omega

/-- The value that a name stands for. The names of the rule and of the trigger come before
properties of the same name. -/
def value? (rule : Rule) (event : Event) (name : String) : Option String :=
  if name = "rule_name" then some rule.name
  else if name = "event_name" then some (event.trigger.eventName?.getD "")
  else if name = "metric_name" then some (event.trigger.metricName?.getD "")
  else if name = "object_type" then some event.objectType
  else (event.properties.get? name).map Property.shown

def standard (rule : Rule) (event : Event) : String :=
  let trigger := event.trigger.name
  if trigger.isEmpty then "Alert: " ++ rule.name
  else "Alert: " ++ rule.name ++ " (" ++ trigger ++ ")"

def render (template : String) (rule : Rule) (event : Event) : String :=
  if template.isEmpty then standard rule event
  else String.ofList (fill (value? rule event) template.toList)

end Template

end Alerting
