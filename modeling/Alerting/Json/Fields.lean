import Alerting.Json.Value

/-!
# Fields of structures

A structure is read from the members of an object by the names of its fields, in any order; members
with other names are passed over, readable or not, and a field that is given twice is refused.
Structures of a fixed shape may also be written as the list of their field values, where fields at
the end may be left out.
-/

namespace Alerting

namespace Json

/-- The value of a field among the members of an object. The outer result is `none` if the field is
given more than once, the inner one if it is missing. -/
def member? (members : List (String × Json)) (name : String) : Option (Option Json) :=
  match members.filter fun entry => entry.1 == name with
  | [] => some none
  | [entry] => some (some entry.2)
  | _ => none

def fields? (names : List String) : Json → Option (List (Option Json))
  | .object members => names.mapM (member? members)
  | .array items =>
      if items.length ≤ names.length then
        some (items.map some ++ List.replicate (names.length - items.length) none)
      else none
  | _ => none

def required {α : Type} (decode : Json → Option α) (field : Option Json) : Option α :=
  field.bind decode

def defaulted {α : Type} (default : α) (decode : Json → Option α) : Option Json → Option α
  | none => some default
  | some json => decode json

def listOf {α : Type} (decode : Json → Option α) (json : Json) : Option (List α) := do
  (← json.items?).mapM decode

def orNull {α : Type} (encode : α → Json) : Option α → Json
  | some value => encode value
  | none => .null

def nullable {α : Type} (decode : Json → Option α) : Json → Option (Option α)
  | .scalar .null => some none
  | json => (decode json).map some

end Json

end Alerting
