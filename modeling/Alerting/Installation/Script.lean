import Alerting.Installation.Basic
import Alerting.Number.Numeral

/-!
# Describing collaborators

Short words that describe how collaborators behave: `slow:50` replies after 50 milliseconds,
`stall` never replies, and subscribers are named for what they do with an event, optionally only
with one that has a certain property.
-/

namespace Alerting

namespace Script

def split (word : String) : String × Option String :=
  let chars := word.toList
  match chars.dropWhile (· != ':') with
  | [] => (word, none)
  | _ :: rest => (String.ofList (chars.takeWhile (· != ':')), some (String.ofList rest))

def count? (word : String) : Option Nat :=
  let digits := match word.toList with
    | '+' :: rest => rest
    | chars => chars
  let value := Numeral.digitsValue digits
  if digits ≠ [] ∧ digits.all Char.isDigit ∧ value < UInt64.size then some value else none

def delay? (word : String) : Option Nat :=
  match split word with
  | ("slow", some millis) => count? millis
  | _ => none

end Script

def Reply.ofWord (word : String) : Reply :=
  if word = "" then .prompt
  else if word = "stall" then .never
  else match Script.delay? word with
    | some millis => .delayed millis
    | none => .refused word

def Notifier.ofWord? (word : String) : Option (Option Notifier) :=
  let replying (reply : List (String × String) → Reply) : Option (Option Notifier) :=
    some (some { name := word, reply })
  match word with
  | "none" => some none
  | "ok" => replying fun _ => .prompt
  | "failing" => replying fun _ => .refused "unavailable"
  | "failing_once" =>
      replying fun earlier => if earlier.isEmpty then .refused "unavailable" else .prompt
  | "stalled" => replying fun _ => .never
  | "disabled" => some (some { name := word, enabled := false })
  | "log" => some (some (.log word true))
  | "log_disabled" => some (some (.log word false))
  | _ => (Script.delay? word).bind fun millis => replying fun _ => .delayed millis

/-- The behavior that a word describes. A subscriber that panics fails like any other. -/
def Behavior.ofWord? (word : String) : Option Behavior :=
  let (kind, detail) := Script.split word
  match kind, detail with
  | "record", none => some .record
  | "fail", property | "panic", property | "panic_string", property | "panic_other", property =>
      some (.fail property)
  | "slow", some millis => (Script.count? millis).map .linger
  | "echo", some property => some (.echo property)
  | "adder", some property => some (.recruit property)
  | "stopper", property => some (.stopBus property)
  | _, _ => none

end Alerting
