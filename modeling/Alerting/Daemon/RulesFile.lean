import Alerting.Builtin
import Alerting.Daemon.Fault
import Alerting.Json.Tree

/-!
# Rules files

A rules file is a JSON list of rules in the form in which rules are written, so the built-in rules
can be exported, edited and read back.
-/

namespace Alerting

namespace Daemon

def parseRules (text : String) : Except Fault (List Rule) :=
  match (Json.parse? text).bind (Json.listOf Rule.ofJson?) with
  | some rules => .ok rules
  | none => .error (.rulesFile invalidJson)

def exportRules (rules : List Rule) : String := (Json.array (rules.map Rule.toJson)).pretty

end Daemon

end Alerting
