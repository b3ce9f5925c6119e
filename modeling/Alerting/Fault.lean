/-!
# Faults

What can go wrong, by cause, and the sentence that reports it.
-/

namespace Alerting

inductive Fault where
  | invalidRule (reason : String)
  | ruleNotFound (id : UInt64)
  | store (reason : String)
  | notification (reason : String)
  | handler (name reason : String)
  | timeout (operation : String)
  | invalidSettings (reason : String)
deriving DecidableEq, Repr

namespace Fault

def message : Fault → String
  | invalidRule reason => "invalid alert rule: " ++ reason
  | ruleNotFound id => "rule not found: " ++ toString id.toNat
  | store reason => "repository error: " ++ reason
  | notification reason => "notification failed: " ++ reason
  | handler name reason => "handler '" ++ name ++ "' failed: " ++ reason
  | timeout operation => "timed out: " ++ operation
  | invalidSettings reason => "invalid configuration: " ++ reason

instance : ToString Fault := ⟨Fault.message⟩

end Fault

end Alerting
