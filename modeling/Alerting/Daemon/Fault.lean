import Alerting.Fault

/-!
# Faults of the daemon

What can go wrong while the daemon is set up, beyond the faults of the alerting system.
-/

namespace Alerting

namespace Daemon

inductive Fault where
  | settings (reason : String)
  | rulesFile (reason : String)
  | alerting (fault : Alerting.Fault)
  | io (reason : String)
deriving DecidableEq, Repr

namespace Fault

def message : Fault → String
  | settings reason => "configuration error: " ++ reason
  | rulesFile reason => "rules file error: " ++ reason
  | alerting fault => fault.message
  | io reason => "I/O error: " ++ reason

instance : ToString Fault := ⟨Fault.message⟩

end Fault

def invalidJson : String := "invalid JSON"

end Daemon

end Alerting
