import Alerting.Daemon.Fault
import Alerting.Json.Tree
import Alerting.Settings

/-!
# Settings of the daemon

The daemon is set up by one JSON file: the settings of the alerting system, how often resources are
polled, and a file of further rules.
-/

namespace Alerting

namespace Daemon

def defaultSettingsPath : String := "/etc/perch/alertd.json"

structure Settings where
  alerting : Alerting.Settings := {}
  pollIntervalSeconds : UInt64 := 10
  pollsResources : Bool := true
  diskMountPoint : String := "/"
  rulesFile : Option String := none
deriving DecidableEq, Repr

namespace Settings

def validate (settings : Settings) : Except Fault Unit :=
  if settings.pollIntervalSeconds = 0 then
    .error (.settings (SettingsDefect.zero "poll_interval_secs").reason)
  else if settings.diskMountPoint.isEmpty then
    .error (.settings "disk_mount_point cannot be empty")
  else settings.alerting.validate.mapError .alerting

def toJson (settings : Settings) : Json :=
  .object
    [("alerting", settings.alerting.toJson),
     ("poll_interval_secs", .nat settings.pollIntervalSeconds.toNat),
     ("poll_system_metrics", .bool settings.pollsResources),
     ("disk_mount_point", .string settings.diskMountPoint),
     ("rules_file", Json.orNull .string settings.rulesFile)]

def ofJson? (json : Json) : Option Settings := do
  let [alerting, pollIntervalSeconds, pollsResources, diskMountPoint, rulesFile] ←
    json.fields?
      ["alerting", "poll_interval_secs", "poll_system_metrics", "disk_mount_point", "rules_file"]
    | none
  let default : Settings := {}
  some
    { alerting := ← Json.defaulted default.alerting Alerting.Settings.ofJson? alerting
      pollIntervalSeconds :=
        ← Json.defaulted default.pollIntervalSeconds Json.uint64? pollIntervalSeconds
      pollsResources := ← Json.defaulted default.pollsResources Json.bool? pollsResources
      diskMountPoint := ← Json.defaulted default.diskMountPoint Json.string? diskMountPoint
      rulesFile := ← Json.defaulted default.rulesFile (Json.nullable Json.string?) rulesFile }

def parse (text : String) : Except Fault Settings := do
  match (Json.parse? text).bind ofJson? with
  | none => .error (.settings invalidJson)
  | some settings =>
      settings.validate
      .ok settings

end Settings

end Daemon

end Alerting
