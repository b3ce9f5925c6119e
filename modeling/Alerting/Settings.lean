import Alerting.Fault
import Alerting.Json.Fields
import Alerting.Time.Span

/-!
# Settings

The limits and deadlines of the alerting system. Every setting has a default, so empty settings are
complete.
-/

namespace Alerting

structure TrackerSettings where
  maxSamples : UInt64 := 120
  maxSampleAgeSeconds : UInt64 := 1800
  /-- How late the first reading in a window may come, in percent of the window. -/
  coverageGracePercent : UInt32 := 20
deriving DecidableEq, Repr

structure Settings where
  busCapacity : UInt64 := 1000
  /-- For how many days history is kept. Zero and less keep it forever. -/
  historyRetentionDays : Int64 := 30
  cleanupIntervalSeconds : UInt64 := 3600
  saveHistoryTimeoutMillis : UInt64 := 3000
  cleanupTimeoutMillis : UInt64 := 5000
  notifyTimeoutMillis : UInt64 := 5000
  seedBuiltins : Bool := true
  tracker : TrackerSettings := {}
deriving DecidableEq, Repr

inductive SettingsDefect where
  | zero (field : String)
  | graceTooLarge
deriving DecidableEq, Repr

def SettingsDefect.reason : SettingsDefect → String
  | zero field => field ++ " must be greater than 0"
  | graceTooLarge => "tracker.coverage_grace_percent cannot exceed 100"

namespace TrackerSettings

def maxSampleAge (settings : TrackerSettings) : Span :=
  .seconds settings.maxSampleAgeSeconds.toNat

def defect? (settings : TrackerSettings) : Option SettingsDefect :=
  if settings.maxSamples = 0 then some (.zero "tracker.max_samples")
  else if settings.maxSampleAgeSeconds = 0 then some (.zero "tracker.max_sample_age_secs")
  else if 100 < settings.coverageGracePercent then some .graceTooLarge
  else none

def validate (settings : TrackerSettings) : Except Fault Unit :=
  match settings.defect? with
  | some defect => .error (.invalidSettings defect.reason)
  | none => .ok ()

def toJson (settings : TrackerSettings) : Json :=
  .object
    [("max_samples", .nat settings.maxSamples.toNat),
     ("max_sample_age_secs", .nat settings.maxSampleAgeSeconds.toNat),
     ("coverage_grace_percent", .nat settings.coverageGracePercent.toNat)]

def ofJson? (json : Json) : Option TrackerSettings := do
  let [maxSamples, maxSampleAgeSeconds, coverageGracePercent] ←
    json.fields? ["max_samples", "max_sample_age_secs", "coverage_grace_percent"] | none
  let default : TrackerSettings := {}
  some
    { maxSamples := ← Json.defaulted default.maxSamples Json.uint64? maxSamples
      maxSampleAgeSeconds :=
        ← Json.defaulted default.maxSampleAgeSeconds Json.uint64? maxSampleAgeSeconds
      coverageGracePercent :=
        ← Json.defaulted default.coverageGracePercent Json.uint32? coverageGracePercent }

end TrackerSettings

namespace Settings

def defect? (settings : Settings) : Option SettingsDefect :=
  if settings.busCapacity = 0 then some (.zero "bus_capacity")
  else if settings.cleanupIntervalSeconds = 0 then some (.zero "cleanup_interval_secs")
  else if settings.saveHistoryTimeoutMillis = 0 then some (.zero "save_history_timeout_ms")
  else if settings.cleanupTimeoutMillis = 0 then some (.zero "cleanup_timeout_ms")
  else if settings.notifyTimeoutMillis = 0 then some (.zero "notify_timeout_ms")
  else settings.tracker.defect?

def validate (settings : Settings) : Except Fault Unit :=
  match settings.defect? with
  | some defect => .error (.invalidSettings defect.reason)
  | none => .ok ()

def toJson (settings : Settings) : Json :=
  .object
    [("bus_capacity", .nat settings.busCapacity.toNat),
     ("history_retention_days", .int settings.historyRetentionDays.toInt),
     ("cleanup_interval_secs", .nat settings.cleanupIntervalSeconds.toNat),
     ("save_history_timeout_ms", .nat settings.saveHistoryTimeoutMillis.toNat),
     ("cleanup_timeout_ms", .nat settings.cleanupTimeoutMillis.toNat),
     ("notify_timeout_ms", .nat settings.notifyTimeoutMillis.toNat),
     ("seed_default_rules", .bool settings.seedBuiltins),
     ("tracker", settings.tracker.toJson)]

def ofJson? (json : Json) : Option Settings := do
  let [busCapacity, historyRetentionDays, cleanupIntervalSeconds, saveHistoryTimeoutMillis,
      cleanupTimeoutMillis, notifyTimeoutMillis, seedBuiltins, tracker] ←
    json.fields?
      ["bus_capacity", "history_retention_days", "cleanup_interval_secs",
       "save_history_timeout_ms", "cleanup_timeout_ms", "notify_timeout_ms",
       "seed_default_rules", "tracker"] | none
  let default : Settings := {}
  some
    { busCapacity := ← Json.defaulted default.busCapacity Json.uint64? busCapacity
      historyRetentionDays :=
        ← Json.defaulted default.historyRetentionDays Json.int64? historyRetentionDays
      cleanupIntervalSeconds :=
        ← Json.defaulted default.cleanupIntervalSeconds Json.uint64? cleanupIntervalSeconds
      saveHistoryTimeoutMillis :=
        ← Json.defaulted default.saveHistoryTimeoutMillis Json.uint64? saveHistoryTimeoutMillis
      cleanupTimeoutMillis :=
        ← Json.defaulted default.cleanupTimeoutMillis Json.uint64? cleanupTimeoutMillis
      notifyTimeoutMillis :=
        ← Json.defaulted default.notifyTimeoutMillis Json.uint64? notifyTimeoutMillis
      seedBuiltins := ← Json.defaulted default.seedBuiltins Json.bool? seedBuiltins
      tracker := ← Json.defaulted default.tracker TrackerSettings.ofJson? tracker }

end Settings

end Alerting
