import Alerting.Daemon.Settings
import Alerting.Proofs.Json.Fields

/-!
# Settings files read back

A settings file may list any of the fields, in any order and among others that nobody knows, on each
of the three levels. What it does not list has its default. The file that the daemon writes lists
all of them.
-/

namespace Alerting

structure Listing where
  daemon : List String
  alerting : List String
  tracker : List String

/-! ## Settings of the tracker -/

namespace TrackerSettings

variable {settings : TrackerSettings} {listed : List String} {json : Json}

/-- The settings as far as their fields are listed, with defaults for the others. -/
def overlay (settings : TrackerSettings) (listed : List String) : TrackerSettings :=
  let default : TrackerSettings := {}
  { maxSamples :=
      if listed.contains "max_samples" then settings.maxSamples else default.maxSamples
    maxSampleAgeSeconds :=
      if listed.contains "max_sample_age_secs" then settings.maxSampleAgeSeconds
      else default.maxSampleAgeSeconds
    coverageGracePercent :=
      if listed.contains "coverage_grace_percent" then settings.coverageGracePercent
      else default.coverageGracePercent }

def Lists (settings : TrackerSettings) (listed : List String) (json : Json) : Prop :=
  json.Lists settings.toJson.members listed

theorem ofJson?_of_lists (lists : settings.Lists listed json) :
    ofJson? json = some (settings.overlay listed) := by
  have distinct : (settings.toJson.members.map Prod.fst).Nodup := by
    simp [toJson, Json.members, Json.members?]
  have fields := Json.Lists.fields? lists distinct
  simp only [toJson, Json.members, Json.members?, Option.getD_some, List.map_cons,
    List.map_nil] at fields
  rw [ofJson?, fields]
  dsimp only [bind, Option.bind]
  rw [Json.defaulted_ite (Json.uint64?_nat _), Json.defaulted_ite (Json.uint64?_nat _),
    Json.defaulted_ite (Json.uint32?_nat _)]
  rfl

theorem defect?_eq_none_iff :
    settings.defect? = none ↔
      settings.maxSamples ≠ 0 ∧ settings.maxSampleAgeSeconds ≠ 0 ∧
        ¬100 < settings.coverageGracePercent := by
  unfold defect?
  split_ifs <;> simp_all

theorem defect?_overlay (sound : settings.defect? = none) :
    (settings.overlay listed).defect? = none := by
  rw [defect?_eq_none_iff] at sound ⊢
  obtain ⟨samples, age, grace⟩ := sound
  refine ⟨?_, ?_, ?_⟩ <;> dsimp only [overlay] <;> split
  all_goals first | assumption | decide

theorem legible_members (settings : TrackerSettings) :
    ∀ field ∈ settings.toJson.members, field.2.Legible 0 := by
  simp [toJson, Json.members, Json.members?, Json.legible_uint64, Json.legible_uint32]

theorem exists_lists (settings : TrackerSettings) (listed : List String) :
    ∃ json, settings.Lists listed json ∧ json.Legible 1 :=
  Json.exists_lists listed settings.legible_members

end TrackerSettings

/-! ## Settings of the alerting system -/

namespace Settings

variable {settings : Settings} {listing : Listing} {json : Json}

def overlay (settings : Settings) (listing : Listing) : Settings :=
  let default : Settings := {}
  let listed := listing.alerting
  { busCapacity :=
      if listed.contains "bus_capacity" then settings.busCapacity else default.busCapacity
    historyRetentionDays :=
      if listed.contains "history_retention_days" then settings.historyRetentionDays
      else default.historyRetentionDays
    cleanupIntervalSeconds :=
      if listed.contains "cleanup_interval_secs" then settings.cleanupIntervalSeconds
      else default.cleanupIntervalSeconds
    saveHistoryTimeoutMillis :=
      if listed.contains "save_history_timeout_ms" then settings.saveHistoryTimeoutMillis
      else default.saveHistoryTimeoutMillis
    cleanupTimeoutMillis :=
      if listed.contains "cleanup_timeout_ms" then settings.cleanupTimeoutMillis
      else default.cleanupTimeoutMillis
    notifyTimeoutMillis :=
      if listed.contains "notify_timeout_ms" then settings.notifyTimeoutMillis
      else default.notifyTimeoutMillis
    seedBuiltins :=
      if listed.contains "seed_default_rules" then settings.seedBuiltins
      else default.seedBuiltins
    tracker :=
      if listed.contains "tracker" then settings.tracker.overlay listing.tracker
      else default.tracker }

def Lists (settings : Settings) (listing : Listing) (json : Json) : Prop :=
  ∃ tracker, settings.tracker.Lists listing.tracker tracker ∧
    json.Lists (Json.withField settings.toJson.members "tracker" tracker) listing.alerting

theorem ofJson?_of_lists (lists : settings.Lists listing json) :
    ofJson? json = some (settings.overlay listing) := by
  obtain ⟨tracker, nested, lists⟩ := lists
  have distinct : ((Json.withField settings.toJson.members "tracker" tracker).map
      Prod.fst).Nodup := by
    simp [toJson, Json.members, Json.members?, Json.withField]
  have fields := lists.fields? distinct
  simp only [toJson, Json.members, Json.members?, Option.getD_some, Json.withField, List.map_cons,
    List.map_nil, String.reduceEq, reduceIte] at fields
  rw [ofJson?, fields]
  dsimp only [bind, Option.bind]
  rw [Json.defaulted_ite (Json.uint64?_nat _), Json.defaulted_ite (Json.int64?_int _),
    Json.defaulted_ite (Json.uint64?_nat _), Json.defaulted_ite (Json.uint64?_nat _),
    Json.defaulted_ite (Json.uint64?_nat _), Json.defaulted_ite (Json.uint64?_nat _),
    Json.defaulted_ite (Json.bool?_bool _),
    Json.defaulted_ite (TrackerSettings.ofJson?_of_lists nested)]
  rfl

theorem defect?_eq_none_iff :
    settings.defect? = none ↔
      settings.busCapacity ≠ 0 ∧ settings.cleanupIntervalSeconds ≠ 0 ∧
        settings.saveHistoryTimeoutMillis ≠ 0 ∧ settings.cleanupTimeoutMillis ≠ 0 ∧
        settings.notifyTimeoutMillis ≠ 0 ∧ settings.tracker.defect? = none := by
  unfold defect?
  split_ifs <;> simp_all

theorem defect?_overlay (sound : settings.defect? = none) :
    (settings.overlay listing).defect? = none := by
  rw [defect?_eq_none_iff] at sound ⊢
  obtain ⟨capacity, interval, saving, cleanup, notify, tracker⟩ := sound
  have nested : (settings.tracker.overlay listing.tracker).defect? = none :=
    TrackerSettings.defect?_overlay tracker
  refine ⟨?_, ?_, ?_, ?_, ?_, ?_⟩ <;> dsimp only [overlay] <;> split
  all_goals first | assumption | decide

theorem validate_eq_ok_iff : settings.validate = .ok () ↔ settings.defect? = none := by
  unfold validate
  cases settings.defect? <;> simp

theorem legible_members (settings : Settings) {tracker : Json} (legible : tracker.Legible 1) :
    ∀ field ∈ Json.withField settings.toJson.members "tracker" tracker, field.2.Legible 1 := by
  simp [toJson, Json.members, Json.members?, Json.withField, Json.legible_uint64,
    Json.legible_int64, Json.legible_bool, legible]

theorem exists_lists (settings : Settings) (listing : Listing) :
    ∃ json, settings.Lists listing json ∧ json.Legible 2 := by
  obtain ⟨tracker, nested, legible⟩ := settings.tracker.exists_lists listing.tracker
  obtain ⟨json, lists, legible⟩ :=
    Json.exists_lists listing.alerting (settings.legible_members legible)
  exact ⟨json, ⟨tracker, nested, lists⟩, legible⟩

end Settings

/-! ## Settings of the daemon -/

namespace Daemon

namespace Settings

variable {settings : Settings} {listing : Listing} {json : Json}

def overlay (settings : Settings) (listing : Listing) : Settings :=
  let default : Settings := {}
  let listed := listing.daemon
  { alerting :=
      if listed.contains "alerting" then settings.alerting.overlay listing else default.alerting
    pollIntervalSeconds :=
      if listed.contains "poll_interval_secs" then settings.pollIntervalSeconds
      else default.pollIntervalSeconds
    pollsResources :=
      if listed.contains "poll_system_metrics" then settings.pollsResources
      else default.pollsResources
    diskMountPoint :=
      if listed.contains "disk_mount_point" then settings.diskMountPoint
      else default.diskMountPoint
    rulesFile :=
      if listed.contains "rules_file" then settings.rulesFile else default.rulesFile }

def Lists (settings : Settings) (listing : Listing) (json : Json) : Prop :=
  ∃ alerting, settings.alerting.Lists listing alerting ∧
    json.Lists (Json.withField settings.toJson.members "alerting" alerting) listing.daemon

theorem ofJson?_of_lists (lists : settings.Lists listing json) :
    ofJson? json = some (settings.overlay listing) := by
  obtain ⟨alerting, nested, lists⟩ := lists
  have distinct : ((Json.withField settings.toJson.members "alerting" alerting).map
      Prod.fst).Nodup := by
    simp [toJson, Json.members, Json.members?, Json.withField]
  have fields := lists.fields? distinct
  simp only [toJson, Json.members, Json.members?, Option.getD_some, Json.withField, List.map_cons,
    List.map_nil, String.reduceEq, reduceIte] at fields
  rw [ofJson?, fields]
  dsimp only [bind, Option.bind]
  rw [Json.defaulted_ite (Alerting.Settings.ofJson?_of_lists nested),
    Json.defaulted_ite (Json.uint64?_nat _), Json.defaulted_ite (Json.bool?_bool _),
    Json.defaulted_ite (Json.string?_string _), Json.defaulted_ite (Json.nullable_orNull _)]
  rfl

theorem validate_eq_ok_iff :
    settings.validate = .ok () ↔
      settings.pollIntervalSeconds ≠ 0 ∧ ¬settings.diskMountPoint.isEmpty ∧
        settings.alerting.defect? = none := by
  rw [← Alerting.Settings.validate_eq_ok_iff]
  unfold validate
  split_ifs with pause mount
  · simp [pause]
  · simp [mount]
  · cases settings.alerting.validate <;> simp [Except.mapError, pause, mount]

theorem validate_overlay (valid : settings.validate = .ok ()) :
    (settings.overlay listing).validate = .ok () := by
  rw [validate_eq_ok_iff] at valid ⊢
  obtain ⟨pause, mount, sound⟩ := valid
  have nested : (settings.alerting.overlay listing).defect? = none :=
    Alerting.Settings.defect?_overlay sound
  refine ⟨?_, ?_, ?_⟩ <;> dsimp only [overlay] <;> split
  all_goals first | assumption | decide

/-! ## Texts -/

theorem parse_of_lists {text : String} (parses : Json.parse? text = some json)
    (lists : settings.Lists listing json) (valid : (settings.overlay listing).validate = .ok ()) :
    parse text = .ok (settings.overlay listing) := by
  rw [parse, parses, Option.bind_some, ofJson?_of_lists lists]
  dsimp only
  rw [valid]
  rfl

theorem validate_of_parse {text : String} (reads : parse text = .ok settings) :
    settings.validate = .ok () := by
  unfold parse at reads
  split at reads
  · contradiction
  · rename_i read _
    cases valid : read.validate with
    | error fault => simp [valid, bind, Except.bind] at reads
    | ok _ =>
        simp only [valid, bind, Except.bind, Except.ok.injEq] at reads
        rw [← reads, valid]

theorem legible_members (settings : Settings) {alerting : Json} (legible : alerting.Legible 2) :
    ∀ field ∈ Json.withField settings.toJson.members "alerting" alerting, field.2.Legible 2 := by
  have rulesFile : (Json.orNull .string settings.rulesFile).Legible 2 := by
    cases settings.rulesFile with
    | none => exact Json.legible_null
    | some path => exact Json.legible_string path
  simp [toJson, Json.members, Json.members?, Json.withField, Json.legible_uint64,
    Json.legible_bool, Json.legible_string, legible, rulesFile]

theorem exists_lists (settings : Settings) (listing : Listing) :
    ∃ json, settings.Lists listing json ∧ json.Legible 3 := by
  obtain ⟨alerting, nested, legible⟩ := settings.alerting.exists_lists listing
  obtain ⟨json, lists, legible⟩ :=
    Json.exists_lists listing.daemon (settings.legible_members legible)
  exact ⟨json, ⟨alerting, nested, lists⟩, legible⟩

theorem legible (settings : Settings) : settings.toJson.Legible 3 := by
  have tracker : settings.alerting.tracker.toJson.Legible 1 :=
    .object settings.alerting.tracker.legible_members
  have alerting : settings.alerting.toJson.Legible 2 :=
    .object (settings.alerting.legible_members tracker)
  exact .object (settings.legible_members alerting)

def everything (settings : Settings) : Listing :=
  { daemon := settings.toJson.members.map Prod.fst
    alerting := settings.alerting.toJson.members.map Prod.fst
    tracker := settings.alerting.tracker.toJson.members.map Prod.fst }

theorem overlay_everything (settings : Settings) :
    settings.overlay settings.everything = settings := by
  simp [everything, toJson, Alerting.Settings.toJson, TrackerSettings.toJson, Json.members,
    Json.members?, overlay, Alerting.Settings.overlay, TrackerSettings.overlay]

theorem lists_everything (settings : Settings) :
    settings.Lists settings.everything settings.toJson :=
  ⟨settings.alerting.toJson,
    ⟨settings.alerting.tracker.toJson, Json.lists_names _, Json.lists_names _⟩,
    Json.lists_names _⟩

end Settings

/-- A text that lists some fields of settings gives them with defaults for the others, unless that
is refused, and valid settings are not. The text that is saved gives the settings back, and no text
gives settings that are not valid. -/
theorem settings_read_back (settings : Settings) :
    (∀ listing, (∃ json, settings.Lists listing json ∧ json.Legible 3) ∧
      (settings.validate = .ok () → (settings.overlay listing).validate = .ok ())) ∧
    (∀ listing json, settings.Lists listing json →
      (settings.overlay listing).validate = .ok () →
      (∀ text, Json.parse? text = some json →
        Settings.parse text = .ok (settings.overlay listing)) ∧
      ∀ room ≤ Json.Assembly.maxDepth, json.Legible room →
        Settings.parse json.compact = .ok (settings.overlay listing) ∧
          Settings.parse json.pretty = .ok (settings.overlay listing)) ∧
    (settings.validate = .ok () → Settings.parse settings.toJson.pretty = .ok settings) ∧
    ∀ text, Settings.parse text = .ok settings → settings.validate = .ok () := by
  refine ⟨fun listing => ⟨settings.exists_lists listing, Settings.validate_overlay⟩,
    fun listing json lists valid => ⟨?_, ?_⟩, fun valid => ?_,
    fun text => Settings.validate_of_parse⟩
  · exact fun text parses => Settings.parse_of_lists parses lists valid
  · intro room fits legible
    exact ⟨Settings.parse_of_lists (Json.parse?_compact legible fits) lists valid,
      Settings.parse_of_lists (Json.parse?_pretty legible fits) lists valid⟩
  · have parses := Json.parse?_pretty settings.legible (by decide)
    have reads := Settings.parse_of_lists parses settings.lists_everything
    rw [settings.overlay_everything] at reads
    exact reads valid

def oddSettings : Settings :=
  { alerting :=
      { busCapacity := 0xFFFFFFFFFFFFFFFF
        historyRetentionDays := -0x8000000000000000
        tracker := { maxSamples := 0xFFFFFFFFFFFFFFFF, coverageGracePercent := 0 } }
    pollIntervalSeconds := 1
    diskMountPoint := "größer\n\\"
    rulesFile := some "\x01\"" }

def oddListing : Listing :=
  { daemon := ["disk_mount_point", "alerting"]
    alerting := ["bus_capacity", "tracker"]
    tracker := ["coverage_grace_percent", "max_samples"] }

def oddText : String :=
  "\x7b \"disk\": \x7b\x7d, \"alerting\":\x7b\"tracker\":\x7b\"max\":1e999," ++
    "\"max_samples\":18446744073709551615,\"max\":0,\"coverage_grace_percent\":0\x7d, " ++
    "\t\"poll_interval_secs\":0,\"bus_capacity\":18446744073709551615\x7d," ++
    "\"disk_mount_point\":\"gr\\u00f6\u00dfer\\n\\\\\"\x7d"

def oddTracker : Json :=
  .object
    [("max", .unreadable), ("max_samples", .int 18446744073709551615), ("max", .int 0),
     ("coverage_grace_percent", .int 0)]

def oddAlerting : Json :=
  .object
    [("tracker", oddTracker), ("poll_interval_secs", .int 0),
     ("bus_capacity", .int 18446744073709551615)]

def oddJson : Json :=
  .object
    [("disk", .object []), ("alerting", oddAlerting), ("disk_mount_point", .string "größer\n\\")]

theorem parse?_oddText : Json.parse? oddText = some oddJson := by
  have scanned : Scanner.scan? oddText.toList = some oddJson.tokens := by
    decide +kernel
  rw [Json.parse?, scanned]
  rfl

theorem settings_read_back_of_oddSettings :
    oddSettings.Lists oddListing oddJson ∧
      Settings.parse oddText = .ok (oddSettings.overlay oddListing) ∧
      Settings.parse oddSettings.toJson.pretty = .ok oddSettings ∧
      (oddSettings.overlay oddListing).validate = .ok () := by
  have tracker : oddSettings.alerting.tracker.Lists oddListing.tracker oddTracker :=
    ⟨_, rfl, .refl _⟩
  have alerting : oddSettings.alerting.Lists oddListing oddAlerting :=
    ⟨oddTracker, tracker, _, rfl, .swap _ _ []⟩
  have lists : oddSettings.Lists oddListing oddJson := ⟨oddAlerting, alerting, _, rfl, .refl _⟩
  obtain ⟨valid, listed, saved, -⟩ := settings_read_back oddSettings
  have sound : oddSettings.validate = .ok () := by decide
  have overlaid := (valid oddListing).2 sound
  exact ⟨lists, (listed oddListing oddJson lists overlaid).1 oddText parse?_oddText, saved sound,
    overlaid⟩

end Daemon

end Alerting
