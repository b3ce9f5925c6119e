import Alerting.Event
import Alerting.Matching
import Alerting.Record
import Alerting.Rule
import Alerting.Tracker

/-!
# The engine

The engine holds a snapshot of the enabled rules, the readings of the metrics, and when each rule
fired last. For every event it tells which rules match, and which of those fire: a rule that fired
too short a time ago is suppressed. Each step below happens at once; between steps other events may
be handled.
-/

namespace Alerting

inductive Cleanup where
  | unstarted
  | running
  | ended
  /-- It has ended, and this has been waited for. -/
  | awaited
deriving DecidableEq, Repr

structure Engine where
  settings : Settings
  tracker : Tracker
  rules : List Rule
  lastFires : List (UInt64 × Instant)
  retentionDays : Int64
  cleanup : Cleanup
  stopped : Bool

inductive Verdict where
  | unmatched
  | suppressed
  | fires
deriving DecidableEq, Repr

structure Handling where
  recorded : Bool
  evaluated : Nat := 0
  matched : Nat := 0
  fired : List UInt64 := []
  suppressed : List UInt64 := []
deriving DecidableEq, Repr

namespace Handling

def add (handling : Handling) (rule : Rule) (verdict : Verdict) : Handling :=
  let seen := { handling with evaluated := handling.evaluated + 1 }
  match verdict with
  | .unmatched => seen
  | .suppressed =>
      { seen with matched := seen.matched + 1, suppressed := seen.suppressed ++ [rule.id] }
  | .fires => { seen with matched := seen.matched + 1, fired := seen.fired ++ [rule.id] }

end Handling

namespace Engine

def start (settings : Settings) : Engine :=
  { settings
    tracker := .start settings.tracker
    rules := []
    lastFires := []
    retentionDays := settings.historyRetentionDays
    cleanup := .unstarted
    stopped := false }

def observe (engine : Engine) (event : Event) (now : Instant) : Bool × Engine :=
  match event.trigger.metricName?, event.metricValue? with
  | some metric, some value =>
      (true, { engine with tracker := engine.tracker.record metric ⟨value, now⟩ })
  | _, _ => (false, engine)

/-- Whether a condition of a rule on a metric holds. Conditions with a window look at the readings
of the metric, whatever property they name. -/
def metricHolds (engine : Engine) (metric : String) (condition : Condition)
    (properties : Properties) (now : Instant) : Bool :=
  match condition.window with
  | some window =>
      engine.tracker.isSustained metric condition.operator condition.operand window now
  | none => condition.holds properties

def ruleMatches (engine : Engine) (rule : Rule) (event : Event) (now : Instant) : Bool :=
  rule.objectType == event.objectType && rule.trigger == event.trigger &&
    match rule.trigger with
    | .event _ => allHold rule.conditions event.properties
    | .metric metric =>
        rule.conditions.all fun condition =>
          engine.metricHolds metric condition event.properties now

def lastFired (engine : Engine) (id : UInt64) : Option Instant := engine.lastFires.lookup id

def noteFire (engine : Engine) (id : UInt64) (now : Instant) : Engine :=
  { engine with lastFires := (id, now) :: engine.lastFires.filter fun fire => fire.1 != id }

def coolingDown (rule : Rule) (last now : Instant) : Bool :=
  rule.cooldown.any fun cooldown => now.since last < cooldown

def claim (engine : Engine) (rule : Rule) (now : Instant) : Verdict × Engine :=
  if (engine.lastFired rule.id).any fun last => coolingDown rule last now then
    (.suppressed, engine)
  else (.fires, engine.noteFire rule.id now)

def consider (engine : Engine) (rule : Rule) (event : Event) (now : Instant) : Verdict × Engine :=
  if engine.ruleMatches rule event now then engine.claim rule now else (.unmatched, engine)

def cooldownRemaining (engine : Engine) (id : UInt64) (now : Instant) : Option Span := do
  let rule ← engine.rules.find? fun rule => rule.id == id
  let cooldown ← rule.cooldown
  let last ← engine.lastFired id
  let remaining ← cooldown.sub? (now.since last)
  if Span.zero < remaining then some remaining else none

def forgetOthers (engine : Engine) (rules : List Rule) : Engine :=
  { engine with
    lastFires := engine.lastFires.filter fun fire => rules.any fun rule => rule.id == fire.1 }

def adopt (engine : Engine) (rules : List Rule) : Engine := { engine with rules }

def refresh (engine : Engine) (rules : List Rule) : Engine :=
  (engine.forgetOthers rules).adopt rules

def resetCooldowns (engine : Engine) : Engine := { engine with lastFires := [] }

def testEvent (rule : Rule) (now : Instant) : Event :=
  { objectType := rule.objectType
    trigger := rule.trigger
    properties := Properties.empty.insert PropertyName.test (.bool true)
    timestamp := some now }

def recordOf (rule : Rule) (event : Event) (now : Instant) : Record :=
  { ruleId := rule.id
    firedAt := now
    eventData := event.properties.toJson.compact
    actions := (Json.array (rule.actions.map Action.toJson)).compact }

/-- Sets for how many days history is kept, and starts the task that removes older history unless it
has been started before. Zero and less keep history forever. A stopped engine takes no notice. -/
def startCleanup (engine : Engine) (days : Int64) : Engine :=
  if engine.stopped then engine
  else
    { engine with
      retentionDays := days
      cleanup :=
        if 0 < days ∧ engine.cleanup = .unstarted then .running else engine.cleanup }

def stop (engine : Engine) : Engine := { engine with stopped := true }

def hasTask (engine : Engine) : Bool := engine.cleanup = .running ∨ engine.cleanup = .ended

def dismissTask (engine : Engine) : Engine := { engine with cleanup := .awaited }

def cutoff? (days : Int64) (now : Instant) : Option Instant :=
  now.move? (-days.toInt * nanosPerDay)

def summary (engine : Engine) : String :=
  "AlertEngine \x7b rules: " ++ toString engine.rules.length ++ ", cooldowns: " ++
    toString engine.lastFires.length ++ ", stopped: " ++ toString engine.stopped ++ ", .. \x7d"

end Engine

end Alerting
