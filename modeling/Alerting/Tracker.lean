import Alerting.Number.Numeral
import Alerting.Operator
import Alerting.Queue
import Alerting.Settings
import Alerting.Time.Instant

/-!
# Tracking readings

The tracker remembers the latest readings of every metric, as many and as old as the settings
allow, and tells whether a comparison has held throughout a window of time. A window counts only if
its first reading comes early enough in it.
-/

namespace Alerting

structure Sample where
  value : Number
  timestamp : Instant
deriving DecidableEq, Repr

structure Tracker where
  settings : TrackerSettings
  buffers : List (String × Queue Sample)

namespace TrackerSettings

def retains (settings : TrackerSettings) (now : Instant) (sample : Sample) : Bool :=
  match now.sub? settings.maxSampleAge with
  | some cutoff => cutoff ≤ sample.timestamp
  | none => true

/-- The buffer after the arrival of a reading: stale readings are dropped from its front, then as
many as are too many. -/
def push (settings : TrackerSettings) (buffer : Queue Sample) (sample : Sample) : Queue Sample :=
  let fresh := (buffer.push sample).dropWhile fun old => !settings.retains sample.timestamp old
  fresh.drop (fresh.size - settings.maxSamples.toNat)

theorem toList_push (settings : TrackerSettings) (buffer : Queue Sample) (sample : Sample) :
    (settings.push buffer sample).toList =
      let fresh := (buffer.toList ++ [sample]).dropWhile fun old =>
        !settings.retains sample.timestamp old
      fresh.drop (fresh.length - settings.maxSamples.toNat) := by
  simp [push, ← Queue.length_toList]

def saturated (n : Int) : Int := max Int64.minValue.toInt (min n Int64.maxValue.toInt)

def grace (settings : TrackerSettings) (window : Span) : Span :=
  let percent : Int := min settings.coverageGracePercent.toNat 100
  .millis ((saturated (window.wholeMillis * percent)).tdiv 100)

def deadline (settings : TrackerSettings) (window : Span) (start now : Instant) : Instant :=
  (start.add? (settings.grace window)).getD now

/-- Whether a comparison with a number holds of all readings of a window that ends at `now`, and
the first of them comes early enough. -/
def sustained (settings : TrackerSettings) (samples : List Sample) (operator : Operator)
    (threshold : Number) (window : Span) (now : Instant) : Bool :=
  match now.sub? window with
  | none => false
  | some start =>
      let inside := samples.filter fun sample => start ≤ sample.timestamp && sample.timestamp ≤ now
      inside.any (fun sample => sample.timestamp ≤ settings.deadline window start now) &&
        inside.all fun sample => operator.compare sample.value threshold

end TrackerSettings

namespace Tracker

def start (settings : TrackerSettings) : Tracker := ⟨settings, []⟩

def buffer (tracker : Tracker) (metric : String) : Queue Sample :=
  (tracker.buffers.lookup metric).getD .empty

def samples (tracker : Tracker) (metric : String) : List Sample := (tracker.buffer metric).toList

def record (tracker : Tracker) (metric : String) (sample : Sample) : Tracker :=
  let others := tracker.buffers.filter fun buffer => buffer.1 != metric
  { tracker with
    buffers := (metric, tracker.settings.push (tracker.buffer metric) sample) :: others }

def clear (tracker : Tracker) : Tracker := { tracker with buffers := [] }

def isSustained (tracker : Tracker) (metric : String) (operator : Operator) (threshold : String)
    (window : Span) (now : Instant) : Bool :=
  match Number.parse? threshold with
  | some threshold =>
      tracker.settings.sustained (tracker.samples metric) operator threshold window now
  | none => false

end Tracker

end Alerting
