import Mathlib.Data.List.TakeWhile
import Alerting.Engine
import Alerting.Proofs.Moment
import Alerting.Proofs.Tracker.Coverage

/-!
# Decisions without limits of time

Instants, spans and whole numbers have limits, and where a limit is reached a way back fails, a span
is cut off or a fallback is taken. None of this changes a decision: cooldowns, the age of readings
and windows are judged as on a line of time without ends, except that no window begins before the
first instant.
-/

namespace Alerting

namespace TrackerSettings

variable {settings : TrackerSettings} {window : Span} {start now taken : Instant}

/-! ## Windows without limits -/

def graceNanos (settings : TrackerSettings) (length : Int) : Int :=
  length / 1000000 * settings.gracePercent / 100 * 1000000

def HeldThroughout (settings : TrackerSettings) (samples : List Sample) (operator : Operator)
    (number : Number) (length : Int) (now : Instant) : Prop :=
  let start := now.moment.move (-length)
  start.InRange ∧
    (∃ sample ∈ samples, start ≤ sample.timestamp.moment ∧
      sample.timestamp.moment ≤ now.moment ∧
      sample.timestamp.moment ≤ start.move (settings.graceNanos length)) ∧
    ∀ sample ∈ samples, start ≤ sample.timestamp.moment →
      sample.timestamp.moment ≤ now.moment → operator.compare sample.value number

instance (settings : TrackerSettings) (samples : List Sample) (operator : Operator)
    (number : Number) (length : Int) (now : Instant) :
    Decidable (settings.HeldThroughout samples operator number length now) :=
  inferInstanceAs (Decidable (_ ∧ _ ∧ _))

/-- What is reckoned of a window that begins at an instant meets no limit, but for a deadline after
the leap second at the end of time. -/
structure ReckonsExactly (settings : TrackerSettings) (window : Span) (start now : Instant) :
    Prop where
  product : saturated (window.wholeMillis * settings.gracePercent) =
    window.wholeMillis * settings.gracePercent
  grace : (settings.grace window).nanos = settings.graceNanos window.nanos
  /-- Outside leap seconds there is a deadline, no later than the end of the window. -/
  deadline : now.isLeap = false →
    ∃ last, start.add? (settings.grace window) = some last ∧ last ≤ now
  /-- In a leap second that is so if it is counted on into the next second. -/
  counted : ∀ last, start.add? (settings.grace window) = some last → last.nanos ≤ now.nanos
  missing : start.add? (settings.grace window) = none → now.isLeap ∧ now.second = latestSecond

theorem graceNanos_bounds (settings : TrackerSettings) {length : Int} (nonneg : 0 ≤ length) :
    0 ≤ settings.graceNanos length ∧ settings.graceNanos length ≤ length := by
  have millis : 0 ≤ length / 1000000 := by omega
  have bounds := settings.mul_gracePercent_bounds millis
  unfold graceNanos
  omega

theorem nanos_lt_of_sub? (begins : now.sub? window = some start) :
    window.nanos < 20000000000000000000000 := by
  have place := now.moment.place_move (-window.nanos)
  rw [Instant.sub?_eq_some_iff.mp begins] at place
  have := now.upper
  have := now.nano_lt
  have := start.lower
  have := start.nano_nonneg
  simp only [Moment.nanos, Instant.moment] at place
  unfold earliestSecond latestSecond secondsPerDay nanosPerSecond at *
  omega

theorem nanos_grace (forward : 0 ≤ window.nanos) (begins : now.sub? window = some start) :
    (settings.grace window).nanos = settings.graceNanos window.nanos := by
  have bound := nanos_lt_of_sub? begins
  have millis : 0 ≤ window.nanos / 1000000 := by omega
  have bounds := settings.mul_gracePercent_bounds millis
  rw [(grace_eq_millis forward bound).2, Instant.nanos_millis, graceNanos]
  · omega
  · unfold longestSpan
    omega

/-! ## Deadlines -/

theorem add?_grace (forward : 0 ≤ window.nanos) (begins : now.sub? window = some start) :
    match start.add? (settings.grace window) with
    | some last =>
        last.moment = start.moment.move (settings.graceNanos window.nanos) ∧
          last.nanos ≤ now.nanos ∧ (now.isLeap = false → last ≤ now)
    | none =>
        now.isLeap ∧ now.second = latestSecond ∧
          latestSecond < (start.moment.move (settings.graceNanos window.nanos)).second := by
  have length := settings.nanos_grace forward begins
  obtain ⟨nonneg, shorter⟩ := settings.graceNanos_bounds forward
  obtain ⟨onward, counted, past⟩ :=
    Instant.move_forth nonneg shorter (Instant.sub?_eq_some_iff.mp begins)
  split
  · next last reached =>
      have place := Instant.add?_eq_some_iff.mp reached
      rw [length] at place
      rw [place] at counted past
      exact ⟨place.symm, counted, past⟩
  · next missing =>
      have out := Instant.add?_eq_none_iff.mp missing
      rw [length] at out
      have := start.lower
      have := now.upper
      have := now.nano_lt
      have place := start.moment.place_move (settings.graceNanos window.nanos)
      have := start.nano_nonneg
      dsimp only at place
      generalize start.moment.move _ = reached at *
      simp only [Moment.InRange, Moment.le_iff, Moment.nanos, Instant.moment, Instant.nanos,
        Instant.isLeap_iff] at *
      unfold nanosPerSecond at *
      omega

theorem reckonsExactly_of_sub? (forward : 0 ≤ window.nanos)
    (begins : now.sub? window = some start) : settings.ReckonsExactly window start now := by
  have reached := settings.add?_grace forward begins
  refine ⟨(grace_eq_millis forward (nanos_lt_of_sub? begins)).1,
    settings.nanos_grace forward begins, ?_, ?_, ?_⟩
  · intro plain
    split at reached
    · next last found => exact ⟨last, found, reached.2.2 plain⟩
    · next => simp [plain] at reached
  · intro last found
    rw [found] at reached
    exact reached.2.1
  · intro missing
    rw [missing] at reached
    exact ⟨reached.1, reached.2.1⟩

theorem le_deadline_iff_le_move (forward : 0 ≤ window.nanos)
    (begins : now.sub? window = some start) (past : taken ≤ now) :
    taken ≤ settings.deadline window start now ↔
      taken.moment ≤ start.moment.move (settings.graceNanos window.nanos) := by
  have reached := settings.add?_grace forward begins
  rw [deadline]
  split at reached
  · next last found =>
      rw [found, Option.getD_some, ← reached.1]
      exact Iff.rfl
  · next missing =>
      rw [missing, Option.getD_none]
      refine iff_of_true past (.inl ?_)
      exact Int.lt_of_le_of_lt taken.upper reached.2.2

/-! ## Windows -/

variable {samples : List Sample} {operator : Operator} {number : Number}

theorem sustained_iff_heldThroughout (forward : 0 ≤ window.nanos) :
    settings.sustained samples operator number window now ↔
      settings.HeldThroughout samples operator number window.nanos now := by
  rw [sustained_iff]
  constructor
  · rintro ⟨start, begins, ⟨sample, mem, late, past, early⟩, holds⟩
    have place := Instant.sub?_eq_some_iff.mp begins
    have soon := (le_deadline_iff_le_move forward begins past).mp early
    rw [HeldThroughout, place]
    exact ⟨start.inRange_moment, ⟨sample, mem, late, past, soon⟩, holds⟩
  · rintro ⟨within, ⟨sample, mem, late, past, soon⟩, holds⟩
    cases begins : now.sub? window with
    | none => exact absurd within (Instant.sub?_eq_none_iff.mp begins)
    | some start =>
        rw [Instant.sub?_eq_some_iff.mp begins] at late soon holds
        have early := (le_deadline_iff_le_move forward begins past).mpr soon
        exact ⟨start, rfl, ⟨sample, mem, late, past, early⟩, holds⟩

theorem sustained_seconds_iff_heldThroughout {count : Int} (nonneg : 0 ≤ count) :
    settings.sustained samples operator number (.seconds count) now ↔
      settings.HeldThroughout samples operator number (count * nanosPerSecond) now := by
  have length := Instant.nanos_seconds nonneg
  rw [sustained_iff_heldThroughout (by unfold longestSpan at length; omega)]
  rcases length with same | ⟨greatest, far⟩
  · rw [same, nanosPerSecond]
  · have out := now.not_inRange_of_far (Int.le_of_eq greatest.symm)
    have outAlso := now.not_inRange_of_far far
    exact iff_of_false (fun held => out held.1) fun held => outAlso held.1

/-! ## The age of readings -/

theorem retains_eq (settings : TrackerSettings) (now : Instant) (old : Sample) :
    settings.retains now old = !decide (old.timestamp.moment <
      now.moment.move (-(settings.maxSampleAgeSeconds.toNat * nanosPerSecond))) := by
  have nonneg : (0 : Int) ≤ settings.maxSampleAgeSeconds.toNat := Int.natCast_nonneg _
  rw [Bool.eq_iff_iff, Bool.not_eq_true', decide_eq_false_iff_not, retains_iff]
  cases reach : now.sub? settings.maxSampleAge with
  | none =>
      have out := (Instant.sub?_seconds_eq_none_iff nonneg).mp reach
      have late := Instant.not_lt_of_out (by unfold nanosPerSecond; omega) out old.timestamp
      simp [late]
  | some cutoff =>
      rw [(Instant.sub?_seconds_eq_some_iff nonneg).mp reach]
      simp only [Option.some.injEq, forall_eq']
      exact Std.not_lt.symm

end TrackerSettings

namespace Engine

theorem coolingDown_eq {rule : Rule} (positive : 0 < rule.cooldownSeconds.toInt)
    (last now : Instant) :
    coolingDown rule last now = Decidable.decide
      (now.moment.since last.moment < rule.cooldownSeconds.toInt * nanosPerSecond) := by
  have cooldown : rule.cooldown = some (.seconds rule.cooldownSeconds.toInt) :=
    if_neg (Int.not_le.mpr positive)
  rw [coolingDown, cooldown, Option.any_some, ← Instant.nanos_since]
  exact decide_eq_decide.mpr (Instant.since_lt_seconds positive)

end Engine

theorem Tracker.isSustained_iff_heldThroughout {tracker : Tracker} {window : Span}
    (forward : 0 ≤ window.nanos) (metric : String) (operator : Operator) (threshold : String)
    (now : Instant) :
    tracker.isSustained metric operator threshold window now ↔
      ∃ number, Number.parse? threshold = some number ∧
        tracker.settings.HeldThroughout (tracker.samples metric) operator number window.nanos
          now := by
  rw [isSustained_eq, TrackerSettings.judges, Option.any_eq_true]
  exact exists_congr fun number => and_congr_right fun _ =>
    TrackerSettings.sustained_iff_heldThroughout forward

theorem Tracker.samples_record_eq (tracker : Tracker) (metric : String) (sample : Sample) :
    let settings := tracker.settings
    let cutoff :=
      sample.timestamp.moment.move (-(settings.maxSampleAgeSeconds.toNat * nanosPerSecond))
    let arrived := tracker.samples metric ++ [sample]
    let fresh := arrived.dropWhile fun old => old.timestamp.moment < cutoff
    (tracker.record metric sample).samples metric =
        fresh.drop (fresh.length - settings.maxSamples.toNat) ∧
      (¬cutoff.InRange → fresh = arrived) := by
  intro settings cutoff arrived fresh
  constructor
  · rw [samples_record_self, TrackerSettings.remember]
    simp only [TrackerSettings.retains_eq, Bool.not_not]
    rfl
  · intro out
    have nonneg : (0 : Int) ≤ settings.maxSampleAgeSeconds.toNat * nanosPerSecond := by
      unfold nanosPerSecond
      omega
    apply List.dropWhile_eq_self_iff.mpr
    intro some stale
    exact Instant.not_lt_of_out nonneg out _ (of_decide_eq_true stale)

namespace Engine

theorem metricHolds_iff_heldThroughout {engine : Engine} {condition : Condition}
    (sustained : condition.duration ≠ 0) (metric : String) (properties : Properties)
    (now : Instant) :
    engine.metricHolds metric condition properties now ↔
      ∃ number, Number.parse? condition.operand = some number ∧
        engine.tracker.settings.HeldThroughout (engine.tracker.samples metric) condition.operator
          number (condition.duration.toNat * nanosPerSecond) now := by
  have window : condition.window = some (.seconds condition.duration.toNat) := if_neg sustained
  have judged : engine.metricHolds metric condition properties now =
      engine.tracker.isSustained metric condition.operator condition.operand
        (.seconds condition.duration.toNat) now := by
    rw [metricHolds, window]
  rw [judged, Tracker.isSustained_eq, TrackerSettings.judges, Option.any_eq_true]
  exact exists_congr fun number => and_congr_right fun _ =>
    TrackerSettings.sustained_seconds_iff_heldThroughout (Int.natCast_nonneg _)

/-! ## Every decision -/

/-- Cooldowns, the age of readings and windows are judged as on a line of time without ends, with
integers of any size. What is reckoned of a window meets no limit, and a window that would begin
before the first instant is never sustained. -/
theorem decides_without_limits (engine : Engine) (now : Instant) :
    (∀ rule : Rule, 0 < rule.cooldownSeconds.toInt →
      engine.claim rule now =
        if (engine.lastFired rule.id).any fun last =>
          now.moment.since last.moment < rule.cooldownSeconds.toInt * nanosPerSecond
        then (.suppressed, engine) else (.fires, engine.noteFire rule.id now)) ∧
    (∀ (metric : String) (value : Number),
      let settings := engine.tracker.settings
      let cutoff := now.moment.move (-(settings.maxSampleAgeSeconds.toNat * nanosPerSecond))
      let arrived := engine.tracker.samples metric ++ [⟨value, now⟩]
      let fresh := arrived.dropWhile fun old => old.timestamp.moment < cutoff
      (engine.tracker.record metric ⟨value, now⟩).samples metric =
          fresh.drop (fresh.length - settings.maxSamples.toNat) ∧
        (¬cutoff.InRange → fresh = arrived)) ∧
    (∀ (window : Span) (start : Instant), 0 ≤ window.nanos → now.sub? window = some start →
      engine.tracker.settings.ReckonsExactly window start now) ∧
    (∀ (metric : String) (operator : Operator) (threshold : String) (window : Span),
      (0 ≤ window.nanos →
        (engine.tracker.isSustained metric operator threshold window now ↔
          ∃ number, Number.parse? threshold = some number ∧
            engine.tracker.settings.HeldThroughout (engine.tracker.samples metric) operator number
              window.nanos now)) ∧
      (now.sub? window = none →
        engine.tracker.isSustained metric operator threshold window now = false)) ∧
    ∀ (metric : String) (condition : Condition) (properties : Properties),
      condition.duration ≠ 0 →
      (engine.metricHolds metric condition properties now ↔
        ∃ number, Number.parse? condition.operand = some number ∧
          engine.tracker.settings.HeldThroughout (engine.tracker.samples metric)
            condition.operator number (condition.duration.toNat * nanosPerSecond) now) := by
  refine ⟨?_, ?_, ?_, ?_, ?_⟩
  · intro rule positive
    simp only [claim, coolingDown_eq positive]
  · intro metric value
    exact engine.tracker.samples_record_eq metric ⟨value, now⟩
  · intro window start forward begins
    exact TrackerSettings.reckonsExactly_of_sub? forward begins
  · intro metric operator threshold window
    refine ⟨fun forward => ?_, fun missing => ?_⟩
    · exact Tracker.isSustained_iff_heldThroughout forward metric operator threshold now
    · rw [Tracker.isSustained_eq, TrackerSettings.judges, Option.any_eq_false]
      intro number _
      simp [TrackerSettings.sustained, missing]
  · intro metric condition properties sustained
    exact metricHolds_iff_heldThroughout sustained metric properties now

def enduring : Engine :=
  { start {} with
    tracker := Tracker.record
      (.start { maxSampleAgeSeconds := 18446744073709551615
                coverageGracePercent := 4294967295 }) "cpu" ⟨.ofInt 95, .clamp 0⟩
    lastFires := [(7, .clamp 0)] }

def enduringRule : Rule :=
  { id := 7, name := "hot", objectType := "host", trigger := .metric "cpu"
    cooldownSeconds := 9223372036854775807 }

theorem decides_without_limits_of_enduring :
    let now := Instant.clamp 1777636800000000000
    enduring.claim enduringRule now = (.suppressed, enduring) ∧
      (enduring.tracker.record "cpu" ⟨.ofInt 96, now⟩).samples "cpu" =
        [⟨.ofInt 95, .clamp 0⟩, ⟨.ofInt 96, now⟩] ∧
      (∃ last, Instant.add? (.clamp 1777636740000000000)
        (enduring.tracker.settings.grace (.seconds 60)) = some last ∧ last ≤ now) ∧
      enduring.tracker.isSustained "cpu" .greaterThan "90" (.seconds 1777636800) now = true ∧
      enduring.tracker.isSustained "cpu" .greaterThan "90" .longest now = false ∧
      enduring.metricHolds "cpu" ⟨"value", .greaterThan, "90", 18446744073709551615⟩ .empty now =
        false := by
  intro now
  obtain ⟨cooldown, age, window, sustained, holds⟩ := decides_without_limits enduring now
  refine ⟨?_, ?_, ?_, ?_, ?_, ?_⟩
  · exact (cooldown enduringRule (by decide)).trans (if_pos (by decide +kernel))
  · exact (age "cpu" (.ofInt 96)).1.trans (by decide +kernel)
  · exact (window (.seconds 60) (.clamp 1777636740000000000) (by decide) (by decide)).deadline
      (by decide)
  · refine ((sustained "cpu" .greaterThan "90" (.seconds 1777636800)).1 (by decide)).mpr
      ⟨.ofInt 90, by decide +kernel, by decide +kernel⟩
  · exact (sustained "cpu" .greaterThan "90" .longest).2 (by decide)
  · rw [Bool.eq_false_iff]
    intro held
    obtain ⟨_, -, begins, -⟩ := (holds "cpu" ⟨"value", .greaterThan, "90", 18446744073709551615⟩
      .empty (by decide)).mp held
    revert begins
    decide

/-- The deadline of a window that ends in a leap second can come after it, and there is none after
the leap second at the end of time. -/
theorem not_forall_deadline_le :
    (¬∀ (settings : TrackerSettings) (window : Span) (now start last : Instant),
      0 ≤ window.nanos → now.sub? window = some start →
      start.add? (settings.grace window) = some last → last ≤ now) ∧
    ¬∀ (settings : TrackerSettings) (window : Span) (now start : Instant),
      0 ≤ window.nanos → now.sub? window = some start →
      (start.add? (settings.grace window)).isSome := by
  constructor
  · intro early
    have early := early { coverageGracePercent := 99 } (.seconds 1)
      ⟨1483228799, 1500000000, by decide, by decide, by decide, by decide⟩
      (.clamp 1483228799500000000) (.clamp 1483228800490000000) (by decide) (by decide)
      (by decide)
    revert early
    decide
  · intro found
    have found := found { coverageGracePercent := 100 } (.seconds 1)
      ⟨latestSecond, 1500000000, by decide, by decide, by decide, by decide⟩
      (.clamp (latestSecond * nanosPerSecond + 500000000)) (by decide) (by decide)
    revert found
    decide

end Engine

end Alerting
