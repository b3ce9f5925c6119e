import Alerting.Proofs.Tracker.Veto

/-!
# Windows that a steady course of readings covers

Readings come at a steady pace, and a comparison holds of all of them. The window that ends with the
latest one is then sustained as soon as all of it but its grace has passed since the first reading,
and from then on, however many readings have been dropped by then. When the first reading was taken
in a leap second, windows that begin outside the leap second count from its end.
-/

namespace Alerting

/-- Readings of which the first is taken at an instant, and each of the others a number of
milliseconds after the one before it. -/
def Steady (start : Instant) (period : Nat) (samples : List Sample) : Prop :=
  ∀ (i : Nat) (_ : i < samples.length),
    start.add? (.millis (i * period : Nat)) = some samples[i].timestamp

instance (start : Instant) (period : Nat) (samples : List Sample) :
    Decidable (Steady start period samples) :=
  inferInstanceAs (Decidable (∀ (i : Nat) (_ : i < samples.length), _))

theorem percent_bounds {count : Int} (nonneg : 0 ≤ count) {percent : Nat} (valid : percent ≤ 100) :
    0 ≤ count * percent ∧ count * percent ≤ count * 100 :=
  ⟨Int.mul_nonneg nonneg (by omega), Int.mul_le_mul_of_nonneg_left (by omega) nonneg⟩

namespace TrackerSettings

variable {settings : TrackerSettings}

/-! ## The grace of a window -/

def gracePercent (settings : TrackerSettings) : Int := min settings.coverageGracePercent.toNat 100

theorem mul_gracePercent_bounds (settings : TrackerSettings) {count : Int} (nonneg : 0 ≤ count) :
    0 ≤ count * settings.gracePercent ∧ count * settings.gracePercent ≤ count * 100 := by
  have percent : 0 ≤ settings.gracePercent ∧ settings.gracePercent ≤ 100 := by
    unfold gracePercent
    omega
  exact ⟨Int.mul_nonneg nonneg percent.1, Int.mul_le_mul_of_nonneg_left percent.2 nonneg⟩

theorem grace_eq_millis {window : Span} (forward : 0 ≤ window.nanos)
    (bound : window.nanos < 20000000000000000000000) :
    saturated (window.wholeMillis * settings.gracePercent) =
        window.wholeMillis * settings.gracePercent ∧
      settings.grace window = .millis (window.nanos / 1000000 * settings.gracePercent / 100) := by
  have whole : window.wholeMillis = window.nanos / 1000000 :=
    Int.tdiv_eq_ediv_of_nonneg forward
  have millis : 0 ≤ window.nanos / 1000000 := by omega
  have bounds := settings.mul_gracePercent_bounds millis
  have limits : Int64.minValue.toInt = -9223372036854775808 ∧
      Int64.maxValue.toInt = 9223372036854775807 := by decide
  have unsaturated : saturated (window.wholeMillis * settings.gracePercent) =
      window.wholeMillis * settings.gracePercent := by
    rw [saturated, limits.1, limits.2, whole]
    omega
  refine ⟨unsaturated, ?_⟩
  rw [grace, ← gracePercent, unsaturated, whole, Int.tdiv_eq_ediv_of_nonneg bounds.1]

def graceMillis (settings : TrackerSettings) (window : Nat) : Nat :=
  window * settings.coverageGracePercent.toNat / 100

theorem grace_millis (valid : settings.coverageGracePercent ≤ 100) {count : Int}
    (nonneg : 0 ≤ count) (bound : count < 20000000000000000) :
    settings.grace (.millis count) =
      .millis (count * settings.coverageGracePercent.toNat / 100) := by
  have valid : settings.coverageGracePercent.toNat ≤ 100 := valid
  have length : (Span.millis count).nanos = count * 1000000 :=
    Instant.nanos_millis nonneg (by unfold longestSpan; omega)
  have whole : count * 1000000 / 1000000 = count := by omega
  have percent : settings.gracePercent = settings.coverageGracePercent.toNat := by
    unfold gracePercent
    omega
  rw [(grace_eq_millis (by omega) (by omega)).2, length, whole, percent]

theorem le_deadline_iff (valid : settings.coverageGracePercent ≤ 100) {window : Nat}
    {first taken now : Instant} (begins : now.sub? (.millis window) = some first)
    (late : first ≤ taken) (past : taken ≤ now) :
    taken ≤ settings.deadline (.millis window) first now ↔
      taken.mark first ≤ first.nanos + settings.graceMillis window * 1000000 := by
  have bound := Instant.count_of_sub?_millis (Int.natCast_nonneg _) begins
  have back := Instant.nanos_sub?_millis (Int.natCast_nonneg _) begins
  have bounds := percent_bounds (Int.natCast_nonneg window)
    (show settings.coverageGracePercent.toNat ≤ 100 from valid)
  have nonneg : 0 ≤ (window * settings.coverageGracePercent.toNat / 100 : Int) := by
    omega
  have := taken.nano_nonneg
  have := taken.nano_lt
  have := first.nano_nonneg
  have := first.nano_lt
  have := now.nano_lt
  unfold deadline graceMillis
  rw [grace_millis valid (Int.natCast_nonneg _) bound]
  push_cast
  cases hlast : first.add? (.millis (window * settings.coverageGracePercent.toNat / 100)) with
  | none =>
      have out := Instant.late_of_add?_millis_eq_none nonneg hlast
      have := taken.upper
      simp only [Option.getD_none, past, true_iff]
      simp only [Instant.mark, Instant.isLeap_iff, ← Bool.not_eq_true, Instant.le_iff] at *
      unfold Instant.nanos nanosPerSecond at *
      split at out <;> split <;> omega
  | some last =>
      have onward := Instant.elapsed_of_add?_millis nonneg hlast
      have := last.nano_nonneg
      simp only [Option.getD_some, Instant.mark, Instant.elapsed, Instant.isLeap_iff,
        ← Bool.not_eq_true, Instant.le_iff] at *
      unfold Instant.nanos nanosPerSecond at *
      split <;> split at onward <;> omega

/-! ## Readings that cover a window -/

/-- Whether a reading lies in a window and comes early enough in it. -/
def Covers (settings : TrackerSettings) (window : Span) (now : Instant) (sample : Sample) : Prop :=
  ∃ first, now.sub? window = some first ∧ first ≤ sample.timestamp ∧ sample.timestamp ≤ now ∧
    sample.timestamp ≤ settings.deadline window first now

theorem sustained_iff_covers {samples : List Sample} {operator : Operator} {number : Number}
    {window : Span} {now : Instant}
    (holds : ∀ sample ∈ samples, operator.compare sample.value number) :
    settings.sustained samples operator number window now ↔
      ∃ sample ∈ samples, settings.Covers window now sample := by
  rw [sustained_iff]
  constructor
  · rintro ⟨first, begins, ⟨sample, mem, late, past, early⟩, -⟩
    exact ⟨sample, mem, first, begins, late, past, early⟩
  · rintro ⟨sample, mem, first, begins, late, past, early⟩
    exact ⟨first, begins, ⟨sample, mem, late, past, early⟩, fun other mem _ _ => holds other mem⟩

variable {window period : Nat} {start first now : Instant}

theorem mark_le_of_covers {sample : Sample} {before : Nat}
    (valid : settings.coverageGracePercent ≤ 100)
    (taken : start.add? (.millis before) = some sample.timestamp)
    (begins : now.sub? (.millis window) = some first)
    (covers : settings.Covers (.millis window) now sample) :
    start.mark first ≤ first.nanos + settings.graceMillis window * 1000000 := by
  obtain ⟨_, same, late, past, early⟩ := covers
  obtain rfl := Option.some.inj (begins.symm.trans same)
  have back := Instant.nanos_sub?_millis (Int.natCast_nonneg _) begins
  have near : first.isLeap → sample.timestamp.isLeap := by
    simp only [Instant.isLeap_iff, Instant.le_iff] at *
    omega
  have onward : start ≤ sample.timestamp :=
    (Instant.elapsed_of_steps (Nat.zero_le before) start.move?_zero taken).1
  have early := (le_deadline_iff valid begins late past).mp early
  exact Int.le_trans (Instant.mark_le_mark onward near) early

theorem covers_of_mark_le {sample : Sample} {before total : Nat}
    (valid : settings.coverageGracePercent ≤ 100) (order : before ≤ total)
    (reached : start.add? (.millis total) = some now)
    (taken : start.add? (.millis before) = some sample.timestamp)
    (begins : now.sub? (.millis window) = some first) (inside : total ≤ before + window)
    (soon : before + window ≤ total + settings.graceMillis window ∨ before = 0)
    (passed : start.mark first ≤ first.nanos + settings.graceMillis window * 1000000) :
    settings.Covers (.millis window) now sample := by
  obtain ⟨past, rest, leap⟩ := Instant.elapsed_of_steps order taken reached
  have back := Instant.nanos_sub?_millis (Int.natCast_nonneg _) begins
  have bound := Instant.count_of_sub?_millis (Int.natCast_nonneg _) begins
  have length : (Span.millis window).nanos = window * 1000000 :=
    Instant.nanos_millis (Int.natCast_nonneg _) (by unfold longestSpan; omega)
  have late : first ≤ sample.timestamp :=
    Instant.sub?_le_of_elapsed (by omega) (by omega) begins
  refine ⟨first, begins, late, past, (le_deadline_iff valid begins late past).mpr ?_⟩
  rcases soon with soon | rfl
  · by_cases apart : sample.timestamp.isLeap ∧ first.isLeap = false
    · -- The start lies in the same leap second.
      rw [Instant.mark, if_pos ⟨(leap apart.1).1, apart.2⟩] at passed
      rw [Instant.mark, if_pos apart, (leap apart.1).2]
      exact passed
    · have together : ¬(sample.timestamp.isLeap ∧ sample.timestamp.second < now.second) := by
        rintro ⟨inside, before⟩
        have begun := back.2 (by simpa [inside] using apart)
        rw [Instant.le_iff] at late
        omega
      rw [Instant.elapsed, if_neg together] at rest
      rw [Instant.mark, if_neg apart]
      omega
  · have same : sample.timestamp = start := Option.some.inj (taken.symm.trans start.move?_zero)
    rw [same]
    exact passed

/-! ## Readings that stay -/

theorem retains_of_add?_millis {earlier later : Sample} {before total : Nat}
    (order : before ≤ total)
    (young : ((total - before : Nat) : Int) * 1000000 ≤ settings.maxSampleAge.nanos)
    (taken : start.add? (.millis before) = some earlier.timestamp)
    (followed : start.add? (.millis total) = some later.timestamp) :
    settings.retains later.timestamp earlier := by
  rw [retains_iff]
  intro cutoff hcutoff
  have steps := Instant.elapsed_of_steps order taken followed
  exact Instant.sub?_le_of_elapsed (by omega) (by omega) hcutoff

theorem mem_held_of_steady {samples : List Sample} {i : Nat}
    (steady : Steady start period samples) (positive : 0 < period) (h : i < samples.length)
    (young : (((samples.length - 1 - i) * period : Nat) : Int) * 1000000 ≤
      settings.maxSampleAge.nanos)
    (room : samples.length - i ≤ settings.maxSamples.toNat) :
    samples[i] ∈ settings.held samples := by
  have parts : samples.take i ++ samples[i] :: samples.drop (i + 1) = samples := by
    rw [← List.drop_eq_getElem_cons h, List.take_append_drop]
  have retained : ∀ later ∈ samples.drop (i + 1), settings.retains later.timestamp samples[i] := by
    intro later mem
    obtain ⟨j, hj, rfl⟩ := List.mem_iff_getElem.mp mem
    rw [List.length_drop] at hj
    rw [List.getElem_drop]
    have order : i * period < (i + 1 + j) * period :=
      Nat.mul_lt_mul_of_pos_right (by omega) positive
    have within : (i + 1 + j) * period - i * period ≤ (samples.length - 1 - i) * period := by
      rw [← Nat.sub_mul]
      exact Nat.mul_le_mul_right _ (by omega)
    exact retains_of_add?_millis (Nat.le_of_lt order) (by omega) (steady i h)
      (steady (i + 1 + j) (by omega))
  have stays : samples[i] :: samples.drop (i + 1) <:+
      settings.held (samples.take i ++ samples[i] :: samples.drop (i + 1)) :=
    suffix_held retained (by rw [List.length_drop]; omega)
  rw [parts] at stays
  exact stays.mem List.mem_cons_self

theorem exists_covers_iff_of_steady {samples : List Sample} {last : Nat}
    (valid : settings.coverageGracePercent ≤ 100) (positive : 0 < period)
    (frequent : period ≤ settings.graceMillis window)
    (young : (window : Int) * 1000000 ≤ settings.maxSampleAge.nanos)
    (room : window / period + 1 ≤ settings.maxSamples.toNat)
    (steady : Steady start period samples) (arrived : samples.length = last + 1)
    (reached : start.add? (.millis (last * period : Nat)) = some now) :
    (∃ sample ∈ settings.held samples, settings.Covers (.millis window) now sample) ↔
      ∃ first, now.sub? (.millis window) = some first ∧
        start.mark first ≤ first.nanos + settings.graceMillis window * 1000000 := by
  constructor
  · rintro ⟨sample, mem, covers⟩
    obtain ⟨i, hi, rfl⟩ := List.mem_iff_getElem.mp ((settings.held_suffix _).subset mem)
    obtain ⟨first, begins, inside⟩ := covers
    exact ⟨first, begins,
      mark_le_of_covers valid (steady i hi) begins ⟨first, begins, inside⟩⟩
  · rintro ⟨first, begins, passed⟩
    -- The reading that lies as many periods back as the window is long, or else the first one.
    obtain ⟨back, within, few, far⟩ : ∃ back ≤ last, back ≤ window / period ∧
        (back = window / period ∨ back = last) :=
      ⟨min last (window / period), by omega, by omega, by omega⟩
    have whole : window / period * period + window % period = window := Nat.div_add_mod' ..
    have rest : window % period < period := Nat.mod_lt _ positive
    have reach : back * period ≤ window / period * period := Nat.mul_le_mul_right _ few
    have parts : (last - back) * period + back * period = last * period := by
      rw [← Nat.add_mul, Nat.sub_add_cancel within]
    have hi : last - back < samples.length := by omega
    refine ⟨samples[last - back], ?_, ?_⟩
    · apply mem_held_of_steady steady positive hi
      · rw [arrived, Nat.add_sub_cancel, Nat.sub_sub_self within]
        omega
      · omega
    · apply covers_of_mark_le valid (by omega) reached (steady _ hi) begins (by omega) ?_ passed
      rcases far with rfl | rfl
      · left
        omega
      · right
        simp

end TrackerSettings

/-! ## A steady breach -/

namespace Tracker

/-- A steady breach is reported by the first reading that comes when all of the window but its grace
has passed, and by all after it. A window that would begin before the first instant is never
reported, and if the first reading was taken in a leap second, what counts is the time since then
or, for windows that begin outside the leap second, since its end. -/
theorem isSustained_iff_of_steady {tracker : Tracker} {readings : List (String × Sample)}
    {metric : String} {operator : Operator} {threshold : String} {number : Number}
    {start now : Instant} {period window last : Nat}
    (valid : tracker.settings.coverageGracePercent ≤ 100) (positive : 0 < period)
    (frequent : period ≤ tracker.settings.graceMillis window)
    (young : (window : Int) * 1000000 ≤ tracker.settings.maxSampleAge.nanos)
    (room : window / period + 1 ≤ tracker.settings.maxSamples.toNat)
    (fresh : tracker.samples metric = [])
    (steady : Steady start period (readingsOf metric readings))
    (arrived : (readingsOf metric readings).length = last + 1)
    (reached : start.add? (.millis (last * period : Nat)) = some now)
    (numeral : Number.parse? threshold = some number)
    (breach : ∀ sample ∈ readingsOf metric readings, operator.compare sample.value number) :
    let grace := tracker.settings.graceMillis window
    let reported :=
      (tracker.recordAll readings).isSustained metric operator threshold (.millis window) now
    (start.isLeap = false →
      (reported ↔ (now.sub? (.millis window)).isSome ∧ window - grace ≤ last * period)) ∧
    (start.isLeap →
      (reported ↔ ∃ first, now.sub? (.millis window) = some first ∧
        (window - grace : Int) * 1000000 ≤
          if first.isLeap then (last * period : Int) * 1000000
          else now.nanos - (start.second + 1) * nanosPerSecond)) := by
  intro grace reported
  have held : (tracker.recordAll readings).samples metric =
      tracker.settings.held (readingsOf metric readings) := by
    rw [samples_recordAll_eq_foldl, fresh]
    rfl
  have counts : reported ↔ ∃ first, now.sub? (.millis window) = some first ∧
      start.mark first ≤ first.nanos + grace * 1000000 := by
    unfold reported
    rw [isSustained, numeral, settings_recordAll, held,
      TrackerSettings.sustained_iff_covers fun sample mem =>
        breach sample ((tracker.settings.held_suffix _).subset mem)]
    exact TrackerSettings.exists_covers_iff_of_steady valid positive frequent young room steady
      arrived reached
  have onward := Instant.elapsed_of_add?_millis (Int.natCast_nonneg _) reached
  refine ⟨fun plain => counts.trans ?_, fun leap => counts.trans ?_⟩
  · rw [Option.isSome_iff_exists, ← exists_and_right]
    refine exists_congr fun first => and_congr_right fun begins => ?_
    have back := Instant.nanos_sub?_millis (Int.natCast_nonneg _) begins
    rw [Instant.elapsed_of_not_leap plain] at onward
    rw [Instant.mark_of_not_leap plain]
    omega
  · refine exists_congr fun first => and_congr_right fun begins => ?_
    have back := Instant.nanos_sub?_millis (Int.natCast_nonneg _) begins
    cases inside : first.isLeap with
    | false =>
        rw [Instant.mark, if_pos ⟨leap, inside⟩, if_neg Bool.false_ne_true]
        omega
    | true =>
        have together := (onward.2.2 (back.2 inside).1).2
        rw [Instant.elapsed, if_neg (by omega)] at onward
        rw [Instant.mark, if_neg (by simp [inside]), if_pos rfl]
        omega

def outage (start : Instant) (period count : Nat) : List (String × Sample) :=
  (List.range count).filterMap fun i =>
    (start.add? (.millis (i * period : Nat))).map fun instant => ("cpu", ⟨.ofInt 95, instant⟩)

def withinLeap : Instant := (Instant.of? 1483228799 1500000000).get (by decide)

theorem isSustained_iff_of_steady_of_outage :
    ((start { maxSamples := 6 }).recordAll (outage (.clamp 0) 60000 8)).isSustained "cpu"
        .greaterThan "90" (.millis (300000 : Nat)) (.clamp 420000000000) ∧
      ((start { maxSamples := 6 }).recordAll (outage withinLeap 60000 8)).isSustained "cpu"
        .greaterThan "90" (.millis (300000 : Nat)) (.clamp 1483229219500000000) := by
  have numeral : Number.parse? "90" = some (.ofInt 90) := by
    decide
  constructor
  · have steady : Steady (.clamp 0) 60000 (readingsOf "cpu" (outage (.clamp 0) 60000 8)) := by
      decide
    have reached : (Instant.clamp 0).add? (.millis (7 * 60000 : Nat)) =
        some (.clamp 420000000000) := by
      decide
    refine ((isSustained_iff_of_steady ?_ ?_ ?_ ?_ ?_ ?_ steady ?_ reached numeral ?_).1 ?_).mpr ?_
    all_goals decide
  · have steady : Steady withinLeap 60000 (readingsOf "cpu" (outage withinLeap 60000 8)) := by
      decide
    have reached : withinLeap.add? (.millis (7 * 60000 : Nat)) =
        some (.clamp 1483229219500000000) := by
      decide
    refine ((isSustained_iff_of_steady ?_ ?_ ?_ ?_ ?_ ?_ steady ?_ reached numeral ?_).2 ?_).mpr
      ⟨.clamp 1483228919500000000, ?_, ?_⟩
    all_goals decide

def beginning : Instant := .clamp (earliestSecond * nanosPerSecond)

/-- A steady breach that begins at an instant is reported exactly by the readings that come when all
of the window but its grace has passed. -/
def ReportedOnceCovered (start : Instant) : Prop :=
  ∀ (tracker : Tracker) (readings : List (String × Sample)) (metric : String) (operator : Operator)
    (threshold : String) (number : Number) (now : Instant) (period window last : Nat),
    tracker.settings.coverageGracePercent ≤ 100 → 0 < period →
    period ≤ tracker.settings.graceMillis window →
    (window : Int) * 1000000 ≤ tracker.settings.maxSampleAge.nanos →
    window / period + 1 ≤ tracker.settings.maxSamples.toNat →
    tracker.samples metric = [] →
    Steady start period (readingsOf metric readings) →
    (readingsOf metric readings).length = last + 1 →
    start.add? (.millis (last * period : Nat)) = some now →
    Number.parse? threshold = some number →
    (∀ sample ∈ readingsOf metric readings, operator.compare sample.value number) →
    ((tracker.recordAll readings).isSustained metric operator threshold (.millis window) now ↔
      window - tracker.settings.graceMillis window ≤ last * period)

/-- A leap second in which a breach begins delays the report, and a window that would begin before
the first instant prevents it. -/
theorem not_reportedOnceCovered :
    ¬ReportedOnceCovered withinLeap ∧
      ¬ReportedOnceCovered beginning := by
  constructor
  · intro reported
    have reported := reported (start {}) (outage withinLeap 60000 5) "cpu" .greaterThan "90"
      (.ofInt 90) (.clamp 1483229039500000000) 60000 300000 4 (by decide) (by decide) (by decide)
      (by decide) (by decide) (by decide) (by decide) (by decide) (by decide) (by decide)
      (by decide)
    revert reported
    decide +kernel
  · intro reported
    have reported := reported (start {}) (outage beginning 10000 5) "cpu" .greaterThan "90"
      (.ofInt 90) (.clamp ((earliestSecond + 40) * nanosPerSecond)) 10000 50000 4 (by decide)
      (by decide) (by decide) (by decide) (by decide) (by decide) (by decide) (by decide)
      (by decide) (by decide) (by decide)
    revert reported
    decide +kernel

end Tracker

end Alerting
