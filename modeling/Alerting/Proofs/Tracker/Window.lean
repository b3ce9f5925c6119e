import Alerting.Proofs.Tracker.Eviction

/-!
# Windows of readings

A window that is no longer than the greatest age, and that holds no more readings than there is room
for, is judged as if nothing had ever been dropped. A window that does not fit can be judged without
some of its readings, but only without those up to its deadline.
-/

namespace Alerting

namespace TrackerSettings

variable {settings : TrackerSettings}

/-- Whether a comparison with a numeral holds throughout a window of given readings. -/
def judges (settings : TrackerSettings) (samples : List Sample) (operator : Operator)
    (threshold : String) (window : Span) (now : Instant) : Bool :=
  (Number.parse? threshold).any fun threshold =>
    settings.sustained samples operator threshold window now

theorem sustained_congr {samples others : List Sample} {operator : Operator} {threshold : Number}
    {window : Span} {now : Instant}
    (same : ∀ start, now.sub? window = some start →
      samples.filter (Sample.since start) = others.filter (Sample.since start)) :
    settings.sustained samples operator threshold window now =
      settings.sustained others operator threshold window now := by
  unfold sustained
  cases hstart : now.sub? window with
  | none => rfl
  | some start =>
      have inside (list : List Sample) :
          (list.filter fun sample => start ≤ sample.timestamp && sample.timestamp ≤ now) =
            (list.filter (Sample.since start)).filter fun sample => sample.timestamp ≤ now := by
        rw [List.filter_filter]
        exact List.filter_congr fun sample _ => Bool.and_comm ..
      simp only [inside, same start hstart]

theorem sustained_iff {samples : List Sample} {operator : Operator} {threshold : Number}
    {window : Span} {now : Instant} :
    settings.sustained samples operator threshold window now ↔
      ∃ start, now.sub? window = some start ∧
        (∃ sample ∈ samples, start ≤ sample.timestamp ∧ sample.timestamp ≤ now ∧
          sample.timestamp ≤ settings.deadline window start now) ∧
        ∀ sample ∈ samples, start ≤ sample.timestamp → sample.timestamp ≤ now →
          operator.compare sample.value threshold := by
  unfold sustained
  cases hstart : now.sub? window with
  | none => simp
  | some start =>
      simp only [Option.some.injEq, exists_eq_left', Bool.and_eq_true, List.any_eq_true,
        List.all_eq_true, List.mem_filter, decide_eq_true_eq, and_assoc, and_imp]

end TrackerSettings

namespace Tracker

theorem isSustained_eq (tracker : Tracker) (metric : String) (operator : Operator)
    (threshold : String) (window : Span) (now : Instant) :
    tracker.isSustained metric operator threshold window now =
      tracker.settings.judges (tracker.samples metric) operator threshold window now := by
  unfold isSustained TrackerSettings.judges
  cases Number.parse? threshold <;> rfl

theorem isSustained_recordAll (settings : TrackerSettings) (readings : List (String × Sample))
    (metric : String) (operator : Operator) (threshold : String) (window : Span) (now : Instant) :
    ((start settings).recordAll readings).isSustained metric operator threshold window now =
      settings.judges (settings.held (readingsOf metric readings)) operator threshold window now := by
  rw [isSustained_eq, samples_recordAll, settings_recordAll]
  rfl

/-- Nothing that is dropped matters to a window that fits the limits. A leap second is the one
exception: a reading in it reaches back from the second after it. -/
theorem isSustained_eq_judges {settings : TrackerSettings} {readings : List (String × Sample)}
    {metric : String} {operator : Operator} {threshold : String} {window : Span} {now : Instant}
    (inOrder : InOrder (readingsOf metric readings))
    (latest : ∀ last ∈ (readingsOf metric readings).getLast?, last.timestamp ≤ now)
    (apart : ∀ sample ∈ readingsOf metric readings, sample.timestamp.isLeap →
      sample.timestamp.nanos ≤ now.nanos)
    (forward : Span.zero ≤ window) (shorter : window ≤ settings.maxSampleAge)
    (fits : ∀ start, now.sub? window = some start →
      ((readingsOf metric readings).filter fun sample =>
        start ≤ sample.timestamp ∧ sample.timestamp ≤ now).length ≤
          settings.maxSamples.toNat) :
    ((start settings).recordAll readings).isSustained metric operator threshold window now =
      settings.judges (readingsOf metric readings) operator threshold window now := by
  have past := inOrder.le_of_getLast? latest
  rw [isSustained_recordAll]
  unfold TrackerSettings.judges
  congr 1
  funext threshold
  apply TrackerSettings.sustained_congr
  intro start hstart
  apply TrackerSettings.filter_held inOrder
  · refine Nat.le_trans (Nat.le_of_eq ?_) (fits start hstart)
    congr 1
    refine List.filter_congr fun sample mem => ?_
    simp [Sample.since, past sample mem]
  · intro sample mem cutoff hcutoff
    exact Instant.sub?_le_sub? forward shorter (past sample mem) (apart sample mem) hcutoff hstart

def burst : List (String × Sample) :=
  [("cpu", ⟨.ofInt 50, .clamp 1777636800000000000⟩),
   ("disk", ⟨.ofInt 7, .clamp 1777636805000000000⟩),
   ("cpu", ⟨.ofInt 95, .clamp 1777636810000000000⟩),
   ("cpu", ⟨.ofInt 95, .clamp 1777636860000000000⟩)]

theorem isSustained_eq_judges_of_burst :
    ((start { maxSamples := 2 }).recordAll burst).isSustained "cpu" .greaterThan "90"
        (.seconds 50) (.clamp 1777636860000000000) =
      TrackerSettings.judges { maxSamples := 2 } (readingsOf "cpu" burst) .greaterThan "90"
        (.seconds 50) (.clamp 1777636860000000000) := by
  apply isSustained_eq_judges
  · decide
  · decide
  · decide
  · decide
  · decide
  · change ∀ start ∈ Instant.sub? _ _, _
    decide

def leapBurst : List (String × Sample) :=
  [("cpu", ⟨.ofInt 50, .clamp 1483227000200000000⟩),
   ("cpu", ⟨.ofInt 95, .clamp 1483227001000000000⟩),
   ("cpu", ⟨.ofInt 95,
     ⟨1483228799, 1500000000, by decide, by decide, by decide, by decide⟩⟩)]

theorem not_forall_isSustained_eq_judges :
    ¬∀ (settings : TrackerSettings) (readings : List (String × Sample)) (metric : String)
      (operator : Operator) (threshold : String) (window : Span) (now : Instant),
      settings.maxSamples ≠ 0 →
      (∀ metric, InOrder (readingsOf metric readings)) →
      (∀ last ∈ (readingsOf metric readings).getLast?, last.timestamp ≤ now) →
      Span.zero ≤ window → window ≤ settings.maxSampleAge →
      (∀ start, now.sub? window = some start →
        ((readingsOf metric readings).filter fun sample =>
          start ≤ sample.timestamp ∧ sample.timestamp ≤ now).length ≤
            settings.maxSamples.toNat) →
      ((start settings).recordAll readings).isSustained metric operator threshold window now =
        settings.judges (readingsOf metric readings) operator threshold window now := by
  intro agrees
  have agrees := agrees {} leapBurst "cpu" .greaterThan "90" (.seconds 1800)
    (.clamp 1483228800000000000) (by decide)
    (fun metric => InOrder.readingsOf (by decide) metric) (by decide) (by decide) (by decide)
    (by change ∀ start ∈ Instant.sub? _ _, _; decide)
  rw [isSustained_recordAll] at agrees
  revert agrees
  decide +kernel

/-! ## Windows that do not fit -/

/-- A reading that breaks a window which is judged to be sustained has been dropped, came before
the readings that have not, and lies in the part of the window that readings need not cover. -/
theorem compare_or_dropped_of_isSustained {settings : TrackerSettings}
    {readings : List (String × Sample)} {metric : String} {operator : Operator}
    {threshold : String} {window : Span} {now : Instant}
    (inOrder : InOrder (readingsOf metric readings))
    (sustained :
      ((start settings).recordAll readings).isSustained metric operator threshold window now) :
    ∃ number first, Number.parse? threshold = some number ∧ now.sub? window = some first ∧
      (∃ kept ∈ ((start settings).recordAll readings).samples metric,
        first ≤ kept.timestamp ∧ kept.timestamp ≤ now ∧
          kept.timestamp ≤ settings.deadline window first now) ∧
      ∀ sample ∈ readingsOf metric readings,
        first ≤ sample.timestamp → sample.timestamp ≤ now →
          operator.compare sample.value number ∨
            sample ∉ ((start settings).recordAll readings).samples metric ∧
            (∀ kept ∈ ((start settings).recordAll readings).samples metric,
              sample.timestamp ≤ kept.timestamp) ∧
            sample.timestamp ≤ settings.deadline window first now := by
  rw [isSustained_recordAll, TrackerSettings.judges, Option.any_eq_true] at sustained
  obtain ⟨number, hnumber, sustained⟩ := sustained
  obtain ⟨first, hfirst, ⟨kept, hkept, late, past, early⟩, holds⟩ :=
    TrackerSettings.sustained_iff.mp sustained
  rw [samples_recordAll]
  refine ⟨number, first, hnumber, hfirst, ⟨kept, hkept, late, past, early⟩, ?_⟩
  intro sample mem hlate hpast
  by_cases held : sample ∈ settings.held (readingsOf metric readings)
  · left
    exact holds sample held hlate hpast
  · right
    obtain ⟨dropped, parts⟩ := settings.held_suffix (readingsOf metric readings)
    rw [← parts] at inOrder mem
    have gone := (List.mem_append.mp mem).resolve_right held
    have before := (List.pairwise_append.mp inOrder).2.2 sample gone
    exact ⟨held, before, Std.le_trans (before kept hkept) early⟩

theorem compare_or_dropped_of_burst :
    ∃ number first, Number.parse? "90" = some number ∧
      Instant.sub? (.clamp 1777636860000000000) (.seconds 60) = some first ∧
      (∃ kept ∈ ((start { maxSamples := 2 }).recordAll burst).samples "cpu",
        first ≤ kept.timestamp ∧ kept.timestamp ≤ .clamp 1777636860000000000 ∧
          kept.timestamp ≤ TrackerSettings.deadline { maxSamples := 2 } (.seconds 60) first
            (.clamp 1777636860000000000)) ∧
      ∀ sample ∈ readingsOf "cpu" burst,
        first ≤ sample.timestamp → sample.timestamp ≤ .clamp 1777636860000000000 →
          Operator.greaterThan.compare sample.value number ∨
            sample ∉ ((start { maxSamples := 2 }).recordAll burst).samples "cpu" ∧
            (∀ kept ∈ ((start { maxSamples := 2 }).recordAll burst).samples "cpu",
              sample.timestamp ≤ kept.timestamp) ∧
            sample.timestamp ≤ TrackerSettings.deadline { maxSamples := 2 } (.seconds 60) first
              (.clamp 1777636860000000000) := by
  apply compare_or_dropped_of_isSustained
  · decide
  · rw [isSustained_recordAll]
    decide +kernel

theorem not_forall_compare_of_isSustained :
    ¬∀ (settings : TrackerSettings) (readings : List (String × Sample)) (metric : String)
      (operator : Operator) (threshold : String) (window : Span) (now : Instant)
      (number : Number) (first : Instant),
      settings.defect? = none →
      (∀ metric, InOrder (readingsOf metric readings)) →
      (∀ last ∈ (readingsOf metric readings).getLast?, last.timestamp ≤ now) →
      Span.zero ≤ window → Number.parse? threshold = some number →
      now.sub? window = some first →
      ((start settings).recordAll readings).isSustained metric operator threshold window now →
      ∀ sample ∈ readingsOf metric readings,
        first ≤ sample.timestamp → sample.timestamp ≤ now →
          operator.compare sample.value number := by
  intro complete
  have complete := complete { maxSamples := 2 } burst "cpu" .greaterThan "90" (.seconds 60)
    (.clamp 1777636860000000000) (.ofInt 90) (.clamp 1777636800000000000) (by decide)
    (fun metric => InOrder.readingsOf (by decide) metric) (by decide) (by decide) (by decide)
    (by decide) (by rw [isSustained_recordAll]; decide +kernel)
  revert complete
  decide

end Tracker

end Alerting
