import Mathlib.Data.List.Induction
import Alerting.Proofs.Entries
import Alerting.Tracker

/-!
# What a tracker remembers

Readings of many metrics are recorded one after another. The buffer of a metric depends on the
readings of that metric alone, and it is always a final stretch of them: readings are only ever
dropped from its front.
-/

namespace Alerting

def readingsOf (metric : String) (readings : List (String × Sample)) : List Sample :=
  (readings.filter fun reading => reading.1 == metric).map Prod.snd

def InOrder (samples : List Sample) : Prop :=
  samples.Pairwise fun first second => first.timestamp ≤ second.timestamp

instance (samples : List Sample) : Decidable (InOrder samples) :=
  inferInstanceAs (Decidable (samples.Pairwise _))

namespace TrackerSettings

def remember (settings : TrackerSettings) (held : List Sample) (sample : Sample) : List Sample :=
  let fresh := (held ++ [sample]).dropWhile fun old => !settings.retains sample.timestamp old
  fresh.drop (fresh.length - settings.maxSamples.toNat)

def held (settings : TrackerSettings) (samples : List Sample) : List Sample :=
  samples.foldl settings.remember []

end TrackerSettings

namespace Tracker

def recordAll (tracker : Tracker) (readings : List (String × Sample)) : Tracker :=
  readings.foldl (fun tracker reading => tracker.record reading.1 reading.2) tracker

end Tracker

/-! ## One reading -/

namespace Tracker

theorem samples_record_self (tracker : Tracker) (metric : String) (sample : Sample) :
    (tracker.record metric sample).samples metric =
      tracker.settings.remember (tracker.samples metric) sample := by
  simp only [samples, buffer, record, List.lookup_cons_self, Option.getD_some]
  exact TrackerSettings.toList_push ..

theorem buffer_record_ne (tracker : Tracker) {metric other : String} (ne : other ≠ metric)
    (sample : Sample) : (tracker.record metric sample).buffer other = tracker.buffer other := by
  have apart : (other == metric) = false := by simpa using ne
  simp only [buffer, record, List.lookup_cons, apart]
  rw [lookup_filter (fun name => name != metric) (by simpa using ne)]

theorem samples_record_ne (tracker : Tracker) {metric other : String} (ne : other ≠ metric)
    (sample : Sample) :
    (tracker.record metric sample).samples other = tracker.samples other := by
  rw [samples, buffer_record_ne tracker ne, samples]

@[simp] theorem settings_record (tracker : Tracker) (metric : String) (sample : Sample) :
    (tracker.record metric sample).settings = tracker.settings := rfl

/-! ## All readings -/

theorem samples_recordAll_eq_foldl (tracker : Tracker) (readings : List (String × Sample))
    (metric : String) :
    (tracker.recordAll readings).samples metric =
      (readingsOf metric readings).foldl tracker.settings.remember (tracker.samples metric) := by
  induction readings generalizing tracker with
  | nil => rfl
  | cons reading readings ih =>
      obtain ⟨name, sample⟩ := reading
      rw [recordAll, List.foldl_cons]
      refine (ih (tracker.record name sample)).trans ?_
      rw [settings_record]
      by_cases same : name = metric
      · subst same
        rw [samples_record_self]
        simp [readingsOf]
      · rw [samples_record_ne _ (Ne.symm same)]
        simp [readingsOf, same]

/-- The buffer of a metric depends on the readings of that metric alone. -/
theorem samples_recordAll (settings : TrackerSettings) (readings : List (String × Sample))
    (metric : String) :
    ((start settings).recordAll readings).samples metric =
      settings.held (readingsOf metric readings) :=
  samples_recordAll_eq_foldl (start settings) readings metric

@[simp] theorem settings_recordAll (tracker : Tracker) (readings : List (String × Sample)) :
    (tracker.recordAll readings).settings = tracker.settings := by
  induction readings generalizing tracker with
  | nil => rfl
  | cons reading readings ih => exact ih (tracker.record reading.1 reading.2)

theorem recordAll_append (tracker : Tracker) (readings others : List (String × Sample)) :
    tracker.recordAll (readings ++ others) = (tracker.recordAll readings).recordAll others :=
  List.foldl_append

end Tracker

/-! ## A final stretch of the readings -/

namespace TrackerSettings

theorem held_append (settings : TrackerSettings) (samples : List Sample) (sample : Sample) :
    settings.held (samples ++ [sample]) = settings.remember (settings.held samples) sample := by
  simp [held]

theorem remember_suffix (settings : TrackerSettings) (held : List Sample) (sample : Sample) :
    settings.remember held sample <:+ held ++ [sample] :=
  (List.drop_suffix ..).trans (List.dropWhile_suffix _)

theorem held_suffix (settings : TrackerSettings) (samples : List Sample) :
    settings.held samples <:+ samples := by
  induction samples using List.reverseRec with
  | nil => exact List.suffix_rfl
  | append_singleton samples sample ih =>
      rw [held_append]
      exact (settings.remember_suffix ..).trans (List.suffix_append_self_iff.mpr ih)

end TrackerSettings

end Alerting
