import Mathlib.Data.List.TakeWhile
import Alerting.Proofs.Tracker.Veto

/-!
# The age of what is remembered

When a reading arrives, the readings in front of the first one that is not too old for it are
dropped, and no others. So a reading that is too old can stay only behind one that is not, which
means that it has arrived late.
-/

namespace Alerting

namespace TrackerSettings

variable {settings : TrackerSettings}

theorem held_append_suffix (samples later : List Sample) :
    settings.held (samples ++ later) <:+ settings.held samples ++ later := by
  induction later using List.reverseRec with
  | nil => simp
  | append_singleton later latest ih =>
      rw [← List.append_assoc, held_append, ← List.append_assoc]
      exact (settings.remember_suffix ..).trans (List.suffix_append_self_iff.mpr ih)

theorem exists_retained_of_remember (held : List Sample) (sample : Sample) :
    ∃ first rest, settings.retains sample.timestamp first ∧
      first :: rest <:+ held ++ [sample] ∧
      settings.remember held sample <:+ first :: rest := by
  have filled : (held ++ [sample]).dropWhile
      (fun old => !settings.retains sample.timestamp old) ≠ [] := by
    rw [Ne, List.dropWhile_eq_nil_iff]
    intro stale
    simpa [retains_self] using stale sample (by simp)
  obtain ⟨first, rest, fresh⟩ := List.exists_cons_of_ne_nil filled
  refine ⟨first, rest, ?_, ?_, ?_⟩
  · have kept := List.head_dropWhile_not
      (fun old => !settings.retains sample.timestamp old) (l := held ++ [sample]) filled
    simpa [fresh] using kept
  · rw [← fresh]
    exact List.dropWhile_suffix _
  · rw [← fresh]
    exact List.drop_suffix ..

theorem retains_or_late_of_held {samples before after : List Sample} {sample latest : Sample}
    (arrived : samples = before ++ sample :: after)
    (remembered : sample :: after <:+ settings.held samples) (mem : latest ∈ samples) :
    settings.retains latest.timestamp sample ∨
      ∃ earlier ∈ before, settings.retains latest.timestamp earlier := by
  obtain ⟨front, later, parts⟩ := List.append_of_mem mem
  obtain ⟨first, rest, retained, known, left⟩ :=
    settings.exists_retained_of_remember (settings.held front) latest
  have split : samples = front ++ [latest] ++ later := by simp [parts]
  -- From the arrival of `latest` on, all that is remembered is `first` and what came after it.
  have stretch : sample :: after <:+ first :: (rest ++ later) := by
    have onward := settings.held_append_suffix (front ++ [latest]) later
    rw [← split, held_append] at onward
    exact remembered.trans (onward.trans (List.suffix_append_self_iff.mpr left))
  rcases List.suffix_cons_iff.mp stretch with same | behind
  · cases same
    exact .inl retained
  · right
    obtain ⟨between, hbetween⟩ := behind
    have whole : first :: (rest ++ later) <:+ samples := by
      rw [split, ← List.cons_append]
      apply List.suffix_append_self_iff.mpr
      exact known.trans (List.suffix_append_self_iff.mpr (settings.held_suffix front))
    obtain ⟨dropped, hdropped⟩ := whole
    have same : dropped ++ first :: between ++ sample :: after = before ++ sample :: after := by
      rw [← arrived, ← hdropped, ← hbetween]
      simp
    rw [← List.append_cancel_right same]
    exact ⟨first, by simp, retained⟩

end TrackerSettings

namespace Tracker

/-- Readings may arrive in any order of their times. However old one of them is that is still
remembered, it is no older than the greatest age, counted back from any reading that has arrived,
unless another one that is no older than that arrived before it. -/
theorem fresh_or_late_of_held {settings : TrackerSettings} {readings : List (String × Sample)}
    {metric : String} {before after : List Sample} {sample latest : Sample} {cutoff : Instant}
    (arrived : readingsOf metric readings = before ++ sample :: after)
    (remembered : sample :: after <:+ ((start settings).recordAll readings).samples metric)
    (mem : latest ∈ readingsOf metric readings)
    (reach : latest.timestamp.sub? settings.maxSampleAge = some cutoff) :
    cutoff ≤ sample.timestamp ∨ ∃ earlier ∈ before, cutoff ≤ earlier.timestamp := by
  rw [samples_recordAll] at remembered
  rcases TrackerSettings.retains_or_late_of_held arrived remembered mem with
    retained | ⟨earlier, early, retained⟩
  · exact .inl (TrackerSettings.retains_iff.mp retained cutoff reach)
  · exact .inr ⟨earlier, early, TrackerSettings.retains_iff.mp retained cutoff reach⟩

def straggler : Sample := ⟨.ofInt 95, .clamp 1777636800000000000⟩

def prompt : List Sample :=
  [⟨.ofInt 50, .clamp 1777637400000000000⟩, ⟨.ofInt 60, .clamp 1777637430000000000⟩]

def straggling : List (String × Sample) :=
  (prompt.take 1 ++ straggler :: prompt.drop 1).map fun sample => ("cpu", sample)

theorem fresh_or_late_of_straggler :
    Instant.clamp 1777637370000000000 ≤ straggler.timestamp ∨
      ∃ earlier ∈ prompt.take 1, Instant.clamp 1777637370000000000 ≤ earlier.timestamp := by
  have arrived : readingsOf "cpu" straggling = prompt.take 1 ++ straggler :: prompt.drop 1 := by
    decide
  have remembered : straggler :: prompt.drop 1 <:+
      ((start { maxSampleAgeSeconds := 60 }).recordAll straggling).samples "cpu" := by
    rw [samples_recordAll]
    decide +kernel
  have mem : prompt[1] ∈ readingsOf "cpu" straggling := by
    decide
  exact fresh_or_late_of_held arrived remembered mem (by decide)

/-- A reading that comes late stays behind one that is not too old, however old it is. -/
theorem not_forall_fresh_of_held :
    ¬∀ (settings : TrackerSettings) (readings : List (String × Sample)) (metric : String)
      (sample latest : Sample) (cutoff : Instant),
      settings.maxSamples ≠ 0 →
      latest ∈ readingsOf metric readings →
      (∀ other ∈ readingsOf metric readings, other.timestamp ≤ latest.timestamp) →
      latest.timestamp.sub? settings.maxSampleAge = some cutoff →
      sample ∈ ((start settings).recordAll readings).samples metric →
        cutoff ≤ sample.timestamp := by
  intro fresh
  have fresh := fresh { maxSampleAgeSeconds := 60 } straggling "cpu" straggler prompt[1]
    (.clamp 1777637370000000000) (by decide) (by decide) (by decide) (by decide)
    (by rw [samples_recordAll]; decide +kernel)
  revert fresh
  decide

end Tracker

end Alerting
