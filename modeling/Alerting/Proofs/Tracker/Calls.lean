import Mathlib.Data.List.DropRight
import Alerting.Proofs.Tracker.Veto

/-!
# What a tracker holds after any calls

Readings are recorded, and from time to time everything is dropped. The buffer of a metric is at
every moment what is kept of the readings of that metric since then: a final stretch of them, no
longer than there is room for, that ends with the latest one.
-/

namespace Alerting

inductive TrackerCall where
  | record (metric : String) (sample : Sample)
  | clear

namespace TrackerCall

def isClear : TrackerCall → Bool
  | record _ _ => false
  | clear => true

def readingFor (metric : String) : TrackerCall → Option Sample
  | record name sample => if name = metric then some sample else none
  | clear => none

end TrackerCall

def arrivedSince (metric : String) (calls : List TrackerCall) : List Sample :=
  (calls.rtakeWhile fun call => !call.isClear).filterMap (TrackerCall.readingFor metric)

namespace Tracker

def answer (tracker : Tracker) : TrackerCall → Tracker
  | .record metric sample => tracker.record metric sample
  | .clear => tracker.clear

def answerAll (tracker : Tracker) (calls : List TrackerCall) : Tracker :=
  calls.foldl answer tracker

end Tracker

/-! ## One more call -/

section

variable {metric other : String} {calls : List TrackerCall} {sample : Sample}

theorem arrivedSince_clear : arrivedSince metric (calls ++ [.clear]) = [] := by
  rw [arrivedSince, List.rtakeWhile_concat_neg _ _ _ (by simp [TrackerCall.isClear]),
    List.filterMap_nil]

theorem arrivedSince_record_self :
    arrivedSince metric (calls ++ [.record metric sample]) =
      arrivedSince metric calls ++ [sample] := by
  rw [arrivedSince, List.rtakeWhile_concat_pos _ _ _ rfl, List.filterMap_append, arrivedSince]
  simp [TrackerCall.readingFor]

theorem arrivedSince_record_ne (ne : metric ≠ other) :
    arrivedSince metric (calls ++ [.record other sample]) = arrivedSince metric calls := by
  rw [arrivedSince, List.rtakeWhile_concat_pos _ _ _ rfl, List.filterMap_append, arrivedSince]
  simp [TrackerCall.readingFor, ne.symm]

end

namespace Tracker

theorem answerAll_concat (tracker : Tracker) (calls : List TrackerCall) (call : TrackerCall) :
    tracker.answerAll (calls ++ [call]) = (tracker.answerAll calls).answer call := by
  simp [answerAll]

@[simp] theorem settings_answerAll (tracker : Tracker) (calls : List TrackerCall) :
    (tracker.answerAll calls).settings = tracker.settings := by
  induction calls using List.reverseRec with
  | nil => rfl
  | append_singleton calls call ih =>
      rw [answerAll_concat, ← ih]
      cases call <;> rfl

theorem samples_answerAll (settings : TrackerSettings) (calls : List TrackerCall)
    (metric : String) :
    ((start settings).answerAll calls).samples metric =
      settings.held (arrivedSince metric calls) := by
  induction calls using List.reverseRec with
  | nil => rfl
  | append_singleton calls call ih =>
      rw [answerAll_concat]
      cases call with
      | clear =>
          rw [arrivedSince_clear]
          rfl
      | record name sample =>
          by_cases same : metric = name
          · subst same
            rw [arrivedSince_record_self, TrackerSettings.held_append, ← ih]
            refine (samples_record_self ..).trans ?_
            rw [settings_answerAll]
            rfl
          · rw [arrivedSince_record_ne same, ← ih]
            exact samples_record_ne _ same sample

end Tracker

/-! ## What is kept -/

namespace TrackerSettings

variable {settings : TrackerSettings}

theorem length_remember_le (held : List Sample) (sample : Sample) :
    (settings.remember held sample).length ≤ settings.maxSamples.toNat := by
  rw [remember, List.length_drop]
  omega

theorem length_held_le (samples : List Sample) :
    (settings.held samples).length ≤ settings.maxSamples.toNat := by
  induction samples using List.reverseRec with
  | nil => exact Nat.zero_le _
  | append_singleton samples sample _ =>
      rw [held_append]
      exact length_remember_le ..

theorem getLast?_held (room : settings.maxSamples ≠ 0) (samples : List Sample) :
    (settings.held samples).getLast? = samples.getLast? := by
  induction samples using List.reverseRec with
  | nil => rfl
  | append_singleton samples sample _ =>
      obtain ⟨others, kept⟩ := exists_remember_eq room (settings.held samples) sample
      rw [held_append, kept, List.getLast?_concat, List.getLast?_concat]

end TrackerSettings

namespace Tracker

/-- After any calls, the buffer of a metric is a final stretch of its readings since everything was
dropped last, as long as there is room for at most, and the latest one is in it whenever there is
room for any. Readings of other metrics leave it as it is. -/
theorem buffer_of_calls (settings : TrackerSettings) (calls : List TrackerCall)
    (metric : String) :
    let tracker := (start settings).answerAll calls
    tracker.samples metric <:+ arrivedSince metric calls ∧
      (tracker.buffer metric).size = (tracker.samples metric).length ∧
      (tracker.samples metric).length ≤ settings.maxSamples.toNat ∧
      (settings.maxSamples ≠ 0 →
        (tracker.samples metric).getLast? = (arrivedSince metric calls).getLast?) ∧
      ∀ other sample, metric ≠ other →
        (tracker.record other sample).buffer metric = tracker.buffer metric := by
  intro tracker
  have kept : tracker.samples metric = settings.held (arrivedSince metric calls) :=
    samples_answerAll settings calls metric
  refine ⟨?_, (Queue.length_toList _).symm, ?_, ?_, ?_⟩
  · rw [kept]
    exact settings.held_suffix _
  · rw [kept]
    exact TrackerSettings.length_held_le _
  · intro room
    rw [kept]
    exact TrackerSettings.getLast?_held room _
  · intro other sample apart
    exact buffer_record_ne tracker apart sample

def clearing : List TrackerCall :=
  [.record "cpu" ⟨.ofInt 50, .clamp 5000000000⟩, .record "disk" ⟨.ofInt 7, .clamp 6000000000⟩,
   .clear, .record "cpu" ⟨.ofInt 60, .clamp 9000000000⟩,
   .record "cpu" ⟨.ofInt 70, .clamp 3000000000⟩, .record "disk" ⟨.ofInt 8, .clamp 1000000000⟩,
   .record "cpu" ⟨.ofInt 80, .clamp 4000000000⟩]

theorem buffer_of_calls_of_clearing :
    let tracker := (start { maxSamples := 2 }).answerAll clearing
    tracker.samples "cpu" <:+
        [⟨.ofInt 60, .clamp 9000000000⟩, ⟨.ofInt 70, .clamp 3000000000⟩,
         ⟨.ofInt 80, .clamp 4000000000⟩] ∧
      (tracker.samples "cpu").length ≤ 2 ∧
      (tracker.samples "cpu").getLast? = some ⟨.ofInt 80, .clamp 4000000000⟩ ∧
      (tracker.record "disk" ⟨.nan, .clamp 0⟩).buffer "cpu" = tracker.buffer "cpu" := by
  intro tracker
  have arrived : arrivedSince "cpu" clearing =
      [⟨.ofInt 60, .clamp 9000000000⟩, ⟨.ofInt 70, .clamp 3000000000⟩,
       ⟨.ofInt 80, .clamp 4000000000⟩] := by
    decide
  obtain ⟨suffix, -, bounded, latest, others⟩ :=
    buffer_of_calls { maxSamples := 2 } clearing "cpu"
  rw [arrived] at suffix latest
  exact ⟨suffix, bounded, latest (by decide), others "disk" _ (by decide)⟩

end Tracker

end Alerting
