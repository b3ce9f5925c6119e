import Alerting.Proofs.Time
import Alerting.Proofs.Tracker.Buffer

/-!
# Dropped readings

Readings are dropped for their age and for want of room. None is dropped of a stretch of time that
no arrival reaches beyond and whose readings fit the room. What a list loses at its front is told
by filters, since a window is a filter as well.
-/

namespace Alerting

/-! ## Dropping from the front of a list -/

private theorem filter_dropWhile {A : Type} {kept dropped : A → Bool} {list : List A}
    (apart : ∀ value ∈ list, kept value → dropped value = false) :
    (list.dropWhile dropped).filter kept = list.filter kept := by
  induction list with
  | nil => rfl
  | cons value list ih =>
      by_cases h : dropped value
      · have out : ¬kept value := fun isKept => by
          simp [apart value List.mem_cons_self isKept] at h
        rw [List.dropWhile_cons_of_pos h, List.filter_cons_of_neg out]
        exact ih fun other mem => apart other (List.mem_cons_of_mem _ mem)
      · rw [List.dropWhile_cons_of_neg h]

private theorem filter_drop_of_fits {A : Type} {kept : A → Bool} {list : List A} {room : Nat}
    (atEnd : list.Pairwise fun first second => kept first → kept second)
    (fits : (list.filter kept).length ≤ room) :
    (list.drop (list.length - room)).filter kept = list.filter kept := by
  have parts := List.take_append_drop (list.length - room) list
  have out : (list.take (list.length - room)).filter kept = [] := by
    rw [List.filter_eq_nil_iff]
    intro value mem isKept
    rw [← parts] at atEnd
    have after : ∀ later ∈ list.drop (list.length - room), kept later := fun later hlater =>
      (List.pairwise_append.mp atEnd).2.2 value mem later hlater isKept
    have split := congrArg List.length (congrArg (List.filter kept) parts)
    rw [List.filter_append, List.length_append, List.filter_eq_self.mpr after,
      List.length_drop] at split
    have one : 0 < ((list.take (list.length - room)).filter kept).length :=
      List.length_pos_of_mem (List.mem_filter.mpr ⟨mem, isKept⟩)
    have long : 0 < (list.take (list.length - room)).length := List.length_pos_of_mem mem
    rw [List.length_take] at long
    omega
  conv => rhs; rw [← parts, List.filter_append, out, List.nil_append]

/-! ## Readings of a window stay -/

theorem InOrder.sublist {samples others : List Sample} (inOrder : InOrder samples)
    (sub : others.Sublist samples) : InOrder others :=
  List.Pairwise.sublist sub inOrder

theorem InOrder.readingsOf {readings : List (String × Sample)}
    (inOrder : InOrder (readings.map Prod.snd)) (metric : String) :
    InOrder (readingsOf metric readings) :=
  inOrder.sublist (List.filter_sublist.map _)

theorem InOrder.le_of_getLast? {samples : List Sample} {now : Instant} (inOrder : InOrder samples)
    (latest : ∀ last ∈ samples.getLast?, last.timestamp ≤ now) :
    ∀ sample ∈ samples, sample.timestamp ≤ now := by
  induction samples using List.reverseRec with
  | nil => simp
  | append_singleton samples last _ =>
      have final : last.timestamp ≤ now := latest last (by simp)
      intro sample mem
      rcases List.mem_append.mp mem with old | new
      · have before := (List.pairwise_append.mp inOrder).2.2 sample old last (by simp)
        exact Std.le_trans before final
      · rw [List.mem_singleton.mp new]
        exact final

def Sample.since (start : Instant) (sample : Sample) : Bool := start ≤ sample.timestamp

theorem Sample.since_iff {start : Instant} {sample : Sample} :
    Sample.since start sample ↔ start ≤ sample.timestamp :=
  decide_eq_true_iff

namespace TrackerSettings

variable {settings : TrackerSettings}

theorem retains_iff {now : Instant} {sample : Sample} :
    settings.retains now sample ↔
      ∀ cutoff, now.sub? settings.maxSampleAge = some cutoff → cutoff ≤ sample.timestamp := by
  unfold retains
  split
  · rename_i cutoff h
    simp [h]
  · rename_i h
    simp [h]

theorem filter_remember {held : List Sample} {sample : Sample} {start : Instant}
    (inOrder : InOrder (held ++ [sample]))
    (fits : ((held ++ [sample]).filter (Sample.since start)).length ≤ settings.maxSamples.toNat)
    (reach : ∀ cutoff, sample.timestamp.sub? settings.maxSampleAge = some cutoff →
      cutoff ≤ start) :
    (settings.remember held sample).filter (Sample.since start) =
      (held ++ [sample]).filter (Sample.since start) := by
  have retained : ∀ old ∈ held ++ [sample], Sample.since start old →
      (!settings.retains sample.timestamp old) = false := by
    intro old _ late
    rw [Bool.not_eq_false', retains_iff]
    intro cutoff hcutoff
    exact Std.le_trans (reach cutoff hcutoff) (Sample.since_iff.mp late)
  have atEnd : (held ++ [sample]).Pairwise fun first second =>
      Sample.since start first → Sample.since start second := by
    refine inOrder.imp fun le late => ?_
    rw [Sample.since_iff] at late ⊢
    exact Std.le_trans late le
  have fresh := filter_dropWhile retained
  unfold remember
  rw [filter_drop_of_fits, fresh]
  · exact atEnd.sublist (List.dropWhile_sublist _)
  · rw [fresh]
    exact fits

/-- Nothing of a window is dropped if it fits the room and reaches back no farther than what any
arrival leaves. -/
theorem filter_held {samples : List Sample} {start : Instant} (inOrder : InOrder samples)
    (fits : (samples.filter (Sample.since start)).length ≤ settings.maxSamples.toNat)
    (reach : ∀ sample ∈ samples, ∀ cutoff,
      sample.timestamp.sub? settings.maxSampleAge = some cutoff → cutoff ≤ start) :
    (settings.held samples).filter (Sample.since start) =
      samples.filter (Sample.since start) := by
  induction samples using List.reverseRec with
  | nil => rfl
  | append_singleton samples sample ih =>
      have sub : (settings.held samples ++ [sample]).Sublist (samples ++ [sample]) :=
        (settings.held_suffix samples).sublist.append_right [sample]
      have before : samples.Sublist (samples ++ [sample]) := List.sublist_append_left ..
      have ih := ih (inOrder.sublist before) (Nat.le_trans (before.filter _).length_le fits)
        fun old mem => reach old (List.mem_append_left _ mem)
      rw [held_append, filter_remember (inOrder.sublist sub)
        (Nat.le_trans (sub.filter _).length_le fits) (reach sample (by simp)),
        List.filter_append, ih, ← List.filter_append]

end TrackerSettings

end Alerting
