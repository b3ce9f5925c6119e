import Alerting.Time.Instant

/-!
# Instants in order

Instants are ordered by their second and their place in it, so that a leap second stands between
its second and the next one. Going back by a span keeps this order only up to leap seconds: from
within one, the way back is counted as if it began up to a second later. For the same reason the
spans between instants add up only to within a second.
-/

namespace Alerting

theorem Span.sub?_eq_some {left right rest : Span} (h : left.sub? right = some rest) :
    rest.nanos = left.nanos - right.nanos := by
  simp only [sub?, Option.dite_none_right_eq_some] at h
  obtain ⟨_, h⟩ := h
  cases h
  rfl

namespace Instant

/-! ## The order of instants -/

theorem lt_iff {left right : Instant} :
    left < right ↔
      left.second < right.second ∨ left.second = right.second ∧ left.nano < right.nano :=
  Iff.rfl

theorem le_iff {left right : Instant} :
    left ≤ right ↔
      left.second < right.second ∨ left.second = right.second ∧ left.nano ≤ right.nano :=
  Iff.rfl

instance : Std.IsLinearOrder Instant where
  le_refl instant := by
    rw [le_iff]
    omega
  le_trans first second third h₁ h₂ := by
    rw [le_iff] at *
    omega
  le_antisymm left right h₁ h₂ := by
    rw [le_iff] at *
    obtain ⟨leftSecond, leftNano, _, _, _, _⟩ := left
    obtain ⟨rightSecond, rightNano, _, _, _, _⟩ := right
    simp only [mk.injEq] at *
    omega
  le_total left right := by
    rw [le_iff, le_iff]
    omega

instance : Std.LawfulOrderLT Instant where
  lt_iff left right := by
    rw [lt_iff, le_iff, le_iff]
    omega

theorem isLeap_iff {instant : Instant} : instant.isLeap ↔ nanosPerSecond ≤ instant.nano :=
  decide_eq_true_iff

/-! ## Going back -/

theorem of?_self (instant : Instant) : of? instant.second instant.nano = some instant :=
  dif_pos ⟨⟨instant.lower, instant.upper⟩, instant.nano_nonneg, instant.nano_lt⟩

theorem of?_eq_some {second nano : Int} {instant : Instant} (h : of? second nano = some instant) :
    instant.second = second ∧ instant.nano = nano := by
  unfold of? at h
  split at h
  · cases h
    exact ⟨rfl, rfl⟩
  · contradiction

theorem ofNanos?_eq_some {nanos : Int} {instant : Instant} (h : ofNanos? nanos = some instant) :
    instant.nanos = nanos ∧ instant.nano < nanosPerSecond := by
  obtain ⟨second, nano⟩ := of?_eq_some h
  unfold Instant.nanos
  unfold nanosPerSecond at *
  omega

theorem ofNanos?_nanos {instant : Instant} (plain : instant.nano < nanosPerSecond) :
    ofNanos? instant.nanos = some instant := by
  have := instant.nano_nonneg
  have second : instant.nanos / nanosPerSecond = instant.second := by
    unfold nanos nanosPerSecond at *
    omega
  have nano : instant.nanos % nanosPerSecond = instant.nano := by
    unfold nanos nanosPerSecond at *
    omega
  rw [ofNanos?, second, nano, of?_self]

@[simp] theorem move?_zero (instant : Instant) : instant.move? 0 = some instant := by
  have := instant.nano_lt
  simp only [move?, isLeap_iff, Int.add_zero]
  split
  · rw [if_pos (by unfold nanosPerSecond at *; omega), of?_self]
  · rw [ofNanos?_nanos (by unfold nanosPerSecond at *; omega)]

theorem sub?_eq_some {instant result : Instant} {span : Span} (forward : 0 ≤ span.nanos)
    (h : instant.sub? span = some result) :
    if instant.isLeap ∧ span.nanos < nanosPerSecond then
      result.second = instant.second ∧ result.nano = instant.nano - span.nanos
    else result.nanos = instant.nanos - span.nanos ∧ result.nano < nanosPerSecond := by
  have bound := instant.nano_lt
  simp only [sub?, move?, isLeap_iff] at h ⊢
  unfold nanosPerSecond at *
  by_cases leap : 1000000000 ≤ instant.nano ∧ span.nanos < 1000000000
  · rw [if_pos (by omega), if_pos (by omega)] at h
    rw [if_pos leap]
    have := of?_eq_some h
    omega
  · rw [if_neg (by omega)] at h
    rw [if_neg leap]
    have := ofNanos?_eq_some h
    unfold nanosPerSecond at this
    omega

theorem sub?_le_sub? {earlier later cutoff start : Instant} {age window : Span}
    (forward : 0 ≤ window.nanos) (shorter : window ≤ age) (ordered : earlier ≤ later)
    (apart : earlier.isLeap → earlier.nanos ≤ later.nanos)
    (hcutoff : earlier.sub? age = some cutoff) (hstart : later.sub? window = some start) :
    cutoff ≤ start := by
  have shorter : window.nanos ≤ age.nanos := shorter
  have hcutoff := sub?_eq_some (by omega) hcutoff
  have hstart := sub?_eq_some forward hstart
  have := earlier.nano_lt
  have := later.nano_lt
  have := later.nano_nonneg
  have := start.nano_nonneg
  have := cutoff.nano_nonneg
  simp only [isLeap_iff] at apart hcutoff hstart
  rw [le_iff] at ordered ⊢
  unfold nanos nanosPerSecond at *
  split at hcutoff <;> split at hstart <;> omega

/-! ## Whole seconds -/

theorem nanos_seconds {count : Int} (nonneg : 0 ≤ count) :
    (Span.seconds count).nanos = count * 1000000000 ∨
      (Span.seconds count).nanos = longestSpan ∧ longestSpan ≤ count * 1000000000 := by
  change max (-longestSpan) (min (count * 1000000000) longestSpan) = _ ∨
    max (-longestSpan) (min (count * 1000000000) longestSpan) = _ ∧ _
  unfold longestSpan
  omega

theorem second_of_sub?_seconds {instant result : Instant} {count : Int} (nonneg : 0 ≤ count)
    (h : instant.sub? (.seconds count) = some result) :
    if instant.isLeap ∧ 0 < count then
      result.second = instant.second + 1 - count ∧ result.nano = instant.nano - nanosPerSecond
    else result.second = instant.second - count ∧ result.nano = instant.nano := by
  have length := nanos_seconds nonneg
  have h := sub?_eq_some (by unfold longestSpan at length; omega) h
  have := instant.upper
  have := instant.nano_lt
  have := instant.nano_nonneg
  have := result.lower
  have := result.nano_nonneg
  simp only [isLeap_iff] at *
  unfold nanos nanosPerSecond earliestSecond latestSecond secondsPerDay longestSpan at *
  split at h <;> split <;> omega

theorem of?_eq_none {second nano : Int} (h : of? second nano = none) :
    ¬((earliestSecond ≤ second ∧ second ≤ latestSecond) ∧ 0 ≤ nano ∧
      (nano < nanosPerSecond ∨ second % 60 = 59 ∧ nano < 2 * nanosPerSecond)) := by
  unfold of? at h
  split at h
  · contradiction
  · assumption

theorem second_of_add?_seconds (instant : Instant) {count : Int} (nonneg : 0 ≤ count) :
    match instant.add? (.seconds count) with
    | some result =>
        result.second = instant.second + count ∧
          result.nano =
            if instant.isLeap ∧ 0 < count then instant.nano - nanosPerSecond else instant.nano
    | none => latestSecond < instant.second + count := by
  have length := nanos_seconds nonneg
  have := instant.lower
  have := instant.upper
  have := instant.nano_lt
  have := instant.nano_nonneg
  simp only [add?, move?, isLeap_iff]
  split
  · rename_i result h
    have := result.upper
    have := result.nano_nonneg
    split at h
    · split at h
      · have place := of?_eq_some h
        unfold nanosPerSecond longestSpan at *
        split <;> omega
      · have place := ofNanos?_eq_some h
        unfold nanos earliestSecond latestSecond secondsPerDay nanosPerSecond longestSpan at *
        split <;> omega
    · have place := ofNanos?_eq_some h
      unfold nanos earliestSecond latestSecond secondsPerDay nanosPerSecond longestSpan at *
      split <;> omega
  · rename_i h
    split at h
    · split at h
      · have out := of?_eq_none h
        unfold nanosPerSecond at *
        omega
      · have out := of?_eq_none h
        unfold nanos earliestSecond latestSecond secondsPerDay nanosPerSecond longestSpan at *
        omega
    · have out := of?_eq_none h
      unfold nanos earliestSecond latestSecond secondsPerDay nanosPerSecond longestSpan at *
      omega

theorem sub?_seconds_le {reading latest cutoff : Instant} {count : Int} (nonneg : 0 ≤ count)
    (within : ∀ limit, reading.add? (.seconds count) = some limit → latest ≤ limit)
    (apart : latest.isLeap → latest.nanos ≤ reading.nanos + (Span.seconds count).nanos)
    (h : latest.sub? (.seconds count) = some cutoff) : cutoff ≤ reading := by
  have length := nanos_seconds nonneg
  have back := second_of_sub?_seconds nonneg h
  have ahead := reading.second_of_add?_seconds nonneg
  have := latest.upper
  have := latest.nano_lt
  have := reading.nano_lt
  have := cutoff.lower
  simp only [isLeap_iff] at *
  rw [le_iff]
  unfold nanos nanosPerSecond earliestSecond latestSecond secondsPerDay longestSpan at *
  cases hlimit : reading.add? (.seconds count) with
  | none =>
      rw [hlimit] at ahead
      split at back <;> dsimp only at ahead <;> omega
  | some limit =>
      have within := within limit hlimit
      rw [le_iff] at within
      rw [hlimit] at ahead
      split at back <;> dsimp only at ahead <;> omega

theorem sub?_seconds_le_self {instant result : Instant} {count : Int} (nonneg : 0 ≤ count)
    (h : instant.sub? (.seconds count) = some result) : result ≤ instant := by
  have back := second_of_sub?_seconds nonneg h
  rw [le_iff]
  unfold nanosPerSecond at back
  split at back <;> omega

/-! ## Spans between instants -/

theorem since_nanos (later earlier : Instant) :
    (later.since earlier).nanos = later.nanos - earlier.nanos +
      (earlier.leapAfter later - later.leapAfter earlier) * nanosPerSecond := rfl

theorem leapAfter_eq (instant other : Instant) :
    instant.leapAfter other =
      if 1000000000 ≤ instant.nano ∧ instant.second % 86400 < other.second % 86400 then 1
      else 0 := by
  unfold leapAfter
  simp only [isLeap_iff]
  rfl

theorem since_lt_longestSpan (later earlier : Instant) :
    (later.since earlier).nanos < longestSpan := by
  have := later.upper
  have := earlier.lower
  have := later.nano_lt
  have := earlier.nano_nonneg
  rw [since_nanos, leapAfter_eq, leapAfter_eq]
  unfold nanos earliestSecond latestSecond secondsPerDay nanosPerSecond longestSpan at *
  split <;> split <;> omega

theorem since_lt_seconds {later earlier : Instant} {count : Int} (positive : 0 < count) :
    later.since earlier < Span.seconds count ↔
      (later.since earlier).nanos < count * nanosPerSecond := by
  have bound := since_lt_longestSpan later earlier
  change (later.since earlier).nanos <
    max (-longestSpan) (min (count * 1000000000) longestSpan) ↔ _
  unfold nanosPerSecond
  unfold longestSpan at *
  omega

theorem lt_of_second_le_since {later earlier : Instant}
    (h : nanosPerSecond ≤ (later.since earlier).nanos) : earlier < later := by
  have := later.nano_lt
  have := later.nano_nonneg
  have := earlier.nano_lt
  have := earlier.nano_nonneg
  rw [since_nanos, leapAfter_eq, leapAfter_eq] at h
  rw [lt_iff]
  unfold nanos nanosPerSecond at *
  split at h <;> split at h <;> omega

theorem since_triangle (first middle last : Instant) :
    (middle.since first).nanos + (last.since middle).nanos ≤
      (last.since first).nanos + nanosPerSecond := by
  simp only [since_nanos, leapAfter_eq]
  unfold nanosPerSecond
  split <;> split <;> split <;> split <;> split <;> split <;> omega

/-! ## Time that passes -/

/-- The nanoseconds that pass from an instant to a later one. What is left of a leap second passes
before the next second begins. -/
def elapsed (earlier later : Instant) : Int :=
  later.nanos - earlier.nanos +
    if earlier.isLeap ∧ earlier.second < later.second then nanosPerSecond else 0

theorem add?_of_not_leap {instant : Instant} (plain : instant.nano < nanosPerSecond) (span : Span) :
    instant.add? span = ofNanos? (instant.nanos + span.nanos) := by
  simp only [add?, move?, isLeap_iff]
  rw [if_neg (by omega)]

theorem since_add?_of_not_leap {earlier now later : Instant} {span : Span}
    (plain : now.isLeap = false)
    (whole : earlier.isLeap → earlier.secondOfDay = secondsPerDay - 1)
    (moved : now.add? span = some later) :
    (later.since earlier).nanos = (now.since earlier).nanos + span.nanos := by
  have nowPlain : now.nano < nanosPerSecond := by simpa [isLeap] using plain
  rw [add?_of_not_leap nowPlain] at moved
  obtain ⟨laterNanos, laterPlain⟩ := ofNanos?_eq_some moved
  have none (other : Instant) : earlier.leapAfter other = 0 := by
    unfold leapAfter
    rw [if_neg]
    rintro ⟨leap, before⟩
    have := whole leap
    unfold secondOfDay secondsPerDay at *
    omega
  simp only [since_nanos, none, leapAfter_eq]
  unfold nanosPerSecond at *
  rw [if_neg (by omega), if_neg (by omega), laterNanos]
  omega

theorem nanos_millis_or {count : Int} (nonneg : 0 ≤ count) :
    (Span.millis count).nanos = count * 1000000 ∨
      (Span.millis count).nanos = longestSpan ∧ longestSpan < count * 1000000 := by
  change max (-longestSpan) (min (count * 1000000) longestSpan) = _ ∨
    max (-longestSpan) (min (count * 1000000) longestSpan) = _ ∧ _
  unfold longestSpan
  omega

theorem nanos_millis {count : Int} (nonneg : 0 ≤ count) (bound : count * 1000000 ≤ longestSpan) :
    (Span.millis count).nanos = count * 1000000 := by
  have length := nanos_millis_or nonneg
  omega

theorem nanos_sub?_seconds {instant result : Instant} {count : Int} (positive : 0 < count)
    (h : instant.sub? (.seconds count) = some result) :
    result.nanos = instant.nanos - count * nanosPerSecond ∧ result.nano < nanosPerSecond := by
  have back := second_of_sub?_seconds (Int.le_of_lt positive) h
  have := instant.nano_lt
  simp only [isLeap_iff] at back
  unfold nanos nanosPerSecond at *
  split at back <;> omega

theorem count_of_sub?_seconds {instant result : Instant} {count : Int} (nonneg : 0 ≤ count)
    (h : instant.sub? (.seconds count) = some result) : count < 20000000000000 := by
  have back := second_of_sub?_seconds nonneg h
  have := instant.upper
  have := result.lower
  unfold earliestSecond latestSecond secondsPerDay at *
  split at back <;> omega

theorem le_elapsed_of_early {taken now first : Instant} {count early : Int} (positive : 0 < count)
    (nonneg : 0 ≤ early) (within : early ≤ count * 1000)
    (hfirst : now.sub? (.seconds count) = some first) (past : taken ≤ now)
    (soon : ∀ last, first.add? (.millis early) = some last → taken ≤ last) :
    count * nanosPerSecond - early * 1000000 ≤ taken.elapsed now ∨
      taken.isLeap ∧ now.isLeap ∧ taken.second = now.second := by
  have bound := count_of_sub?_seconds (Int.le_of_lt positive) hfirst
  obtain ⟨begins, plain⟩ := nanos_sub?_seconds positive hfirst
  have length : (Span.millis early).nanos = early * 1000000 :=
    nanos_millis nonneg (by unfold longestSpan; omega)
  have := now.upper
  have := now.nano_lt
  have := now.nano_nonneg
  have := taken.nano_lt
  have := taken.nano_nonneg
  rw [add?_of_not_leap plain, length] at soon
  simp only [elapsed, isLeap_iff]
  rw [le_iff] at past
  cases hlast : ofNanos? (first.nanos + early * 1000000) with
  | none =>
      -- Only the leap second at the end of time reaches beyond all instants.
      have out := of?_eq_none hlast
      have := first.lower
      have := first.nano_nonneg
      unfold nanos earliestSecond latestSecond secondsPerDay nanosPerSecond at *
      split <;> omega
  | some last =>
      have place := ofNanos?_eq_some hlast
      have soon := soon last hlast
      rw [le_iff] at soon
      have := last.nano_nonneg
      unfold nanos nanosPerSecond at *
      split <;> omega

/-! ## Steps of milliseconds -/

theorem elapsed_of_add?_millis {instant result : Instant} {count : Int} (nonneg : 0 ≤ count)
    (h : instant.add? (.millis count) = some result) :
    instant.elapsed result = count * 1000000 ∧ instant.second ≤ result.second ∧
      (result.isLeap → instant.isLeap ∧ result.second = instant.second) := by
  have length := nanos_millis_or nonneg
  have := instant.lower
  have := instant.nano_nonneg
  have := instant.nano_lt
  have := result.upper
  have := result.nano_lt
  simp only [add?, move?, elapsed, isLeap_iff] at h ⊢
  split at h
  · split at h
    · have place := of?_eq_some h
      unfold nanos earliestSecond latestSecond secondsPerDay nanosPerSecond longestSpan at *
      split <;> omega
    · have place := ofNanos?_eq_some h
      unfold nanos earliestSecond latestSecond secondsPerDay nanosPerSecond longestSpan at *
      split <;> omega
  · have place := ofNanos?_eq_some h
    unfold nanos earliestSecond latestSecond secondsPerDay nanosPerSecond longestSpan at *
    split <;> omega

theorem elapsed_of_steps {start first second : Instant} {before total : Nat}
    (order : before ≤ total)
    (short : start.add? (.millis before) = some first)
    (long : start.add? (.millis total) = some second) :
    first ≤ second ∧ first.elapsed second = ((total - before : Nat) : Int) * 1000000 ∧
      (first.isLeap → start.isLeap ∧ first.second = start.second) := by
  have short := elapsed_of_add?_millis (Int.natCast_nonneg _) short
  have long := elapsed_of_add?_millis (Int.natCast_nonneg _) long
  have := start.nano_lt
  have := start.nano_nonneg
  have := first.nano_lt
  have := first.nano_nonneg
  have := second.nano_lt
  have := second.nano_nonneg
  refine ⟨?_, ?_, short.2.2⟩
  · simp only [elapsed, isLeap_iff, le_iff] at *
    unfold nanos nanosPerSecond at *
    split at short <;> split at long <;> omega
  · simp only [elapsed, isLeap_iff] at *
    unfold nanos nanosPerSecond at *
    split at short <;> split at long <;> split <;> omega

theorem sub?_le_of_elapsed {earlier later result : Instant} {span : Span}
    (forward : 0 ≤ span.nanos) (recent : earlier.elapsed later ≤ span.nanos)
    (h : later.sub? span = some result) : result ≤ earlier := by
  have back := sub?_eq_some forward h
  have := earlier.nano_lt
  have := earlier.nano_nonneg
  have := later.nano_lt
  have := later.nano_nonneg
  have := result.nano_nonneg
  simp only [elapsed, isLeap_iff, le_iff] at *
  unfold nanos nanosPerSecond at *
  split at recent <;> split at back <;> omega

theorem late_of_add?_millis_eq_none {instant : Instant} {count : Int} (nonneg : 0 ≤ count)
    (h : instant.add? (.millis count) = none) :
    (latestSecond + 1) * nanosPerSecond + (if instant.isLeap then nanosPerSecond else 0) ≤
      instant.nanos + count * 1000000 := by
  have length := nanos_millis_or nonneg
  have := instant.lower
  have := instant.upper
  have := instant.nano_nonneg
  have := instant.nano_lt
  simp only [add?, move?, isLeap_iff] at h ⊢
  split at h
  · split at h
    · have out := of?_eq_none h
      unfold nanosPerSecond at *
      omega
    · have out := of?_eq_none h
      unfold nanos earliestSecond latestSecond secondsPerDay nanosPerSecond longestSpan at *
      split <;> omega
  · have out := of?_eq_none h
    unfold nanos earliestSecond latestSecond secondsPerDay nanosPerSecond longestSpan at *
    split <;> omega

theorem nanos_sub?_millis {instant result : Instant} {count : Int} (nonneg : 0 ≤ count)
    (h : instant.sub? (.millis count) = some result) :
    result.nanos = instant.nanos - count * 1000000 ∧
      (result.isLeap → instant.isLeap ∧ result.second = instant.second) := by
  have length := nanos_millis_or nonneg
  have back := sub?_eq_some (by unfold longestSpan at length; omega) h
  have := instant.upper
  have := instant.nano_lt
  have := result.lower
  have := result.nano_nonneg
  simp only [isLeap_iff] at back ⊢
  unfold nanos earliestSecond latestSecond secondsPerDay nanosPerSecond longestSpan at *
  split at back <;> omega

theorem count_of_sub?_millis {instant result : Instant} {count : Int} (nonneg : 0 ≤ count)
    (h : instant.sub? (.millis count) = some result) : count < 20000000000000000 := by
  have back := nanos_sub?_millis nonneg h
  have := instant.upper
  have := instant.nano_lt
  have := result.lower
  have := result.nano_nonneg
  unfold nanos earliestSecond latestSecond secondsPerDay nanosPerSecond at *
  omega

/-- The nanosecond at which an instant counts for those who go back to a first one. From outside a
leap second, all of it is the beginning of the next second. -/
def mark (instant first : Instant) : Int :=
  if instant.isLeap ∧ first.isLeap = false then (instant.second + 1) * nanosPerSecond
  else instant.nanos

theorem elapsed_of_not_leap {earlier : Instant} (plain : earlier.isLeap = false) (later : Instant) :
    earlier.elapsed later = later.nanos - earlier.nanos := by
  simp [elapsed, plain]

theorem mark_of_not_leap {instant : Instant} (plain : instant.isLeap = false) (first : Instant) :
    instant.mark first = instant.nanos := by
  simp [mark, plain]

theorem mark_le_mark {left right first : Instant} (order : left ≤ right)
    (near : first.isLeap → right.isLeap) : left.mark first ≤ right.mark first := by
  have := left.nano_lt
  have := right.nano_nonneg
  simp only [mark, ← Bool.not_eq_true, isLeap_iff, le_iff] at *
  unfold nanos nanosPerSecond at *
  split <;> split <;> omega

end Instant

end Alerting
