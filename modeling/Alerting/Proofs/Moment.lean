import Alerting.Proofs.Time

/-!
# Time without ends

A moment is a place on a line of time without ends, counted in integers of any size. Instants are
the moments of a range. Moving an instant leads to the moment that is reached on that line, and
fails exactly where that moment is out of range.
-/

namespace Alerting

/-- A second, counted from 1970-01-01T00:00:00Z, and a number of nanoseconds inside it, which is one
second or more in a leap second. -/
structure Moment where
  second : Int
  nano : Int
deriving DecidableEq

namespace Moment

instance : LT Moment :=
  ⟨fun left right =>
    left.second < right.second ∨ left.second = right.second ∧ left.nano < right.nano⟩

instance : LE Moment :=
  ⟨fun left right =>
    left.second < right.second ∨ left.second = right.second ∧ left.nano ≤ right.nano⟩

instance (left right : Moment) : Decidable (left < right) :=
  inferInstanceAs (Decidable
    (left.second < right.second ∨ left.second = right.second ∧ left.nano < right.nano))

instance (left right : Moment) : Decidable (left ≤ right) :=
  inferInstanceAs (Decidable
    (left.second < right.second ∨ left.second = right.second ∧ left.nano ≤ right.nano))

def InRange (moment : Moment) : Prop :=
  earliestSecond ≤ moment.second ∧ moment.second ≤ latestSecond

instance (moment : Moment) : Decidable moment.InRange :=
  inferInstanceAs (Decidable (_ ∧ _))

def nanos (moment : Moment) : Int := moment.second * nanosPerSecond + moment.nano

def ofNanos (nanos : Int) : Moment := ⟨nanos / nanosPerSecond, nanos % nanosPerSecond⟩

/-- The moment a number of nanoseconds later. A leap second counts on the way if the way leads
forward from it, or back by less than a second. -/
def move (moment : Moment) (nanos : Int) : Moment :=
  if nanosPerSecond ≤ moment.nano ∧ -nanosPerSecond < nanos then
    if moment.nano + nanos < 2 * nanosPerSecond then ⟨moment.second, moment.nano + nanos⟩
    else ofNanos (moment.nanos + nanos - nanosPerSecond)
  else ofNanos (moment.nanos + nanos)

def leapAfter (moment other : Moment) : Int :=
  if nanosPerSecond ≤ moment.nano ∧
      moment.second % secondsPerDay < other.second % secondsPerDay then 1 else 0

def since (later earlier : Moment) : Int :=
  later.nanos - earlier.nanos + (earlier.leapAfter later - later.leapAfter earlier) * nanosPerSecond

theorem place_move (moment : Moment) (nanos : Int) :
    let reached := moment.move nanos
    let counts := nanosPerSecond ≤ moment.nano ∧ -nanosPerSecond < nanos
    counts ∧ moment.nano + nanos < 2 * nanosPerSecond ∧
        reached.second = moment.second ∧ reached.nano = moment.nano + nanos ∨
      (counts ∧ 2 * nanosPerSecond ≤ moment.nano + nanos ∧
          reached.nanos = moment.nanos + nanos - nanosPerSecond ∨
        ¬counts ∧ reached.nanos = moment.nanos + nanos) ∧
        0 ≤ reached.nano ∧ reached.nano < nanosPerSecond := by
  intro reached counts
  have found (nanos : Int) : (ofNanos nanos).nanos = nanos ∧ 0 ≤ (ofNanos nanos).nano ∧
      (ofNanos nanos).nano < nanosPerSecond := by
    unfold ofNanos Moment.nanos nanosPerSecond
    dsimp only
    omega
  by_cases leap : counts
  · by_cases stays : moment.nano + nanos < 2 * nanosPerSecond
    · have same : reached = ⟨moment.second, moment.nano + nanos⟩ :=
        (if_pos leap).trans (if_pos stays)
      exact .inl ⟨leap, stays, by rw [same], by rw [same]⟩
    · have same : reached = ofNanos (moment.nanos + nanos - nanosPerSecond) :=
        (if_pos leap).trans (if_neg stays)
      rw [same]
      obtain ⟨nanos, place⟩ := found (moment.nanos + nanos - nanosPerSecond)
      exact .inr ⟨.inl ⟨leap, Int.not_lt.mp stays, nanos⟩, place⟩
  · have same : reached = ofNanos (moment.nanos + nanos) := if_neg leap
    rw [same]
    obtain ⟨nanos, place⟩ := found (moment.nanos + nanos)
    exact .inr ⟨.inr ⟨leap, nanos⟩, place⟩

theorem lt_iff {left right : Moment} :
    left < right ↔
      left.second < right.second ∨ left.second = right.second ∧ left.nano < right.nano :=
  Iff.rfl

theorem le_iff {left right : Moment} :
    left ≤ right ↔
      left.second < right.second ∨ left.second = right.second ∧ left.nano ≤ right.nano :=
  Iff.rfl

end Moment

namespace Instant

def moment (instant : Instant) : Moment := ⟨instant.second, instant.nano⟩

variable {instant result : Instant} {nanos : Int} {span : Span}

theorem inRange_moment (instant : Instant) : instant.moment.InRange :=
  ⟨instant.lower, instant.upper⟩

theorem nanos_since (later earlier : Instant) :
    (later.since earlier).nanos = later.moment.since earlier.moment := by
  simp only [since_nanos, leapAfter_eq]
  rfl

/-! ## Moving instants -/

theorem of?_eq_some_iff {second nano : Int} :
    of? second nano = some instant ↔ instant.second = second ∧ instant.nano = nano := by
  constructor
  · exact of?_eq_some
  · rintro ⟨rfl, rfl⟩
    exact of?_self instant

theorem move?_eq_of? (instant : Instant) (nanos : Int) :
    instant.move? nanos =
      of? (instant.moment.move nanos).second (instant.moment.move nanos).nano := by
  simp only [move?, isLeap_iff]
  by_cases counts : nanosPerSecond ≤ instant.nano ∧ -nanosPerSecond < nanos
  · have leap : nanosPerSecond ≤ instant.moment.nano ∧ -nanosPerSecond < nanos := counts
    rw [if_pos counts, Moment.move, if_pos leap]
    by_cases stays : instant.nano + nanos < 2 * nanosPerSecond
    · have within : instant.moment.nano + nanos < 2 * nanosPerSecond := stays
      rw [if_pos stays, if_pos within]
      rfl
    · have beyond : ¬instant.moment.nano + nanos < 2 * nanosPerSecond := stays
      rw [if_neg stays, if_neg beyond]
      rfl
  · have passed : ¬(nanosPerSecond ≤ instant.moment.nano ∧ -nanosPerSecond < nanos) := counts
    rw [if_neg counts, Moment.move, if_neg passed]
    rfl

theorem nano_move (instant : Instant) (nanos : Int) :
    0 ≤ (instant.moment.move nanos).nano ∧
      ((instant.moment.move nanos).nano < nanosPerSecond ∨
        (instant.moment.move nanos).second % 60 = 59 ∧
          (instant.moment.move nanos).nano < 2 * nanosPerSecond) := by
  have := instant.nano_nonneg
  have := instant.nano_lt
  have place := instant.moment.place_move nanos
  have second : instant.moment.second = instant.second := rfl
  have nano : instant.moment.nano = instant.nano := rfl
  unfold nanosPerSecond at *
  omega

theorem move?_eq_some_iff :
    instant.move? nanos = some result ↔ instant.moment.move nanos = result.moment := by
  rw [move?_eq_of?, of?_eq_some_iff]
  obtain ⟨second, nano⟩ := instant.moment.move nanos
  simp only [moment, Moment.mk.injEq]
  exact and_congr eq_comm eq_comm

theorem move?_eq_none_iff :
    instant.move? nanos = none ↔ ¬(instant.moment.move nanos).InRange := by
  have place := instant.nano_move nanos
  rw [move?_eq_of?, of?]
  unfold Moment.InRange
  split
  · next reached => exact iff_of_false nofun fun out => out reached.1
  · next out => exact iff_of_true rfl fun within => out ⟨within, place⟩

theorem sub?_eq_some_iff :
    instant.sub? span = some result ↔ instant.moment.move (-span.nanos) = result.moment :=
  move?_eq_some_iff

theorem sub?_eq_none_iff :
    instant.sub? span = none ↔ ¬(instant.moment.move (-span.nanos)).InRange :=
  move?_eq_none_iff

theorem add?_eq_some_iff :
    instant.add? span = some result ↔ instant.moment.move span.nanos = result.moment :=
  move?_eq_some_iff

theorem add?_eq_none_iff :
    instant.add? span = none ↔ ¬(instant.moment.move span.nanos).InRange :=
  move?_eq_none_iff

/-! ## Ways back -/

theorem move_back_le (instant : Instant) {back : Int} (nonneg : 0 ≤ back) :
    instant.moment.move (-back) ≤ instant.moment := by
  have := instant.nano_nonneg
  have := instant.nano_lt
  have place := instant.moment.place_move (-back)
  rw [Moment.le_iff]
  simp only [Moment.nanos, moment] at *
  unfold nanosPerSecond at *
  omega

theorem not_lt_of_out {instant : Instant} {back : Int} (nonneg : 0 ≤ back)
    (out : ¬(instant.moment.move (-back)).InRange) (other : Instant) :
    ¬other.moment < instant.moment.move (-back) := by
  have earlier := instant.move_back_le nonneg
  have := instant.upper
  have := other.lower
  rw [Moment.le_iff] at earlier
  rw [Moment.lt_iff]
  simp only [Moment.InRange, moment] at *
  omega

theorem not_inRange_of_far (instant : Instant) {back : Int} (far : longestSpan ≤ back) :
    ¬(instant.moment.move (-back)).InRange := by
  have := instant.upper
  have := instant.nano_lt
  have place := instant.moment.place_move (-back)
  rw [Moment.InRange]
  simp only [Moment.nanos, moment] at *
  unfold longestSpan earliestSecond latestSecond secondsPerDay nanosPerSecond at *
  omega

theorem sub?_seconds_eq_some_iff {count : Int} (nonneg : 0 ≤ count) :
    instant.sub? (.seconds count) = some result ↔
      instant.moment.move (-(count * nanosPerSecond)) = result.moment := by
  rw [sub?_eq_some_iff]
  rcases nanos_seconds nonneg with same | ⟨greatest, far⟩
  · rw [same, nanosPerSecond]
  · constructor
    · intro reached
      have out := instant.not_inRange_of_far (Int.le_of_eq greatest.symm)
      rw [reached] at out
      exact absurd result.inRange_moment out
    · intro reached
      have out := instant.not_inRange_of_far far
      rw [← nanosPerSecond, reached] at out
      exact absurd result.inRange_moment out

theorem sub?_seconds_eq_none_iff {count : Int} (nonneg : 0 ≤ count) :
    instant.sub? (.seconds count) = none ↔
      ¬(instant.moment.move (-(count * nanosPerSecond))).InRange := by
  rw [sub?_eq_none_iff]
  rcases nanos_seconds nonneg with same | ⟨greatest, far⟩
  · rw [same, nanosPerSecond]
  · exact iff_of_true (instant.not_inRange_of_far (Int.le_of_eq greatest.symm))
      (instant.not_inRange_of_far far)

theorem move_forth {now start : Instant} {back forth : Int} (nonneg : 0 ≤ forth)
    (shorter : forth ≤ back) (begins : now.moment.move (-back) = start.moment) :
    let reached := start.moment.move forth
    start.moment ≤ reached ∧ reached.nanos ≤ now.nanos ∧
      (now.isLeap = false → reached ≤ now.moment) := by
  have := now.nano_nonneg
  have := now.nano_lt
  have := start.nano_nonneg
  have := start.nano_lt
  have back := now.moment.place_move (-back)
  have forth := start.moment.place_move forth
  rw [begins] at back
  dsimp only at forth ⊢
  generalize start.moment.move _ = reached at forth ⊢
  simp only [Moment.le_iff, Moment.nanos, moment, ← Bool.not_eq_true, isLeap_iff, nanos] at *
  unfold nanosPerSecond at *
  omega

end Instant

end Alerting
