import Alerting.Time.Span
import Alerting.Time.Calendar

/-!
# Instants

An instant is a second, counted from 1970-01-01T00:00:00Z without leap seconds, and a number of
nanoseconds inside it. The last second of a minute may be followed by a leap second, which counts as
a second half of it, so that nanoseconds there go up to two seconds. Instants reach from the
beginning of the year -262143 to the end of the year 262142. Moving an instant by a span can leave
that range; the span between two instants always exists.
-/

namespace Alerting

def nanosPerSecond : Int := 1000000000

def secondsPerDay : Int := 86400

def nanosPerDay : Int := 86400000000000

/-- The first second, -262143-01-01T00:00:00Z. -/
def earliestSecond : Int := -96465292 * secondsPerDay

/-- The last second, +262142-12-31T23:59:59Z. -/
def latestSecond : Int := 95026237 * secondsPerDay - 1

structure Instant where
  second : Int
  nano : Int
  lower : earliestSecond ≤ second
  upper : second ≤ latestSecond
  nano_nonneg : 0 ≤ nano
  /-- Only a leap second makes a second longer. -/
  nano_lt : nano < nanosPerSecond ∨ second % 60 = 59 ∧ nano < 2 * nanosPerSecond
deriving DecidableEq, Repr

namespace Instant

example :
    earliestSecond = (Date.mk (-262143) 1 1).dayNumber * secondsPerDay ∧
      latestSecond = ((Date.mk 262142 12 31).dayNumber + 1) * secondsPerDay - 1 := by
  decide

def of? (second nano : Int) : Option Instant :=
  if h : (earliestSecond ≤ second ∧ second ≤ latestSecond) ∧ 0 ≤ nano ∧
      (nano < nanosPerSecond ∨ second % 60 = 59 ∧ nano < 2 * nanosPerSecond) then
    some ⟨second, nano, h.1.1, h.1.2, h.2.1, h.2.2⟩
  else none

def ofNanos? (nanos : Int) : Option Instant :=
  of? (nanos / nanosPerSecond) (nanos % nanosPerSecond)

def clamp (nanos : Int) : Instant :=
  ⟨max earliestSecond (min (nanos / nanosPerSecond) latestSecond), nanos % nanosPerSecond,
    by unfold earliestSecond latestSecond secondsPerDay; omega,
    by unfold earliestSecond latestSecond secondsPerDay; omega,
    by unfold nanosPerSecond; omega,
    by unfold nanosPerSecond; omega⟩

/-- The nanoseconds since 1970-01-01T00:00:00Z. A leap second has those of the second after it. -/
def nanos (instant : Instant) : Int := instant.second * nanosPerSecond + instant.nano

def isLeap (instant : Instant) : Bool := nanosPerSecond ≤ instant.nano

def secondOfDay (instant : Instant) : Int := instant.second % secondsPerDay

instance : LT Instant :=
  ⟨fun left right =>
    left.second < right.second ∨ left.second = right.second ∧ left.nano < right.nano⟩

instance : LE Instant :=
  ⟨fun left right =>
    left.second < right.second ∨ left.second = right.second ∧ left.nano ≤ right.nano⟩

instance (left right : Instant) : Decidable (left < right) :=
  inferInstanceAs (Decidable
    (left.second < right.second ∨ left.second = right.second ∧ left.nano < right.nano))

instance (left right : Instant) : Decidable (left ≤ right) :=
  inferInstanceAs (Decidable
    (left.second < right.second ∨ left.second = right.second ∧ left.nano ≤ right.nano))

/-- The instant a number of nanoseconds later. From within a leap second a step of less than a
second may stay there or lead to the first half of its second; a step beyond it has passed the leap
second. -/
def move? (instant : Instant) (nanos : Int) : Option Instant :=
  let nano := instant.nano + nanos
  if instant.isLeap ∧ -nanosPerSecond < nanos then
    if nano < 2 * nanosPerSecond then of? instant.second nano
    else ofNanos? (instant.nanos + nanos - nanosPerSecond)
  else ofNanos? (instant.nanos + nanos)

def add? (instant : Instant) (span : Span) : Option Instant := instant.move? span.nanos

def sub? (instant : Instant) (span : Span) : Option Instant := instant.move? (-span.nanos)

def leapAfter (instant other : Instant) : Int :=
  if instant.isLeap ∧ instant.secondOfDay < other.secondOfDay then 1 else 0

/-- The span from an earlier instant to a later one, negative if they are the other way round. It is
the difference of their dates and of their times of day, and of two times of day the earlier one
tells whether a leap second passes between them. -/
def since (later earlier : Instant) : Span :=
  ⟨later.nanos - earlier.nanos +
      (earlier.leapAfter later - later.leapAfter earlier) * nanosPerSecond,
    by
      have := later.lower; have := earlier.upper
      have := later.nano_nonneg; have := earlier.nano_lt
      unfold nanos leapAfter
      unfold earliestSecond latestSecond secondsPerDay nanosPerSecond longestSpan at *
      split <;> split <;> omega,
    by
      have := later.upper; have := earlier.lower
      have := later.nano_lt; have := earlier.nano_nonneg
      unfold nanos leapAfter
      unfold earliestSecond latestSecond secondsPerDay nanosPerSecond longestSpan at *
      split <;> split <;> omega⟩

end Instant

end Alerting
