/-!
# Spans of time

A span is a signed number of nanoseconds of bounded size. Spans that settings and rules ask for in
seconds may be longer than the longest span, and then count as the longest one.
-/

namespace Alerting

def longestSpan : Int := 9223372036854775807000000

structure Span where
  nanos : Int
  lower : -longestSpan ≤ nanos
  upper : nanos ≤ longestSpan
deriving DecidableEq, Repr

namespace Span

def clamp (nanos : Int) : Span :=
  ⟨max (-longestSpan) (min nanos longestSpan), by unfold longestSpan; omega,
    by unfold longestSpan; omega⟩

def zero : Span := clamp 0

def longest : Span := clamp longestSpan

def shortest : Span := clamp (-longestSpan)

def seconds (count : Int) : Span := clamp (count * 1000000000)

def millis (count : Int) : Span := clamp (count * 1000000)

def wholeMillis (span : Span) : Int := span.nanos.tdiv 1000000

instance : LT Span := ⟨fun left right => left.nanos < right.nanos⟩

instance : LE Span := ⟨fun left right => left.nanos ≤ right.nanos⟩

instance (left right : Span) : Decidable (left < right) :=
  inferInstanceAs (Decidable (left.nanos < right.nanos))

instance (left right : Span) : Decidable (left ≤ right) :=
  inferInstanceAs (Decidable (left.nanos ≤ right.nanos))

def sub? (left right : Span) : Option Span :=
  let nanos := left.nanos - right.nanos
  if h : -longestSpan ≤ nanos ∧ nanos ≤ longestSpan then some ⟨nanos, h.1, h.2⟩ else none

end Span

end Alerting
