/-!
# Spans of time

A span is a signed whole number of nanoseconds. Comparisons use every
nanosecond; the resolution at which the meter interpolates and lays out its
boundaries is the millisecond, and `Span.millis` drops the rest toward zero.
-/

namespace Metering

/-- A signed length of time in nanoseconds. -/
@[ext] structure Span where
  /-- The length in nanoseconds. -/
  nanos : Int
deriving DecidableEq, Repr

namespace Span

/-- Nanoseconds in one millisecond. -/
def nanosPerMilli : Int := 1000000

/-- Nanoseconds in one second. -/
def nanosPerSecond : Int := 1000000000

instance : LE Span := ⟨fun left right => left.nanos ≤ right.nanos⟩
instance : LT Span := ⟨fun left right => left.nanos < right.nanos⟩
instance (left right : Span) : Decidable (left ≤ right) :=
  inferInstanceAs (Decidable (left.nanos ≤ right.nanos))
instance (left right : Span) : Decidable (left < right) :=
  inferInstanceAs (Decidable (left.nanos < right.nanos))

/-- Comparing spans is comparing their nanoseconds. -/
theorem le_iff (left right : Span) : left ≤ right ↔ left.nanos ≤ right.nanos := Iff.rfl

/-- Strict comparison of spans is strict comparison of their nanoseconds. -/
theorem lt_iff (left right : Span) : left < right ↔ left.nanos < right.nanos := Iff.rfl

/-- A whole number of milliseconds. -/
def ofMillis (count : Int) : Span := ⟨count * nanosPerMilli⟩

/-- A whole number of seconds. -/
def ofSeconds (count : Int) : Span := ⟨count * nanosPerSecond⟩

/-- The whole milliseconds in a span, the remainder dropped toward zero. -/
def millis (span : Span) : Int := span.nanos.tdiv nanosPerMilli

/-- The most milliseconds a span may hold, a signed 64-bit word's largest value. -/
def maxMillis : Int := 9223372036854775807

/-- The longest span. -/
def longest : Span := ofMillis maxMillis

/-- The most whole seconds a span may hold. -/
def maxSeconds : Nat := 9223372036854775

/-- A number of seconds as a span, refused when no span is that long. -/
def ofSeconds? (count : Nat) : Option Span :=
  if count ≤ maxSeconds then some (ofSeconds count) else none

/-- Reading back a whole number of milliseconds loses nothing. -/
@[simp] theorem millis_ofMillis (count : Int) : (ofMillis count).millis = count :=
  Int.mul_tdiv_cancel count (by decide)

/-- A whole number of seconds is a thousand times as many milliseconds. -/
theorem ofSeconds_eq_ofMillis (count : Int) : ofSeconds count = ofMillis (count * 1000) := by
  unfold ofSeconds ofMillis
  rw [Int.mul_assoc]
  rfl

/-- The whole milliseconds of a span that is not negative are a plain quotient. -/
theorem millis_eq_ediv {span : Span} (nonneg : 0 ≤ span.nanos) :
    span.millis = span.nanos / 1000000 :=
  Int.tdiv_eq_ediv_of_nonneg nonneg

end Span

end Metering
