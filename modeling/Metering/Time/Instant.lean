import Metering.Time.Span

/-!
# Instants

An instant is a nanosecond of the proleptic Gregorian calendar in UTC, from
the first nanosecond of the year -262143 to the last one of the year 262142.
Moving past either end is reported as `none`. Every minute has sixty seconds:
the instants of leap seconds are left out, so that instants lie on one line, a
nanosecond apart.
-/

namespace Metering

/-- Nanoseconds from 1970 to the first instant. -/
def Instant.firstNanos : Int := -8334601228800000000000

/-- Nanoseconds from 1970 to the last instant. -/
def Instant.lastNanos : Int := 8210266876799999999999

/-- A nanosecond of the calendar, counted from the start of 1970 in UTC. -/
@[ext] structure Instant where
  /-- Nanoseconds since the start of 1970. -/
  nanos : Int
  /-- The calendar has begun. -/
  first_le : Instant.firstNanos ≤ nanos
  /-- The calendar has not ended. -/
  le_last : nanos ≤ Instant.lastNanos
deriving DecidableEq, Repr

namespace Instant

instance : LE Instant := ⟨fun left right => left.nanos ≤ right.nanos⟩
instance : LT Instant := ⟨fun left right => left.nanos < right.nanos⟩
instance (left right : Instant) : Decidable (left ≤ right) :=
  inferInstanceAs (Decidable (left.nanos ≤ right.nanos))
instance (left right : Instant) : Decidable (left < right) :=
  inferInstanceAs (Decidable (left.nanos < right.nanos))

/-- Comparing instants is comparing their nanoseconds. -/
theorem le_iff (left right : Instant) : left ≤ right ↔ left.nanos ≤ right.nanos := Iff.rfl

/-- Strict comparison of instants is strict comparison of their nanoseconds. -/
theorem lt_iff (left right : Instant) : left < right ↔ left.nanos < right.nanos := Iff.rfl

/-- An instant before another is not that one. -/
theorem ne_of_lt {left right : Instant} (less : left < right) : left ≠ right := fun same =>
  Int.ne_of_lt less (congrArg Instant.nanos same)

/-- The first instant of the calendar. -/
def first : Instant := ⟨firstNanos, by decide, by decide⟩

/-- The last instant of the calendar. -/
def last : Instant := ⟨lastNanos, by decide, by decide⟩

/-- The start of 1970. -/
def epoch : Instant := ⟨0, by decide, by decide⟩

instance : Inhabited Instant := ⟨epoch⟩

/-- The instant with this many nanoseconds, if the calendar holds it. -/
def ofNanos? (nanos : Int) : Option Instant :=
  if within : firstNanos ≤ nanos ∧ nanos ≤ lastNanos then
    some ⟨nanos, within.1, within.2⟩
  else
    none

/-- An instant is the one with its nanoseconds. -/
theorem ofNanos?_eq_some_iff (nanos : Int) (instant : Instant) :
    ofNanos? nanos = some instant ↔ instant.nanos = nanos := by
  have within : firstNanos ≤ instant.nanos ∧ instant.nanos ≤ lastNanos :=
    ⟨instant.first_le, instant.le_last⟩
  unfold ofNanos?
  split
  · rw [Option.some_inj, Instant.ext_iff]
    exact eq_comm
  · rename_i outside
    constructor
    · intro found
      cases found
    · intro same
      exact absurd (same ▸ within) outside

/-- The instant a span later, if the calendar holds it. -/
def shift? (instant : Instant) (span : Span) : Option Instant :=
  ofNanos? (instant.nanos + span.nanos)

/-- The instant a span later is that many nanoseconds later. -/
theorem shift?_eq_some_iff (instant : Instant) (span : Span) (later : Instant) :
    instant.shift? span = some later ↔ later.nanos = instant.nanos + span.nanos :=
  ofNanos?_eq_some_iff _ later

/-- The span from an earlier instant to this one, negative if it is later. -/
def since (instant origin : Instant) : Span := ⟨instant.nanos - origin.nanos⟩

/-- The whole milliseconds from an instant to one that is not earlier are a plain quotient. -/
theorem millis_since_eq_ediv {origin instant : Instant} (le : origin ≤ instant) :
    (instant.since origin).millis = (instant.nanos - origin.nanos) / 1000000 :=
  Span.millis_eq_ediv (Int.sub_nonneg_of_le le)

/-- The instant one nanosecond before, if there is one. -/
def justBefore? (instant : Instant) : Option Instant := instant.shift? ⟨-1⟩

/-- The instant one nanosecond after, if there is one. -/
def justAfter? (instant : Instant) : Option Instant := instant.shift? ⟨1⟩

/-- The earlier of two instants. -/
def earlier (left right : Instant) : Instant := if left ≤ right then left else right

end Instant

end Metering
