import Metering.Reading

/-!
# Brackets

A bracket holds two readings that carry a field and a target instant between
them. Its value is the line through the two readings, read off at the target
with both time differences counted in whole milliseconds; at either reading it
is that reading's own value. Nothing is ever extrapolated.
-/

namespace Metering

/-- Two readings around a target instant, for one field. -/
structure Bracket (σ : Type) where
  /-- The field looked up. -/
  field : Field
  /-- The reading at or before the target. -/
  before : Reading σ
  /-- The reading at or after the target. -/
  after : Reading σ
  /-- The instant looked up. -/
  target : Instant
deriving Repr

namespace Bracket

variable {σ : Type}

/-- Brackets a target, refused when a reading is on its wrong side. -/
def of? (field : Field) (before after : Reading σ) (target : Instant) :
    Except QueryError (Bracket σ) :=
  if target < before.instant ∨ after.instant < target then
    .error (.outOfRange before.source target)
  else
    .ok ⟨field, before, after, target⟩

/-- The bracket of a reading that sits on the target. -/
def exact (field : Field) (reading : Reading σ) : Bracket σ :=
  ⟨field, reading, reading, reading.instant⟩

/-- Whether both sides sit on one instant. -/
def isExact (bracket : Bracket σ) : Bool := bracket.before.instant = bracket.after.instant

/-- The value of one side. -/
def endpoint (bracket : Bracket σ) (reading : Reading σ) : Except QueryError σ :=
  match reading.value? bracket.field with
  | some value => .ok value
  | none => .error (.noData reading.source bracket.field)

variable [Scalar σ]

/-- The line through two points, read off at an instant in whole milliseconds. Points less than a
millisecond apart give the first value. -/
def line (start : Instant) (startValue : σ) (stop : Instant) (stopValue : σ) (target : Instant) :
    σ :=
  let span := (stop.since start).millis
  if span = 0 then
    startValue
  else
    startValue + (stopValue - startValue) * Scalar.ofInt (target.since start).millis /
      Scalar.ofInt span

/-- The value at the target. -/
def interpolate (bracket : Bracket σ) : Except QueryError σ := do
  let before ← bracket.endpoint bracket.before
  if bracket.isExact ∨ bracket.target = bracket.before.instant then
    return before
  let after ← bracket.endpoint bracket.after
  if bracket.target = bracket.after.instant then
    return after
  return line bracket.before.instant before bracket.after.instant after bracket.target

end Bracket

end Metering
