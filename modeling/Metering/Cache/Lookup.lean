import Metering.Bracket.Lookup
import Metering.Cache.Basic
import Metering.Grid

/-!
# Looking up a counter

A lookup that is older than the window starts from the checkpoint at the grid
instant before it and reads only what came after. Where there is none it reads
the bracket of its target and, if the readings around the grid instant have
settled, offers a checkpoint for it. A store that fails on the way from a
checkpoint never costs the answer: the lookup starts over from the readings.
-/

namespace Metering

/-- An energy counter and perhaps a checkpoint that was found on the way. -/
structure CounterRead (σ : Type) where
  /-- The counter in watt hours. -/
  value : σ
  /-- A checkpoint worth keeping. -/
  pending : Option (Checkpoint σ)
deriving Repr

namespace Checkpoint

variable {σ : Type} [Scalar σ]

/-- The counter at or after a checkpoint, from the readings after it. -/
def counterFrom (checkpoint : Checkpoint σ) (time : Instant) : Attempt σ σ := do
  if time = checkpoint.instant then
    return checkpoint.energy
  let recent ← Attempt.range checkpoint.source (.afterUntil checkpoint.instant time)
    .cumulativeEnergy
  let before := recent.getLast?.getD checkpoint.toReading
  if before.instant = time then
    Attempt.ofExcept (Bracket.exact .cumulativeEnergy before).interpolate
  else
    match ← Attempt.nearestAfter checkpoint.source time .cumulativeEnergy with
    | none => throw (.outOfRange checkpoint.source time)
    | some after =>
      Attempt.ofExcept do
        let bracket ← Bracket.of? .cumulativeEnergy before after time
        bracket.interpolate

end Checkpoint

namespace CheckpointCache

variable {σ : Type} [Scalar σ]

/-- The counter from the readings alone. -/
def coldRead (id : SourceId) (time : Instant) : Attempt σ (CounterRead σ) := do
  let value ← Bracket.valueAt id time .cumulativeEnergy
  return ⟨value, none⟩

/-- The checkpoint a lookup may offer for a grid instant, none while a reading may still arrive
beside it. -/
def offer (id : SourceId) (boundary : Instant) (window : Span) (now : Instant) :
    Except QueryError (Bracket σ) → Option (Checkpoint σ)
  | .ok bracket =>
    if now.since bracket.after.instant ≤ window then
      none
    else
      match bracket.interpolate with
      | .ok value => some ⟨id, boundary, value, now⟩
      | .error _ => none
  | .error _ => none

/-- The counter from the readings, and a checkpoint for the grid instant if its bracket has
settled. -/
def coldReadWithOffer (id : SourceId) (boundary time : Instant) (window : Span) (now : Instant) :
    Attempt σ (CounterRead σ) := do
  Attempt.tally .coldRead
  let read ← coldRead id time
  let bracket ← (Bracket.find id boundary .cumulativeEnergy).outcome
  return { read with pending := offer id boundary window now bracket }

/-- The counter from a checkpoint; a failing store sends the lookup to the readings. -/
def warmRead (checkpoint : Checkpoint σ) (id : SourceId) (boundary time : Instant)
    (window : Span) (now : Instant) : Attempt σ (CounterRead σ) := do
  match ← (checkpoint.counterFrom time).outcome with
  | .ok value =>
    Attempt.tally .hit
    return ⟨value, none⟩
  | .error (.storage _) =>
    Attempt.tally .fallback
    coldReadWithOffer id boundary time window now
  | .error error => throw error

/-- The energy counter of a leaf at an instant. -/
def counterAt (cache : CheckpointCache σ) (source : Source σ) (time now : Instant) :
    Attempt σ (CounterRead σ) := do
  match cache.settingsFor? source with
  | none =>
    Attempt.tally .coldRead
    coldRead source.id time
  | some settings =>
    if now.since time ≤ settings.window then
      Attempt.tally .windowBypass
      coldRead source.id time
    else
      match (Grid.mk source.createdAt settings.interval).floor? time with
      | none =>
        Attempt.tally .coldRead
        coldRead source.id time
      | some boundary =>
        match (cache.seriesOf source.id).at? boundary with
        | some checkpoint =>
          warmRead checkpoint source.id boundary time settings.window now
        | none => coldReadWithOffer source.id boundary time settings.window now

end CheckpointCache

end Metering
