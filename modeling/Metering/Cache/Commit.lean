import Metering.Cache.Basic
import Metering.Plan

/-!
# Keeping checkpoints that lookups found

A checkpoint is kept unless its instant has one already or the counter would
run backwards. Those of one batch are tried one after another, so that each
counts as a neighbour for the ones after it.
-/

namespace Metering

namespace CheckpointCache

variable {σ : Type} [Scalar σ]

/-- Tries to keep a checkpoint. The event is none when its instant already has one. -/
def keep (cache : CheckpointCache σ) (checkpoint : Checkpoint σ) :
    CheckpointCache σ × Option CacheEvent :=
  let series := cache.seriesOf checkpoint.source
  if (series.at? checkpoint.instant).isSome then
    (cache, none)
  else if series.fits checkpoint then
    (cache.withSeries checkpoint.source (series.insert checkpoint), some .created)
  else
    (cache, some .rejected)

/-- Tries to keep each checkpoint of a batch. The events are those of the batch in order. -/
def commit (cache : CheckpointCache σ) :
    List (Checkpoint σ) → CheckpointCache σ × List CacheEvent
  | [] => (cache, [])
  | checkpoint :: rest =>
    let (kept, event) := cache.keep checkpoint
    let (final, events) := kept.commit rest
    (final, event.toList ++ events)

end CheckpointCache

end Metering
