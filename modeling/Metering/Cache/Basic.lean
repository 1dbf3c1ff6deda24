import Metering.Config
import Metering.Registry
import Metering.Source
import Metering.Timeline

/-!
# The checkpoint cache

For each leaf that asks for it the cache keeps a series of checkpoints, the
energy counter at instants of the leaf's grid. A checkpoint enters a series
only where the counter goes on not to run backwards.
-/

namespace Metering

/-- The checkpoints of one source. -/
abbrev Series (σ : Type) := Timeline (Checkpoint σ)

/-- Whether the energy of a checkpoint lies between those of its neighbours in a series. -/
def Timeline.fits {σ : Type} [Scalar σ] (series : Series σ) (checkpoint : Checkpoint σ) : Bool :=
  ((series.below? checkpoint.instant).all fun below =>
    Scalar.atMost below.energy checkpoint.energy) &&
  ((series.above? checkpoint.instant).all fun above =>
    Scalar.atMost checkpoint.energy above.energy)

/-- The checkpoints of every source. -/
structure CheckpointCache (σ : Type) where
  /-- What is kept, and how. -/
  config : Config
  /-- Series by source. -/
  series : Registry (Series σ)

namespace CheckpointCache

variable {σ : Type}

/-- A cache without checkpoints. -/
def new (config : Config) : CheckpointCache σ := ⟨config, .empty⟩

/-- The settings of a source whose counter is kept. -/
def settingsFor? (cache : CheckpointCache σ) (source : Source σ) : Option CacheSettings :=
  if cache.config.cacheEnabled && source.isLeaf then source.cache else none

/-- The checkpoints of a source. -/
def seriesOf (cache : CheckpointCache σ) (id : SourceId) : Series σ :=
  (cache.series.get? id).getD .empty

/-- Gives a source a series. -/
def withSeries (cache : CheckpointCache σ) (id : SourceId) (series : Series σ) :
    CheckpointCache σ :=
  { cache with series := cache.series.insert id series }

/-- Forgets the checkpoints of a source. -/
def evict (cache : CheckpointCache σ) (id : SourceId) : CheckpointCache σ :=
  { cache with series := cache.series.erase id }

end CheckpointCache

end Metering
