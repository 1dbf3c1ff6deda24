import Metering.Cache.Lookup
import Metering.Engine.Profile
import Metering.Graph

/-!
# Queries

A query flattens its source and adds up what each leaf contributes: power by
interpolation, energy as the difference of two counters, carbon as energy times
the leaf's own intensity. It is abandoned, if at all, before or during the
lookup of a leaf. The checkpoints its lookups offer are part of its answer, and
are kept only if it has one.
-/

namespace Metering

/-- The answer to a query and the checkpoints found on the way. -/
structure Answer (σ α : Type) where
  /-- What was asked for. -/
  value : α
  /-- Checkpoints worth keeping, in the order found. -/
  found : List (Checkpoint σ)

namespace CheckpointCache

variable {σ : Type} [Scalar σ]

/-- Watt hours in a megawatt hour. -/
def wattHoursPerMegawattHour : Int := 1000000

/-- Milliseconds in an hour. -/
def millisPerHour : Int := 3600000

/-- Refuses an interval that ends before it starts. -/
def checkInterval (start stop : Instant) : Attempt σ Unit :=
  if stop < start then
    throw (.badInterval ("start " ++ start.display ++ " is after end " ++ stop.display))
  else
    pure ()

/-- The power of a source at an instant. -/
def power (id : SourceId) (time : Instant) : Attempt σ (Answer σ σ) := do
  let leaves ← (Graph.flatten id).polled
  let total ← leaves.foldlM (fun total (flat : FlatLeaf σ) => do
    let value ← (Bracket.valueAt flat.leaf.id time .power).polled
    return total + value) Scalar.zero
  return ⟨total, []⟩

/-- The energy of one leaf over an interval, with the checkpoints found after those found before,
latest first. -/
def leafEnergy (cache : CheckpointCache σ) (leaf : Source σ) (start stop now : Instant)
    (found : List (Checkpoint σ)) : Attempt σ (σ × List (Checkpoint σ)) := do
  let first ← (cache.counterAt leaf start now).polled
  let last ← (cache.counterAt leaf stop now).polled
  return (last.value - first.value, last.pending.toList ++ (first.pending.toList ++ found))

/-- The sum over the leaves of what the energy of each counts for. -/
def sumEnergies (cache : CheckpointCache σ) (weigh : Source σ → σ → Except QueryError σ)
    (id : SourceId) (start stop now : Instant) : Attempt σ (Answer σ σ) := do
  checkInterval start stop
  let leaves ← (Graph.flatten id).polled
  if start = stop then
    return ⟨Scalar.zero, []⟩
  let (total, found) ← leaves.foldlM (fun (total, found) (flat : FlatLeaf σ) => do
    let (energy, found) ← cache.leafEnergy flat.leaf start stop now found
    let weighed ← Attempt.ofExcept (weigh flat.leaf energy)
    return (total + weighed, found)) (Scalar.zero, [])
  return ⟨total, found.reverse⟩

/-- The energy of a source over an interval. -/
def energy (cache : CheckpointCache σ) (id : SourceId) (start stop now : Instant) :
    Attempt σ (Answer σ σ) :=
  cache.sumEnergies (fun _ energy => .ok energy) id start stop now

/-- The carbon a leaf's energy stands for. -/
def carbonOf (leaf : Source σ) (energy : σ) : Except QueryError σ :=
  match leaf.carbonIntensity? with
  | some intensity => .ok (energy / Scalar.ofInt wattHoursPerMegawattHour * intensity)
  | none => .error (leaf.invalid "leaf has no carbon intensity")

/-- The carbon of a source over an interval. -/
def carbon (cache : CheckpointCache σ) (id : SourceId) (start stop now : Instant) :
    Attempt σ (Answer σ σ) :=
  cache.sumEnergies carbonOf id start stop now

/-- The mean power of a source over an interval. -/
def averagePower (cache : CheckpointCache σ) (id : SourceId) (start stop now : Instant) :
    Attempt σ (Answer σ σ) := do
  checkInterval start stop
  if start = stop then
    throw (.badInterval "average power needs a non-empty interval")
  let answer ← cache.energy id start stop now
  let hours : σ := Scalar.ofInt (stop.since start).millis / Scalar.ofInt millisPerHour
  return { answer with value := answer.value / hours }

/-- The counter of a leaf at an instant. -/
def counterQuery (cache : CheckpointCache σ) (id : SourceId) (time now : Instant) :
    Attempt σ (Answer σ σ) := do
  let source ← (Graph.resolve id).polled
  if !source.isLeaf then
    throw (source.invalid "counters are only kept for leaf sources")
  let read ← (cache.counterAt source time now).polled
  return ⟨read.value, read.pending.toList⟩

/-! ## Profiles -/

/-- The energy of one bucket. -/
structure Bucket (σ : Type) where
  /-- When the bucket starts. -/
  start : Instant
  /-- When the bucket ends. -/
  stop : Instant
  /-- The energy in between. -/
  energy : σ
deriving Repr

/-- The buckets between edges, without any energy yet. -/
def emptyBuckets (edges : List Instant) : List (Bucket σ) :=
  edges.zipWith (fun start stop => ⟨start, stop, Scalar.zero⟩) edges.tail

/-- Adds to each bucket what a counter gained between its edges. -/
def addGains (buckets : List (Bucket σ)) (counters : List σ) : List (Bucket σ) :=
  let gains := counters.zipWith (fun first last => last - first) counters.tail
  buckets.zipWith (fun bucket gain => { bucket with energy := bucket.energy + gain }) gains

/-- The energy of a source over an interval, bucket by bucket, from the readings alone. -/
def profile (id : SourceId) (start stop : Instant) (step : Span) :
    Attempt σ (Answer σ (List (Bucket σ))) := do
  checkInterval start stop
  if step < .ofMillis 1 then
    throw (.badInterval "profile step must be at least one millisecond")
  let leaves ← (Graph.flatten id).polled
  if start = stop then
    return ⟨[], []⟩
  let edges ← Attempt.ofExcept (bucketEdges start stop step)
  let buckets ← leaves.foldlM (fun buckets (flat : FlatLeaf σ) => do
    let brackets ← (Bracket.findAll flat.leaf.id edges .cumulativeEnergy).polled
    let counters ← Attempt.ofExcept (Bracket.values brackets)
    return addGains buckets counters) (emptyBuckets edges)
  return ⟨buckets, []⟩

end CheckpointCache

end Metering
