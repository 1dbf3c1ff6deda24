import Metering.Bracket.Lookup
import Metering.Cache.Basic
import Metering.Grid
import Metering.Timeline.Merge

/-!
# Bringing checkpoints up to date

A reading that arrives changes the counter between its neighbours and nowhere
else. The grid instants there get a checkpoint, or a new value for the one they
have, as far as the readings around them have settled: those after the reading
only once the next reading is older than the window. The new values are tried
in order against the checkpoints that stay, so that the series never runs
backwards; a checkpoint whose new value is refused is dropped.
-/

namespace Metering

/-- A checkpoint proposed for a series. -/
structure Candidate (σ : Type) where
  /-- The checkpoint. -/
  checkpoint : Checkpoint σ
  /-- Whether the series has a checkpoint at its instant. -/
  replaces : Bool
deriving Repr

/-- The readings around a new one. -/
structure Neighbours (σ : Type) where
  /-- The reading before, if any. -/
  previous : Option (Reading σ)
  /-- The new reading. -/
  reading : Reading σ
  /-- The reading after, if any. -/
  following : Option (Reading σ)
deriving Repr

namespace Neighbours

variable {σ : Type}

/-- The stretch in which the counter has changed and has settled. -/
def settledWindow (neighbours : Neighbours σ) (window : Span) (now : Instant) : Window where
  start :=
    match neighbours.previous with
    | some previous => .exclusive previous.instant
    | none => .inclusive neighbours.reading.instant
  stop :=
    match neighbours.following with
    | some following =>
      if window < now.since following.instant then
        .exclusive following.instant
      else
        .inclusive neighbours.reading.instant
    | none => .inclusive neighbours.reading.instant

/-- The counter at an instant, from the reading and its neighbour on that side. -/
def counterAt [Scalar σ] (neighbours : Neighbours σ) (boundary : Instant) : Except QueryError σ :=
  let reading := neighbours.reading
  if boundary = reading.instant then
    (Bracket.exact .cumulativeEnergy reading).interpolate
  else if boundary < reading.instant then
    match neighbours.previous with
    | some previous => do
      let bracket ← Bracket.of? .cumulativeEnergy previous reading boundary
      bracket.interpolate
    | none => .error (.outOfRange reading.source boundary)
  else
    match neighbours.following with
    | some following => do
      let bracket ← Bracket.of? .cumulativeEnergy reading following boundary
      bracket.interpolate
    | none => .error (.outOfRange reading.source boundary)

end Neighbours

/-! ## Proposing -/

/-- What a proposal depends on beside the readings. -/
structure ProposalRules where
  /-- The source whose series it is. -/
  id : SourceId
  /-- What late data does to finalized checkpoints. -/
  policy : LateDataPolicy
  /-- The window of the source. -/
  window : Span
  /-- When the proposal is made. -/
  now : Instant

namespace ProposalRules

variable {σ : Type}

/-- Whether a checkpoint may not change any more. -/
def isFrozen (rules : ProposalRules) (checkpoint : Checkpoint σ) : Bool :=
  rules.policy = .freeze && checkpoint.maturity rules.now rules.window = .finalized

variable [Scalar σ]

/-- Proposes a checkpoint for each of some instants, given with the ones that are there, after the
candidates so far. The number counts the instants left alone because their checkpoint is frozen, up
to the end or to the first instant without a counter. -/
def propose (rules : ProposalRules) (neighbours : Neighbours σ) (frozen : Nat)
    (sofar : List (Candidate σ)) :
    List (Instant × Option (Checkpoint σ)) → Nat × Except QueryError (List (Candidate σ))
  | [] => (frozen, .ok sofar.reverse)
  | (boundary, existing) :: rest =>
    if existing.any rules.isFrozen then
      propose rules neighbours (frozen + 1) sofar rest
    else
      match neighbours.counterAt boundary with
      | .ok value =>
        let checkpoint : Checkpoint σ := ⟨rules.id, boundary, value, rules.now⟩
        propose rules neighbours frozen (⟨checkpoint, existing.isSome⟩ :: sofar) rest
      | .error error => (frozen, .error error)

end ProposalRules

/-! ## Reviewing -/

/-- The checkpoints of a series that candidates are tried against: those that stay between the
first and the last candidate, and the nearest one on either side. -/
def Timeline.neighbourhood {σ : Type} (series : Series σ) (candidates : List (Candidate σ)) :
    Series σ :=
  match candidates.head?, candidates.getLast? with
  | some first, some last =>
    let low := first.checkpoint.instant
    let high := last.checkpoint.instant
    let lowest := ((series.below? low).map Checkpoint.instant).getD low
    let highest := ((series.above? high).map Checkpoint.instant).getD high
    (series.between lowest highest).difference (.ofList (candidates.map Candidate.checkpoint))
  | _, _ => .empty

/-- What has come of the candidates so far. -/
structure Review (σ : Type) where
  /-- The series as it will be around the candidates. -/
  view : Series σ
  /-- Checkpoints to write, latest first. -/
  accepted : List (Checkpoint σ)
  /-- Instants whose checkpoint goes, latest first. -/
  dropped : List Instant
  /-- What happened to each candidate, latest first. -/
  events : List CacheEvent

namespace Review

variable {σ : Type} [Scalar σ]

/-- Tries one candidate. -/
def judge (review : Review σ) (candidate : Candidate σ) : Review σ :=
  let checkpoint := candidate.checkpoint
  if review.view.fits checkpoint then
    { view := review.view.insert checkpoint
      accepted := checkpoint :: review.accepted
      dropped := review.dropped
      events := (if candidate.replaces then .refreshed else .created) :: review.events }
  else
    { review with
      dropped := if candidate.replaces then checkpoint.instant :: review.dropped else review.dropped
      events := .rejected :: review.events }

/-- Tries candidates one after another, each against a series and the ones accepted before it. -/
def of (view : Series σ) (candidates : List (Candidate σ)) : Review σ :=
  candidates.foldl judge ⟨view, [], [], []⟩

/-- Carries a review over to the whole series: what is dropped goes, and what is accepted takes the
place of what is there. -/
def apply (review : Review σ) (series : Series σ) : Series σ :=
  (Timeline.ofList review.accepted.reverse).union
    (series.difference (Timeline.ofList review.dropped.reverse))

end Review

/-! ## Taking in a reading -/

namespace CheckpointCache

variable {σ : Type} [Scalar σ]

/-- Looks up the energy readings on either side of a new one. -/
def neighboursOf (id : SourceId) (reading : Reading σ) : Attempt σ (Neighbours σ) := do
  let previous ←
    match reading.instant.justBefore? with
    | some time => Attempt.nearestBefore id time .cumulativeEnergy
    | none => pure none
  let following ←
    match reading.instant.justAfter? with
    | some time => Attempt.nearestAfter id time .cumulativeEnergy
    | none => pure none
  return ⟨previous, reading, following⟩

/-- The grid instants that a new reading brings up to date. -/
def affected (cache : CheckpointCache σ) (source : Source σ) (settings : CacheSettings)
    (neighbours : Neighbours σ) (now : Instant) : List Instant :=
  (Grid.mk source.createdAt settings.interval).within
    (neighbours.settledWindow settings.window now) cache.config.maxBoundariesPerIngest

/-- The series of a source brought up to date with a new reading, and how many checkpoints were
written. -/
def maintain (cache : CheckpointCache σ) (source : Source σ) (settings : CacheSettings)
    (reading : Reading σ) (now : Instant) : Attempt σ (Nat × Series σ) := do
  let neighbours ← neighboursOf source.id reading
  let series := cache.seriesOf source.id
  let rules : ProposalRules := ⟨source.id, cache.config.lateDataPolicy, settings.window, now⟩
  let boundaries := cache.affected source settings neighbours now
  let (frozen, proposed) :=
    rules.propose neighbours 0 [] (boundaries.zip (series.atEach boundaries))
  Attempt.tallyAll (List.replicate frozen .frozenSkip)
  let candidates ← Attempt.ofExcept proposed
  let review := Review.of (series.neighbourhood candidates) candidates
  Attempt.tallyAll review.events.reverse
  return (review.accepted.length, review.apply series)

/-- Stores a reading and brings the checkpoints of a source up to date. Only the store's refusal
of the reading is a failure; if the upkeep fails, the series stays as it was. -/
def ingest (cache : CheckpointCache σ) (source : Source σ) (reading : Reading σ) (now : Instant) :
    Attempt σ (Nat × CheckpointCache σ) := do
  Attempt.insert reading
  match cache.settingsFor? source with
  | none => return (0, cache)
  | some settings =>
    if reading.energy.isNone ∨ now.since reading.instant ≤ settings.window then
      return (0, cache)
    else
      match ← (cache.maintain source settings reading now).outcome with
      | .ok (written, series) => return (written, cache.withSeries source.id series)
      | .error _ =>
        Attempt.tally .fallback
        return (0, cache)

end CheckpointCache

end Metering
