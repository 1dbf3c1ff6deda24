import Metering.Database
import Metering.Proofs.Catalog
import Metering.Proofs.Sessions

/-!
# Counters that never run backwards

Whatever is done with a checkpoint cache, in any order, with any settings, at
any time and over any store, the counter of each series goes up from one
checkpoint to the next as far as the values compare at all
(`CacheSession.isAscending_seriesOf`). All it takes is that the comparison carries
over from one pair of values to the next. A checkpoint that is not a number is
then alone in its series.
-/

namespace Metering

variable {σ ω : Type} [Scalar σ]

namespace CheckpointCache

/-- No counter runs backwards, and every checkpoint is in the series of its source. -/
def IsOrdered (cache : CheckpointCache σ) : Prop :=
  ∀ id, (cache.seriesOf id).Rises ∧
    ∀ checkpoint ∈ (cache.seriesOf id).entries, checkpoint.source = id

variable {cache : CheckpointCache σ}

/-- A cache without checkpoints is ordered. -/
theorem isOrdered_new (config : Config) : (new config : CheckpointCache σ).IsOrdered :=
  fun _ => ⟨Timeline.rises_empty, fun _ member => absurd member List.not_mem_nil⟩

/-- A cache stays ordered with a series that rises and is of its source. -/
theorem IsOrdered.withSeries (ordered : cache.IsOrdered) {id : SourceId} {series : Series σ}
    (rises : series.Rises) (own : ∀ checkpoint ∈ series.entries, checkpoint.source = id) :
    (cache.withSeries id series).IsOrdered := by
  intro other
  rw [seriesOf_withSeries]
  split
  · rename_i same
    exact ⟨rises, same ▸ own⟩
  · exact ordered other

/-- A cache stays ordered without the checkpoints of a source. -/
theorem IsOrdered.evict (ordered : cache.IsOrdered) (id : SourceId) :
    (cache.evict id).IsOrdered := by
  intro other
  rw [seriesOf_evict]
  split
  · exact ⟨Timeline.rises_empty, fun _ member => absurd member List.not_mem_nil⟩
  · exact ordered other

variable [Scalar.IsTransitive σ]

/-- A cache stays ordered whatever is to be kept. -/
theorem IsOrdered.keep (ordered : cache.IsOrdered) (checkpoint : Checkpoint σ) :
    (cache.keep checkpoint).1.IsOrdered := by
  unfold CheckpointCache.keep
  dsimp only
  split
  · exact ordered
  · split
    · rename_i fits
      obtain ⟨rises, own⟩ := ordered checkpoint.source
      refine ordered.withSeries (rises.insert fits) fun other member => ?_
      rcases (Timeline.mem_insert ..).1 member with rfl | ⟨there, _⟩
      · rfl
      · exact own other there
    · exact ordered

/-- A cache stays ordered whatever is to be kept one after another. -/
theorem IsOrdered.commit (batch : List (Checkpoint σ)) {cache : CheckpointCache σ}
    (ordered : cache.IsOrdered) : (cache.commit batch).1.IsOrdered := by
  induction batch generalizing cache with
  | nil => exact ordered
  | cons first rest ih => exact ih (ordered.keep first)

/-- A cache stays ordered with what comes of a reading. -/
theorem IsOrdered.taken {source : Source σ} {reading : Reading σ} {now : Instant}
    {events : List CacheEvent} {outcome : Except QueryError (Nat × CheckpointCache σ)}
    (ordered : cache.IsOrdered) (taken : cache.Taken source reading now events outcome) :
    ((outcome.toOption.map Prod.snd).getD cache).IsOrdered := by
  cases taken with
  | refused error => exact ordered
  | idle => exact ordered
  | failed frozen => exact ordered
  | upkept settings neighbours calls own =>
    obtain ⟨rises, sources⟩ := ordered source.id
    refine ordered.withSeries (rises.apply_review (pairwise_proposals _ _ _ _ _ _)
      (marked_proposals _ _ _ _ _ _)) fun checkpoint member => ?_
    rcases mem_spliced member with ⟨candidate, proposed, rfl⟩ | ⟨there, _⟩
    · exact source_of_mem_proposals _ _ _ _ _ _ proposed
    · exact sources checkpoint there

end CheckpointCache

/-- A series is as it should be for a source: its checkpoints are later and later and its counter
never runs backwards, each checkpoint is found at its own instant and is of the source, and one
whose counter compares with nothing is alone. -/
structure Timeline.IsAscending (series : Series σ) (id : SourceId) : Prop where
  /-- Instants and counters go up. -/
  ordered : series.toList.Pairwise fun earlier later =>
    earlier.instant < later.instant ∧ Scalar.atMost earlier.energy later.energy
  /-- What is found at an instant is the source's checkpoint for that instant. -/
  own : ∀ time checkpoint, series.at? time = some checkpoint →
    checkpoint.instant = time ∧ checkpoint.source = id
  /-- What compares with nothing is alone. -/
  alone : ∀ checkpoint ∈ series.toList,
    (∀ value, ¬ Scalar.atMost checkpoint.energy value ∧ ¬ Scalar.atMost value checkpoint.energy) →
      series.toList = [checkpoint]

/-- A series of a source that rises is as it should be. -/
theorem Timeline.Rises.isAscending {series : Series σ} {id : SourceId} (rises : series.Rises)
    (own : ∀ checkpoint ∈ series.entries, checkpoint.source = id) : series.IsAscending id where
  ordered := List.pairwise_reverse.2 <| series.newestFirst.imp_of_mem
    fun {newer older} held member less => ⟨less, rises older member newer held less⟩
  own time checkpoint found := by
    obtain ⟨member, same⟩ := (at?_eq_some_iff ..).1 found
    exact ⟨same, own checkpoint member⟩
  alone checkpoint member unordered := by
    unfold toList
    rw [rises.eq_singleton (List.mem_reverse.1 member) unordered, List.reverse_singleton]

namespace CacheSession

variable [Scalar.IsTransitive σ] {serve : Service σ ω}

/-- Every action leaves the cache ordered. -/
theorem isOrdered_step {session : CacheSession σ ω} (ordered : session.engine.cache.IsOrdered)
    (action : CacheAction σ) : (session.step serve action).engine.cache.IsOrdered := by
  have answers := Possibility.any_answer serve
  cases action with
  | ingest source reading =>
    obtain ⟨_, _, _, _, taken, same⟩ := exists_step_ingest answers session source reading
    rw [same]
    exact ordered.taken taken
  | counterAt source time =>
    obtain ⟨_, _, _, _, _, same⟩ := exists_step_counterAt answers session source time
    rw [same]
    exact ordered
  | commit batch => exact CheckpointCache.IsOrdered.commit batch ordered
  | evict id => exact ordered.evict id
  | setNow now => exact ordered

/-- Whatever is done with a cache leaves it ordered. -/
theorem isOrdered_run {session : CacheSession σ ω} (ordered : session.engine.cache.IsOrdered)
    (actions : List (CacheAction σ)) : (session.run serve actions).engine.cache.IsOrdered := by
  have along : session.AllAlong serve (fun _ _ => True) actions :=
    allAlong_of_forall (fun _ _ => trivial) session actions
  exact run_induction (fun session => session.engine.cache.IsOrdered)
    (fun _ action before _ => isOrdered_step before action) ordered along

/-- Whatever is done with a new cache, the series of each source is as it should be. -/
theorem isAscending_seriesOf (serve : Service σ ω) (config : Config) (world : ω) (now : Instant)
    (actions : List (CacheAction σ)) (id : SourceId) :
    (((new config world now).run serve actions).seriesOf id).IsAscending id := by
  have start : (new config world now : CacheSession σ ω).engine.cache.IsOrdered :=
    CheckpointCache.isOrdered_new config
  have ordered : ((new config world now).run serve actions).engine.cache.IsOrdered :=
    isOrdered_run start actions
  exact Timeline.Rises.isAscending (ordered id).1 (ordered id).2

/-- A meter whose counter is kept in doubles every hour and settles after a minute. -/
def doubleMeter : Source Float := ⟨"meter", .leaf 0, .consumption, .epoch, some ⟨3600, 60⟩⟩

/-- What no number divided by itself is. -/
def notANumber : Float := 0 / 0

/-- A day on which values that are no numbers are to be kept, after a reading of one meter and as
the first value of another. -/
def doubleActions : List (CacheAction Float) :=
  [.ingest doubleMeter ⟨"meter", atMinute 0, none, some 0⟩, .setNow (atMinute 1440),
    .ingest doubleMeter ⟨"meter", atMinute 150, none, some 5⟩,
    .commit [⟨"meter", atMinute 180, notANumber, .epoch⟩,
      ⟨"spare", atMinute 60, notANumber, .epoch⟩, ⟨"spare", atMinute 120, 1, .epoch⟩]]

/-- On that day the first meter keeps the two checkpoints that its readings make, and the other one
what is no number alone. -/
theorem isAscending_doubleActions :
    let session := (new .standard ⟨.empty, .empty⟩ .epoch).run Database.serve doubleActions
    (session.seriesOf "meter").IsAscending "meter" ∧
      (session.seriesOf "spare").IsAscending "spare" ∧
      (session.seriesOf "meter").toList.map Checkpoint.instant = [atMinute 60, atMinute 120] ∧
      (session.seriesOf "spare").toList.map Checkpoint.instant = [atMinute 60] :=
  ⟨isAscending_seriesOf Database.serve .standard ⟨.empty, .empty⟩ .epoch doubleActions "meter",
    isAscending_seriesOf Database.serve .standard ⟨.empty, .empty⟩ .epoch doubleActions "spare",
    by decide +kernel, by decide +kernel⟩

end CacheSession

end Metering
