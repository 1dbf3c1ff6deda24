import Metering.Database
import Metering.Proofs.Catalog
import Metering.Proofs.Writing

/-!
# A cache in use

A session of a checkpoint cache is a run of its own operations in any order:
readings are taken in, counters are looked up, checkpoints that lookups offered
are kept whenever that is asked for, those of a source are forgotten, and the
clock is set. The store is any service. What a session may rest on is told
action by action (`CacheSession.AllAlong`), and what each action keeps holds of
whole sessions (`CacheSession.run_induction`).
-/

namespace Metering

/-- What can be done with a checkpoint cache. -/
inductive CacheAction (σ : Type) where
  /-- A reading is stored and the checkpoints of a source are brought up to date with it. -/
  | ingest (source : Source σ) (reading : Reading σ)
  /-- A counter is looked up. -/
  | counterAt (source : Source σ) (time : Instant)
  /-- Checkpoints are to be kept. -/
  | commit (batch : List (Checkpoint σ))
  /-- The checkpoints of a source are forgotten. -/
  | evict (id : SourceId)
  /-- The clock is set. -/
  | setNow (now : Instant)

/-- The time on the clock after an action. -/
def CacheAction.clock {σ : Type} (now : Instant) : CacheAction σ → Instant
  | setNow later => later
  | _ => now

/-- A checkpoint cache with its store, its clock and its counters, and the checkpoints that lookups
have offered. -/
structure CacheSession (σ ω : Type) where
  /-- The cache, the clock, the store and the counters. -/
  engine : Engine σ ω
  /-- What lookups have offered so far, latest first. -/
  offered : List (Checkpoint σ)

namespace CacheSession

variable {σ ω : Type}

/-- A session that begins without checkpoints. -/
def new (config : Config) (world : ω) (now : Instant) : CacheSession σ ω :=
  ⟨.new config world now, []⟩

/-- The checkpoints of a source. -/
def seriesOf (session : CacheSession σ ω) (id : SourceId) : Series σ :=
  session.engine.cache.seriesOf id

/-- The time on the clock. -/
def now (session : CacheSession σ ω) : Instant := session.engine.now

section Steps

variable [Scalar σ] (serve : Service σ ω)

/-- The session after an action. -/
def step (session : CacheSession σ ω) : CacheAction σ → CacheSession σ ω
  | .ingest source reading =>
    { session with engine :=
        (session.engine.takeIn serve
          (session.engine.cache.ingest source reading session.now)).2 }
  | .counterAt source time =>
    let (outcome, engine) := session.engine.perform serve .none
      (session.engine.cache.counterAt source time session.now)
    ⟨engine, (outcome.toOption.bind CounterRead.pending).toList ++ session.offered⟩
  | .commit batch => { session with engine := (session.engine.commit batch).2 }
  | .evict id => { session with engine := (session.engine.evict id).2 }
  | .setNow now => { session with engine := session.engine.setNow now }

/-- The session after one action after another. -/
def run (session : CacheSession σ ω) (actions : List (CacheAction σ)) : CacheSession σ ω :=
  actions.foldl (step serve) session

/-- Each of some actions meets a condition on the session when it is taken. -/
def AllAlong (condition : CacheSession σ ω → CacheAction σ → Prop) :
    CacheSession σ ω → List (CacheAction σ) → Prop
  | _, [] => True
  | session, action :: rest =>
    condition session action ∧ (session.step serve action).AllAlong condition rest

variable {serve} {condition : CacheSession σ ω → CacheAction σ → Prop}

/-- A condition that always holds is met all along. -/
theorem allAlong_of_forall (always : ∀ session action, condition session action)
    (session : CacheSession σ ω) (actions : List (CacheAction σ)) :
    session.AllAlong serve condition actions := by
  induction actions generalizing session with
  | nil => trivial
  | cons action rest ih => exact ⟨always session action, ih _⟩

/-- A condition is met all along if it is up to some action and from there on. -/
theorem allAlong_append_iff (session : CacheSession σ ω) (early late : List (CacheAction σ)) :
    session.AllAlong serve condition (early ++ late) ↔
      session.AllAlong serve condition early ∧
        (session.run serve early).AllAlong serve condition late := by
  induction early generalizing session with
  | nil => exact (and_iff_right trivial).symm
  | cons action rest ih => exact (and_congr_right fun _ => ih _).trans and_assoc.symm

/-- A condition is met all along together with one that each of the actions meets. -/
theorem AllAlong.and {other : CacheAction σ → Prop} {session : CacheSession σ ω}
    {actions : List (CacheAction σ)} (along : session.AllAlong serve condition actions)
    (each : ∀ action ∈ actions, other action) :
    session.AllAlong serve (fun session action => condition session action ∧ other action)
      actions := by
  induction actions generalizing session with
  | nil => trivial
  | cons first rest ih =>
    exact ⟨⟨along.1, each first List.mem_cons_self⟩,
      ih along.2 fun action member => each action (List.mem_cons_of_mem first member)⟩

/-- What every action that meets a condition keeps holds after all of them. -/
theorem run_induction (holds : CacheSession σ ω → Prop)
    (keeps : ∀ session action, holds session → condition session action →
      holds (session.step serve action))
    {session : CacheSession σ ω} (initially : holds session) {actions : List (CacheAction σ)}
    (along : session.AllAlong serve condition actions) : holds (session.run serve actions) := by
  induction actions generalizing session with
  | nil => exact initially
  | cons action rest ih => exact ih (keeps session action initially along.1) along.2

/-! ## What an action does -/

section Possible

variable {possible : Possibility σ}
  (answers : ∀ request world, possible request (serve request world).1.answer)
include answers

/-- A reading that is taken in leaves the cache with what came of it. -/
theorem exists_step_ingest (session : CacheSession σ ω) (source : Source σ) (reading : Reading σ) :
    ∃ events outcome world elapsed,
      session.engine.cache.Taken source reading session.now events outcome ∧
      session.step serve (.ingest source reading) =
        ⟨⟨(outcome.toOption.map Prod.snd).getD session.engine.cache, session.now,
          ⟨world, elapsed, events.foldl Tally.add session.engine.progress.tally⟩⟩,
          session.offered⟩ := by
  obtain ⟨events, outcome, world, elapsed, came, same⟩ := Engine.exists_takeIn_eq answers
    session.engine (session.engine.cache.ingest source reading session.now)
  refine ⟨events, outcome, world, elapsed, CheckpointCache.taken_of_yields came, ?_⟩
  unfold step
  dsimp only
  rw [same]
  rfl

/-- A lookup leaves the cache as it is, and offers what it found. -/
theorem exists_step_counterAt (session : CacheSession σ ω) (source : Source σ) (time : Instant) :
    ∃ events outcome world elapsed,
      (session.engine.cache.counterAt source time session.now).Yields possible events outcome ∧
      session.step serve (.counterAt source time) =
        ⟨{ session.engine with
          progress := ⟨world, elapsed, events.foldl Tally.add session.engine.progress.tally⟩ },
          (outcome.toOption.bind CounterRead.pending).toList ++ session.offered⟩ := by
  obtain ⟨events, outcome, world, elapsed, came, same⟩ := Engine.exists_perform_eq answers
    session.engine (session.engine.cache.counterAt source time session.now)
  refine ⟨events, outcome, world, elapsed, came, ?_⟩
  unfold step
  dsimp only
  rw [same]

end Possible

/-- No action changes the configuration. -/
theorem config_step (session : CacheSession σ ω) (action : CacheAction σ) :
    (session.step serve action).engine.cache.config = session.engine.cache.config := by
  have answers := Possibility.any_answer serve
  cases action with
  | ingest source reading =>
    obtain ⟨_, _, _, _, taken, same⟩ := exists_step_ingest answers session source reading
    rw [same]
    cases taken <;> rfl
  | counterAt source time =>
    obtain ⟨_, _, _, _, _, same⟩ := exists_step_counterAt answers session source time
    rw [same]
  | commit batch => exact CheckpointCache.config_commit batch session.engine.cache
  | evict id => rfl
  | setNow now => rfl

/-- The clock is as an action sets it. -/
theorem now_step (session : CacheSession σ ω) (action : CacheAction σ) :
    (session.step serve action).now = action.clock session.now := by
  have answers := Possibility.any_answer serve
  cases action with
  | ingest source reading =>
    obtain ⟨_, _, _, _, _, same⟩ := exists_step_ingest answers session source reading
    rw [same]
    rfl
  | counterAt source time =>
    obtain ⟨_, _, _, _, _, same⟩ := exists_step_counterAt answers session source time
    rw [same]
    rfl
  | commit batch => rfl
  | evict id => rfl
  | setNow now => rfl

end Steps

/-- An action goes by fixed definitions, has only such checkpoints kept as lookups have offered, and
sets the clock forward if at all. -/
def Obeys (definitions : SourceId → Option (Source σ)) (session : CacheSession σ ω) :
    CacheAction σ → Prop
  | .ingest source _ => definitions source.id = some source
  | .counterAt source _ => definitions source.id = some source
  | .commit batch => ∀ checkpoint ∈ batch, checkpoint ∈ session.offered
  | .evict _ => True
  | .setNow now => session.now ≤ now

/-! ## A condition on every checkpoint -/

/-- Every checkpoint that is kept is in the series of its source and meets a condition, and so does
every one that has been offered. -/
structure Everywhere (session : CacheSession σ ω) (meets : Checkpoint σ → Prop) : Prop where
  /-- What is kept meets the condition. -/
  kept : ∀ id, ∀ checkpoint ∈ (session.seriesOf id).entries,
    checkpoint.source = id ∧ meets checkpoint
  /-- What has been offered meets the condition. -/
  offered : ∀ checkpoint ∈ session.offered, meets checkpoint

namespace Everywhere

variable {session : CacheSession σ ω} {meets other : Checkpoint σ → Prop}

/-- A session that begins without checkpoints has none that misses a condition. -/
theorem new (config : Config) (world : ω) (now : Instant) :
    (CacheSession.new config world now : CacheSession σ ω).Everywhere meets :=
  ⟨fun _ _ member => absurd member List.not_mem_nil, fun _ member => absurd member List.not_mem_nil⟩

/-- A condition that follows from one that is met is met. -/
theorem imp (everywhere : session.Everywhere meets)
    (implies : ∀ checkpoint, meets checkpoint → other checkpoint) : session.Everywhere other :=
  ⟨fun id checkpoint member =>
      (everywhere.kept id checkpoint member).imp_right (implies checkpoint),
    fun checkpoint member => implies checkpoint (everywhere.offered checkpoint member)⟩

/-- An offer that meets a condition leaves it met. -/
theorem offering (everywhere : session.Everywhere meets) {engine : Engine σ ω}
    (same : engine.cache = session.engine.cache) {outcome : Except QueryError (CounterRead σ)}
    (offers : ∀ read checkpoint, outcome = .ok read → read.pending = some checkpoint →
      meets checkpoint) :
    (⟨engine, (outcome.toOption.bind CounterRead.pending).toList ++ session.offered⟩ :
      CacheSession σ ω).Everywhere meets := by
  refine ⟨fun id checkpoint member => ?_, fun checkpoint member => ?_⟩
  · change checkpoint ∈ (engine.cache.seriesOf id).entries at member
    rw [same] at member
    exact everywhere.kept id checkpoint member
  · rcases List.mem_append.1 member with fresh | before
    · cases outcome with
      | error error => cases fresh
      | ok read => exact offers read checkpoint rfl (Option.mem_toList.1 fresh)
    · exact everywhere.offered checkpoint before

/-- A new series of a source leaves a condition met if what it adds meets it. -/
theorem splicing (everywhere : session.Everywhere meets) (id : SourceId) (series : Series σ)
    {engine : Engine σ ω} (same : engine.cache = session.engine.cache.withSeries id series)
    (each : ∀ checkpoint ∈ series.entries,
      checkpoint.source = id ∧ meets checkpoint ∨ checkpoint ∈ (session.seriesOf id).entries) :
    (⟨engine, session.offered⟩ : CacheSession σ ω).Everywhere meets := by
  refine ⟨fun other checkpoint member => ?_, everywhere.offered⟩
  change checkpoint ∈ (engine.cache.seriesOf other).entries at member
  rw [same, CheckpointCache.seriesOf_withSeries] at member
  split at member
  · rename_i here
    subst here
    rcases each checkpoint member with added | there
    · exact added
    · exact everywhere.kept id checkpoint there
  · exact everywhere.kept other checkpoint member

variable [Scalar σ] {serve : Service σ ω}

/-- Forgetting the checkpoints of a source leaves a condition met. -/
theorem evict (everywhere : session.Everywhere meets) (id : SourceId) :
    (session.step serve (.evict id)).Everywhere meets := by
  refine ⟨fun other checkpoint member => ?_, everywhere.offered⟩
  change checkpoint ∈ ((session.engine.cache.evict id).seriesOf other).entries at member
  rw [CheckpointCache.seriesOf_evict] at member
  split at member
  · cases member
  · exact everywhere.kept other checkpoint member

/-- Keeping what has been offered leaves a condition met. -/
theorem commit (everywhere : session.Everywhere meets) {batch : List (Checkpoint σ)}
    (offered : ∀ checkpoint ∈ batch, checkpoint ∈ session.offered) :
    (session.step serve (.commit batch)).Everywhere meets := by
  refine ⟨fun id checkpoint member => ?_, everywhere.offered⟩
  rcases CheckpointCache.mem_commit member with there | ⟨added, own⟩
  · exact everywhere.kept id checkpoint there
  · exact ⟨own, everywhere.offered checkpoint (offered checkpoint added)⟩

section Possible

variable {possible : Possibility σ}
  (answers : ∀ request world, possible request (serve request world).1.answer)
include answers

/-- A lookup leaves a condition met if what it offers meets it. -/
theorem counterAt (everywhere : session.Everywhere meets) {source : Source σ} {time : Instant}
    (offers : ∀ events read checkpoint,
      (session.engine.cache.counterAt source time session.now).Yields possible events (.ok read) →
        read.pending = some checkpoint → meets checkpoint) :
    (session.step serve (.counterAt source time)).Everywhere meets := by
  obtain ⟨events, outcome, world, elapsed, came, same⟩ :=
    exists_step_counterAt answers session source time
  rw [same]
  refine everywhere.offering ?_ fun read checkpoint found pending => ?_
  · rfl
  · exact offers events read checkpoint (found ▸ came) pending

/-- A reading that is taken in leaves a condition met if what is proposed meets it. -/
theorem ingest (everywhere : session.Everywhere meets) {source : Source σ} {reading : Reading σ}
    (proposes : ∀ settings neighbours,
      session.engine.cache.CallsForUpkeep source settings reading session.now →
      neighbours.reading = reading →
      ∀ candidate ∈ session.engine.cache.proposals source settings neighbours neighbours.counter
        session.now, meets candidate.checkpoint) :
    (session.step serve (.ingest source reading)).Everywhere meets := by
  obtain ⟨events, outcome, world, elapsed, taken, same⟩ :=
    exists_step_ingest answers session source reading
  rw [same]
  cases taken with
  | refused error => exact ⟨everywhere.kept, everywhere.offered⟩
  | idle => exact ⟨everywhere.kept, everywhere.offered⟩
  | failed frozen => exact ⟨everywhere.kept, everywhere.offered⟩
  | upkept settings neighbours calls own =>
    let series := session.engine.cache.spliced source settings neighbours session.now
    apply everywhere.splicing source.id series rfl
    intro checkpoint member
    rcases CheckpointCache.mem_spliced member with ⟨candidate, proposed, rfl⟩ | ⟨there, _⟩
    · have source := CheckpointCache.source_of_mem_proposals _ _ _ _ _ _ proposed
      exact Or.inl ⟨source, proposes settings neighbours calls own candidate proposed⟩
    · exact Or.inr there

end Possible

end Everywhere

/-! ## A day of the hourly meter -/

/-- The checkpoint that a lookup offers on that day. -/
def hourlyCheckpoint : Checkpoint Rat := ⟨"meter", atMinute 60, 60, atMinute 1440⟩

/-- Two readings come in early, and a day later a lookup between them offers a checkpoint that is
kept. -/
def earlyActions : List (CacheAction Rat) :=
  [.ingest hourlyMeter (hourlyReading 0 0), .setNow (atMinute 121),
    .ingest hourlyMeter (hourlyReading 121 121), .setNow (atMinute 1440),
    .counterAt hourlyMeter (atMinute 75), .commit [hourlyCheckpoint]]

/-- After that a reading from between the two comes in, which is off their line. -/
def lateActions : List (CacheAction Rat) := [.ingest hourlyMeter (hourlyReading 90 100)]

/-- The session of that day before anything has happened. -/
def hourlySession : CacheSession Rat (Database Rat) :=
  new .standard ⟨.empty, hourlyCatalog⟩ .epoch

/-- That day goes by the definition of the hourly meter, with the clock going forward. -/
theorem obeys_hourlyActions : hourlySession.AllAlong Database.serve (Obeys hourlyCatalog.get?)
    (earlyActions ++ lateActions) := by
  have offered : ∀ checkpoint ∈ [hourlyCheckpoint],
      checkpoint ∈ (hourlySession.run Database.serve (earlyActions.take 5)).offered := by
    decide +kernel
  have first : Instant.epoch ≤ atMinute 121 := by decide
  have second : atMinute 121 ≤ atMinute 1440 := by decide
  exact ⟨rfl, first, rfl, second, rfl, offered, rfl, trivial⟩

end CacheSession

end Metering
