import Metering.Proofs.Settled

/-!
# Forgetting the checkpoints of a source

Once the checkpoints of a source have been forgotten its series starts over:
what it holds later was worked out since then, by an ingestion or a lookup, from
the readings that the store had at that time. There is one exception. What a
lookup had offered before can be kept afterwards, and nothing stands in its way,
even if the readings that it came from are gone
(`worked_out_or_kept_late_of_evict`).
-/

namespace Metering

/-- What can happen to a cache in use: one of its own actions, or the removal of the readings of a
source from its store. -/
inductive Happening (σ : Type) where
  /-- The cache is used. -/
  | act (action : CacheAction σ)
  /-- The store loses the readings of a source. -/
  | removeReadings (id : SourceId)

namespace CacheSession

variable {σ : Type} [Scalar σ]

/-- The session after something has happened. -/
def after (session : CacheSession σ (Database σ)) : Happening σ → CacheSession σ (Database σ)
  | .act action => session.step Database.serve action
  | .removeReadings id =>
    let database := session.engine.progress.world
    { session with engine :=
        { session.engine with progress :=
            { session.engine.progress with world :=
                { database with readings := database.readings.removeSource id } } } }

/-- The session after one thing after another has happened. -/
def afterAll (session : CacheSession σ (Database σ)) (happenings : List (Happening σ)) :
    CacheSession σ (Database σ) :=
  happenings.foldl after session

/-- The readings of a session. -/
def readings (session : CacheSession σ (Database σ)) : ReadingStore σ :=
  session.engine.progress.world.readings

/-- A reading that is taken in is one of a valid source, and only what was offered is to be kept. -/
def Heeds (session : CacheSession σ (Database σ)) : Happening σ → Prop
  | .act (.ingest source reading) => source.validate = .ok () ∧ reading.source = source.id
  | .act (.commit batch) => ∀ checkpoint ∈ batch, checkpoint ∈ session.offered
  | _ => True

/-- Each of some happenings is heeded when it comes. -/
def HeedsAll : CacheSession σ (Database σ) → List (Happening σ) → Prop
  | _, [] => True
  | session, first :: rest => session.Heeds first ∧ (session.after first).HeedsAll rest

/-- A happening works a checkpoint out: an ingestion or a lookup, at the time on the clock, from the
readings that are then in the store. -/
inductive WorksOut (session : CacheSession σ (Database σ)) (checkpoint : Checkpoint σ) :
    Happening σ → Prop
  /-- A reading is stored, and the readings with it give the counter. -/
  | ingest {source : Source σ} {reading : Reading σ} {stored : ReadingStore σ}
    (inserted : session.readings.insert reading = .ok stored) (own : checkpoint.source = source.id)
    (computed : checkpoint.computedAt = session.now)
    (agrees : stored.Agrees checkpoint.source checkpoint) :
    WorksOut session checkpoint (.act (.ingest source reading))
  /-- A counter is looked up, and the readings give the counter of the checkpoint. -/
  | counterAt {source : Source σ} {time : Instant} (own : checkpoint.source = source.id)
    (computed : checkpoint.computedAt = session.now)
    (agrees : session.readings.Agrees checkpoint.source checkpoint) :
    WorksOut session checkpoint (.act (.counterAt source time))

/-! ## One happening -/

variable {session : CacheSession σ (Database σ)} {checkpoint : Checkpoint σ} {id : SourceId}

/-- What an ingestion leaves in a series was there or is worked out by it. -/
theorem mem_seriesOf_ingest {source : Source σ} {reading : Reading σ}
    (heeds : session.Heeds (.act (.ingest source reading)))
    (member : checkpoint ∈ ((session.step Database.serve (.ingest source reading)).seriesOf
      id).entries) :
    checkpoint ∈ (session.seriesOf id).entries ∨
      session.WorksOut checkpoint (.act (.ingest source reading)) := by
  obtain ⟨valid, own⟩ := heeds
  change checkpoint ∈ ((session.engine.takeIn Database.serve
    (session.engine.cache.ingest source reading session.now)).2.cache.seriesOf id).entries at member
  cases inserted : session.engine.progress.world.readings.insert reading with
  | error error =>
    rw [Engine.takeIn_ingest_of_error inserted] at member
    exact Or.inl member
  | ok stored =>
    let after : Database σ := { session.engine.progress.world with readings := stored }
    have there : session.engine.progress.world.readings.insert reading = .ok after.readings :=
      inserted
    obtain ⟨_, final, result, _, each⟩ :=
      session.engine.cache.exists_upkeep session.now valid there own
    rw [Engine.takeIn_ingest inserted result] at member
    rcases each id checkpoint member with ⟨_, proposed⟩ | ⟨held, _⟩
    · obtain ⟨same, computed, _, _, _, _, agrees⟩ := proposed.spec valid there own
      exact Or.inr (.ingest inserted same computed (same ▸ agrees))
    · exact Or.inl held

/-- A lookup leaves the series as they are, and what has been offered after it was offered before or
is worked out by it. -/
theorem mem_offered_counterAt {source : Source σ} {time : Instant}
    (member : checkpoint ∈ (session.step Database.serve (.counterAt source time)).offered) :
    checkpoint ∈ session.offered ∨
      session.WorksOut checkpoint (.act (.counterAt source time)) := by
  obtain ⟨tally, same⟩ := exists_step_counterAt_eq session source time
  rw [same] at member
  rcases List.mem_append.1 member with fresh | before
  · cases came : (session.engine.cache.counterAt source time session.now).result
        session.engine.progress.world with
    | error error =>
      rw [came] at fresh
      cases fresh
    | ok read =>
      rw [came] at fresh
      have pending : read.pending = some checkpoint := Option.mem_toList.1 fresh
      have computed := CheckpointCache.computedAt_of_pending (Attempt.yields_of_result came) pending
      obtain ⟨own, _, _, _, _, agrees⟩ := CheckpointCache.spec_of_pending came pending
      exact Or.inr (.counterAt own computed (own ▸ agrees))
  · exact Or.inl before

/-- What is in a series after something has happened was there, is worked out by it, or was to be
kept. -/
theorem mem_seriesOf_after {happening : Happening σ} (heeds : session.Heeds happening)
    (member : checkpoint ∈ ((session.after happening).seriesOf id).entries) :
    checkpoint ∈ (session.seriesOf id).entries ∨ session.WorksOut checkpoint happening ∨
      ∃ batch, happening = .act (.commit batch) ∧ checkpoint ∈ batch := by
  cases happening with
  | removeReadings other => exact Or.inl member
  | act action =>
    cases action with
    | ingest source reading =>
      exact (mem_seriesOf_ingest heeds member).imp_right Or.inl
    | counterAt source time =>
      obtain ⟨tally, same⟩ := exists_step_counterAt_eq session source time
      change checkpoint ∈ ((session.step Database.serve (.counterAt source time)).seriesOf
        id).entries at member
      rw [same] at member
      exact Or.inl member
    | commit batch =>
      rcases CheckpointCache.mem_commit member with there | ⟨added, _⟩
      · exact Or.inl there
      · exact Or.inr (Or.inr ⟨batch, rfl, added⟩)
    | evict other =>
      change checkpoint ∈ ((session.engine.cache.evict other).seriesOf id).entries at member
      rw [CheckpointCache.seriesOf_evict] at member
      split at member
      · cases member
      · exact Or.inl member
    | setNow now => exact Or.inl member

/-- What has been offered after something has happened was offered before or is worked out by it. -/
theorem mem_offered_after {happening : Happening σ}
    (member : checkpoint ∈ (session.after happening).offered) :
    checkpoint ∈ session.offered ∨ session.WorksOut checkpoint happening := by
  cases happening with
  | removeReadings other => exact Or.inl member
  | act action =>
    cases action with
    | counterAt source time => exact mem_offered_counterAt member
    | _ => exact Or.inl member

/-! ## One happening after another -/

/-- Along the way some happening works a checkpoint out. -/
def WorkedOut (session : CacheSession σ (Database σ)) (happenings : List (Happening σ))
    (checkpoint : Checkpoint σ) : Prop :=
  ∃ early happening late, happenings = early ++ happening :: late ∧
    (session.afterAll early).WorksOut checkpoint happening

/-- What is worked out later on is worked out along the way. -/
theorem WorkedOut.cons {first : Happening σ} {rest : List (Happening σ)}
    (worked : (session.after first).WorkedOut rest checkpoint) :
    session.WorkedOut (first :: rest) checkpoint := by
  obtain ⟨early, happening, late, rfl, works⟩ := worked
  exact ⟨first :: early, happening, late, rfl, works⟩

/-- What a series holds in the end was there, was worked out along the way, or had been offered and
was to be kept along the way. -/
theorem mem_seriesOf_afterAll {happenings : List (Happening σ)}
    (heeds : session.HeedsAll happenings)
    (member : checkpoint ∈ ((session.afterAll happenings).seriesOf id).entries) :
    checkpoint ∈ (session.seriesOf id).entries ∨ session.WorkedOut happenings checkpoint ∨
      checkpoint ∈ session.offered ∧
        ∃ batch, .act (.commit batch) ∈ happenings ∧ checkpoint ∈ batch := by
  induction happenings generalizing session with
  | nil => exact Or.inl member
  | cons first rest ih =>
    rcases ih heeds.2 member with there | worked | ⟨offered, batch, later, kept⟩
    · rcases mem_seriesOf_after heeds.1 there with before | works | ⟨batch, rfl, kept⟩
      · exact Or.inl before
      · exact Or.inr (Or.inl ⟨[], first, rest, rfl, works⟩)
      · exact Or.inr (Or.inr ⟨heeds.1 checkpoint kept, batch, List.mem_cons_self, kept⟩)
    · exact Or.inr (Or.inl worked.cons)
    · rcases mem_offered_after offered with before | works
      · exact Or.inr (Or.inr ⟨before, batch, List.mem_cons_of_mem first later, kept⟩)
      · exact Or.inr (Or.inl ⟨[], first, rest, rfl, works⟩)

/-- What is to be kept finds its place in a series that has been forgotten. -/
theorem mem_commit_of_evict (session : CacheSession σ (Database σ)) (checkpoint : Checkpoint σ) :
    checkpoint ∈ ((session.afterAll [.act (.evict checkpoint.source),
      .removeReadings checkpoint.source, .act (.commit [checkpoint])]).seriesOf
        checkpoint.source).entries := by
  let cache := session.engine.cache.evict checkpoint.source
  have forgotten : cache.seriesOf checkpoint.source = .empty := by
    rw [CheckpointCache.seriesOf_evict, if_pos rfl]
  have kept : (cache.keep checkpoint).1 =
      cache.withSeries checkpoint.source (Timeline.empty.insert checkpoint) := by
    unfold CheckpointCache.keep
    rw [forgotten]
    rfl
  change checkpoint ∈ ((cache.keep checkpoint).1.seriesOf checkpoint.source).entries
  rw [kept, CheckpointCache.seriesOf_withSeries, if_pos rfl]
  exact (Timeline.mem_insert ..).2 (Or.inl rfl)

/-- Once the checkpoints of a source have been forgotten, each one that its series holds later was
worked out since then, or had been offered before and was to be kept since then. The exception is
real: whatever had been offered for the source is there if it is to be kept, whether or not the
readings of the source have been removed. -/
theorem worked_out_or_kept_late_of_evict (session : CacheSession σ (Database σ)) (id : SourceId)
    {happenings : List (Happening σ)}
    (heeds : (session.after (.act (.evict id))).HeedsAll happenings) :
    let evicted := session.after (.act (.evict id))
    (∀ checkpoint ∈ ((evicted.afterAll happenings).seriesOf id).toList,
      evicted.WorkedOut happenings checkpoint ∨
        checkpoint ∈ session.offered ∧
          ∃ batch, .act (.commit batch) ∈ happenings ∧ checkpoint ∈ batch) ∧
    ∀ checkpoint ∈ session.offered, checkpoint.source = id →
      checkpoint ∈ ((evicted.afterAll [.removeReadings id, .act (.commit [checkpoint])]).seriesOf
        id).toList := by
  intro evicted
  constructor
  · intro checkpoint member
    have forgotten : evicted.seriesOf id = .empty := by
      change (session.engine.cache.evict id).seriesOf id = .empty
      rw [CheckpointCache.seriesOf_evict, if_pos rfl]
    rcases mem_seriesOf_afterAll heeds (List.mem_reverse.1 member) with there | later
    · rw [forgotten] at there
      cases there
    · exact later
  · rintro checkpoint - rfl
    exact List.mem_reverse.2 (session.mem_commit_of_evict checkpoint)

/-- A session in which a lookup between two readings of a meter has offered a checkpoint. -/
def offeringSession : CacheSession Rat (Database Rat) :=
  (new .standard ⟨.empty, hourlyCatalog⟩ .epoch).run Database.serve
    [.ingest hourlyMeter (hourlyReading 0 0), .ingest hourlyMeter (hourlyReading 180 6),
      .setNow (atMinute 1440), .counterAt hourlyMeter (atMinute 75)]

/-- The readings of the meter are removed after its checkpoints have been forgotten, and then the
offer is kept. -/
def lingeringHappenings : List (Happening Rat) :=
  [.removeReadings "meter", .act (.commit [⟨"meter", atMinute 60, 2, atMinute 1440⟩])]

/-- The meter then has no readings, but a checkpoint that nothing since has worked out, and a lookup
has its counter for an answer. -/
theorem kept_late_lingeringHappenings :
    let evicted := offeringSession.after (.act (.evict "meter"))
    let final := evicted.afterAll lingeringHappenings
    let lingering : Checkpoint Rat := ⟨"meter", atMinute 60, 2, atMinute 1440⟩
    evicted.HeedsAll lingeringHappenings ∧
    lingering ∈ (final.seriesOf "meter").toList ∧
    (evicted.WorkedOut lingeringHappenings lingering ∨
      lingering ∈ offeringSession.offered ∧
        ∃ batch, .act (.commit batch) ∈ lingeringHappenings ∧ lingering ∈ batch) ∧
    (final.engine.perform Database.serve .none
      (Bracket.valueAt "meter" (atMinute 60) .cumulativeEnergy)).1 =
        .error (.noData "meter" .cumulativeEnergy) ∧
    ((final.engine.query Database.serve .none
      (final.engine.cache.counterQuery "meter" (atMinute 60) final.now)).1 = .ok 2) := by
  intro evicted final lingering
  have offered : ∀ checkpoint ∈ [lingering],
      checkpoint ∈ (evicted.after (.removeReadings "meter")).offered := by decide +kernel
  have heeds : evicted.HeedsAll lingeringHappenings := ⟨trivial, offered, trivial⟩
  have there : lingering ∈ (final.seriesOf "meter").toList := by decide +kernel
  exact ⟨heeds, there,
    (worked_out_or_kept_late_of_evict offeringSession "meter" heeds).1 lingering there,
    by decide +kernel, by decide +kernel⟩

end CacheSession

end Metering
