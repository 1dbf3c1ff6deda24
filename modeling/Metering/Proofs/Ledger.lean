import Metering.Proofs.AtomicIngestion
import Metering.Proofs.Holdings
import Metering.Proofs.Sessions

/-!
# The ledger of a cache

The counters of a cache account for what it does. An upkeep that no failing
store call cuts short counts each grid instant it goes through once
(`CheckpointCache.verdictEvents_spec`), a commit each checkpoint whose instant is
free (`CheckpointCache.commit_spec`), and a lookup that succeeds is counted as one
of three kinds (`CheckpointCache.events_of_counterAt`). What a cache holds is what
has been added, less what was forgotten and less what was lost to a refused
refresh (`CacheSession.ledger`).
-/

namespace Metering

variable {σ : Type}

/-! ## Upkeep between neighbours that carry energy -/

/-- A reading and its neighbours all carry energy. -/
structure Neighbours.CarryEnergy (neighbours : Neighbours σ) : Prop where
  /-- The reading does. -/
  reading : neighbours.reading.carries .cumulativeEnergy
  /-- The reading before does. -/
  previous : ∀ previous, neighbours.previous = some previous → previous.carries .cumulativeEnergy
  /-- The reading after does. -/
  following : ∀ following, neighbours.following = some following →
    following.carries .cumulativeEnergy

/-- The readings on either side of one that carries energy carry energy. -/
theorem ReadingStore.carryEnergy_around (store : ReadingStore σ) (id : SourceId)
    {reading : Reading σ} (carries : reading.carries .cumulativeEnergy) :
    (store.around id reading).CarryEnergy where
  reading := carries
  previous _ found := ((previous_around_eq_some_iff _).1 found).1.2
  following _ found := ((following_around_eq_some_iff _).1 found).1.2

variable [Scalar σ]

/-- Between neighbours that carry energy there is a counter at every instant of the settled part of
the gap. -/
theorem Neighbours.CarryEnergy.counterAt_eq {neighbours : Neighbours σ}
    (carry : neighbours.CarryEnergy) {window : Span} {now time : Instant}
    (inside : (neighbours.settledWindow window now).contains time) :
    neighbours.counterAt time = .ok (neighbours.counter time) := by
  suffices counted : ∃ value, neighbours.counterAt time = .ok value by
    obtain ⟨value, same⟩ := counted
    unfold counter
    rw [same]
  rcases cases_of_contains inside with
    ⟨previous, found, low, high⟩ | sits | ⟨following, found, low, high, _⟩
  · rw [counterAt_of_lt found low high]
    exact Bracket.exists_interpolate_eq_ok time (carry.previous previous found) carry.reading
  · rw [sits, counterAt_instant]
    exact Bracket.exists_interpolate_eq_ok _ carry.reading carry.reading
  · rw [counterAt_of_gt found low high]
    exact Bracket.exists_interpolate_eq_ok time carry.reading (carry.following following found)

namespace CheckpointCache

section Upkeep

variable (cache : CheckpointCache σ) (source : Source σ) (settings : CacheSettings)
  (neighbours : Neighbours σ) (now : Instant)

/-- Bringing a series up to date with a reading that carries energy comes to the verdict on its
candidates. -/
theorem result_maintain_around (database : Database σ) {reading : Reading σ}
    (carries : reading.carries .cumulativeEnergy) :
    (cache.maintain source settings reading now).result database =
        .ok ((cache.verdict source settings (database.readings.around source.id reading)
            now).accepted.length,
          cache.spliced source settings (database.readings.around source.id reading) now) ∧
      (cache.maintain source settings reading now).events database =
        cache.verdictEvents source settings (database.readings.around source.id reading) now :=
  cache.result_maintain_of_counters source settings now fun time affected =>
    (database.readings.carryEnergy_around source.id carries).counterAt_eq
      ((Grid.within_spec settings.interval_nonneg _ _).2 time affected)

/-- A reading that calls for upkeep replaces the series of a source by the verdict on its
candidates. -/
theorem result_upkeep_around (database : Database σ) {reading : Reading σ}
    (calls : cache.CallsForUpkeep source settings reading now) :
    (cache.upkeep source reading now).result database =
        .ok ((cache.verdict source settings (database.readings.around source.id reading)
            now).accepted.length,
          cache.withSeries source.id
            (cache.spliced source settings (database.readings.around source.id reading) now)) ∧
      (cache.upkeep source reading now).events database =
        cache.verdictEvents source settings (database.readings.around source.id reading) now := by
  obtain ⟨result, events⟩ :=
    cache.result_maintain_around source settings now database calls.2.1
  obtain ⟨replaced, counted⟩ := result_upkeep_of_maintain calls result
  exact ⟨replaced, counted.trans events⟩

/-- The verdict on the candidates counts each of them once. -/
theorem counts_verdict :
    (cache.verdict source settings neighbours now).Counts (cache.seriesOf source.id)
      (cache.proposals source settings neighbours neighbours.counter now).length :=
  Review.counts_of _ (cache.marked_proposals source settings neighbours neighbours.counter now)

omit [Scalar σ] in
/-- Each grid instant of an upkeep is left alone or has a candidate. -/
theorem length_affected (counter : Instant → σ) :
    (cache.affected source settings neighbours now).length =
      (cache.slotsAround source settings neighbours now).countP
          (cache.rulesFor source settings now).leavesAlone +
        (cache.proposals source settings neighbours counter now).length := by
  have slots : (cache.slotsAround source settings neighbours now).length =
      (cache.affected source settings neighbours now).length := List.length_map ..
  rw [← slots, List.length_eq_countP_add_countP (cache.rulesFor source settings now).leavesAlone]
  unfold proposals
  rw [List.length_map, ← List.countP_eq_length_filter]
  congr 2
  funext slot
  cases (cache.rulesFor source settings now).leavesAlone slot <;> rfl

/-- An upkeep counts as left alone what it leaves alone, and everything else as its verdict does. -/
theorem count_verdictEvents (event : CacheEvent) :
    (cache.verdictEvents source settings neighbours now).count event =
      if event = .frozenSkip then
        (cache.slotsAround source settings neighbours now).countP
          (cache.rulesFor source settings now).leavesAlone
      else (cache.verdict source settings neighbours now).events.count event := by
  have frozen := (cache.counts_verdict source settings neighbours now).frozen
  unfold verdictEvents
  rw [List.count_append, List.count_replicate, List.count_reverse]
  by_cases same : event = .frozenSkip
  · subst same
    rw [frozen, if_pos rfl]
    rfl
  · rw [if_neg same, if_neg fun equal => same (eq_of_beq equal).symm, Nat.zero_add]

/-- Each grid instant of an upkeep is counted once, as added, worked out again, left alone or
refused. -/
theorem verdictEvents_spec :
    let events := cache.verdictEvents source settings neighbours now
    events.count .created + events.count .refreshed + events.count .frozenSkip +
        events.count .rejected = (cache.affected source settings neighbours now).length ∧
      (cache.verdict source settings neighbours now).accepted.length =
        events.count .created + events.count .refreshed := by
  have counts := cache.counts_verdict source settings neighbours now
  have each := counts.judged
  have accepted := counts.accepted
  have length := cache.length_affected source settings neighbours now neighbours.counter
  simp only [count_verdictEvents, if_true, reduceCtorEq, if_false]
  omega

/-- An upkeep over a regular grid adds the checkpoints that it counts as added and loses the ones
that it drops, which it counts as refused. -/
theorem size_spliced (regular : (source.grid settings).IsRegular) :
    let spliced := cache.spliced source settings neighbours now
    let events := cache.verdictEvents source settings neighbours now
    spliced.size + (cache.seriesOf source.id).beyond spliced =
        (cache.seriesOf source.id).size + events.count .created ∧
      (cache.seriesOf source.id).beyond spliced =
        (cache.verdict source settings neighbours now).dropped.length ∧
      (cache.seriesOf source.id).beyond spliced ≤ events.count .rejected := by
  have slots : (cache.slotsAround source settings neighbours now).Pairwise fun earlier later =>
      earlier.1 < later.1 :=
    (Grid.pairwise_within regular _ _).map _ fun _ _ less => less
  have ordered : (cache.proposals source settings neighbours neighbours.counter now).Pairwise
      fun earlier later => earlier.checkpoint.instant < later.checkpoint.instant :=
    (slots.filter _).map _ fun _ _ less => less
  have counts := cache.counts_verdict source settings neighbours now
  have dropped := counts.dropped
  have won : (cache.spliced source settings neighbours now).beyond (cache.seriesOf source.id) =
      (cache.verdict source settings neighbours now).events.count .created :=
    (Review.beyond_apply _ ordered).trans counts.created
  have lost : (cache.seriesOf source.id).beyond (cache.spliced source settings neighbours now) =
      (cache.verdict source settings neighbours now).dropped.length :=
    Review.beyond_of_apply _ ordered
      (cache.marked_proposals source settings neighbours neighbours.counter now)
  have sizes := (cache.spliced source settings neighbours now).size_add_beyond
    (cache.seriesOf source.id)
  rw [won] at sizes
  simp only [count_verdictEvents, reduceCtorEq, if_false]
  exact ⟨by omega, lost, by omega⟩

end Upkeep

/-! ## Commits -/

/-- How many checkpoints of a batch find their instant taken when they are tried. -/
def presentIn (cache : CheckpointCache σ) : List (Checkpoint σ) → Nat
  | [] => 0
  | checkpoint :: rest =>
    (if ((cache.seriesOf checkpoint.source).at? checkpoint.instant).isSome then 1 else 0) +
      presentIn (cache.keep checkpoint).1 rest

/-- A checkpoint whose instant is free is counted as added or as refused, and is one more if it is
added. -/
theorem keep_spec (cache : CheckpointCache σ) (checkpoint : Checkpoint σ) :
    let kept := cache.keep checkpoint
    kept.1.held = cache.held + kept.2.toList.count .created ∧
      kept.2.toList.count .created + kept.2.toList.count .rejected +
        (if ((cache.seriesOf checkpoint.source).at? checkpoint.instant).isSome then 1 else 0) =
          1 := by
  unfold keep
  dsimp only
  split
  · exact ⟨rfl, rfl⟩
  · rename_i free
    split
    · have placed := cache.held_withSeries checkpoint.source
        ((cache.seriesOf checkpoint.source).insert checkpoint)
      rw [Timeline.size_insert _ (Option.not_isSome_iff_eq_none.1 free)] at placed
      refine ⟨?_, rfl⟩
      change (cache.withSeries _ _).held = cache.held + 1
      omega
    · exact ⟨rfl, rfl⟩

/-- A commit counts each checkpoint of its batch whose instant is free when it is tried, and what it
adds is there. -/
theorem commit_spec (batch : List (Checkpoint σ)) (cache : CheckpointCache σ) :
    let kept := cache.commit batch
    kept.1.held = cache.held + kept.2.count .created ∧
      kept.2.count .created + kept.2.count .rejected + cache.presentIn batch = batch.length := by
  induction batch generalizing cache with
  | nil => exact ⟨rfl, rfl⟩
  | cons first rest ih =>
    obtain ⟨held, counted⟩ := ih (cache.keep first).1
    obtain ⟨one, each⟩ := cache.keep_spec first
    dsimp only at held counted one each ⊢
    unfold commit presentIn
    simp only [List.count_append, List.length_cons]
    constructor
    · omega
    · omega

/-! ## Lookups -/

end CheckpointCache

/-- The kinds of lookups that are told apart. -/
def CacheEvent.lookups : List CacheEvent := [.hit, .coldRead, .windowBypass]

/-- Of the kinds of lookups exactly one is counted, once. -/
def CacheEvent.AreOneLookup (events : List CacheEvent) : Prop :=
  ∃ kind ∈ lookups, ∀ other ∈ lookups, events.count other = if kind = other then 1 else 0

instance (events : List CacheEvent) : Decidable (CacheEvent.AreOneLookup events) :=
  inferInstanceAs (Decidable (∃ kind ∈ CacheEvent.lookups, _))

namespace CheckpointCache

section Lookups

variable {cache : CheckpointCache σ} {source : Source σ} {time now : Instant}
  {possible : Possibility σ} {events : List CacheEvent} {read : CounterRead σ}

/-- A lookup from the readings counts nothing. -/
theorem events_of_coldRead {id : SourceId}
    {outcome : Except QueryError (CounterRead σ)}
    (came : (coldRead id time).Yields possible events outcome) : events = [] := by
  have silent : (coldRead id time : Attempt σ (CounterRead σ)).Uses
      (Request.IsAround id time .cumulativeEnergy) fun _ => False :=
    (Bracket.asks_valueAt id time .cumulativeEnergy).bind fun _ => Attempt.uses_pure _
  exact List.eq_nil_iff_forall_not_mem.2 (silent.counted_of_yields came)

/-- A lookup from the readings with an offer is counted as such. -/
theorem events_of_coldReadWithOffer {id : SourceId} {boundary : Instant} {window : Span}
    (came : (coldReadWithOffer id boundary time window now).Yields possible events (.ok read)) :
    events = [.coldRead] := by
  obtain ⟨_, rfl, looked⟩ := (Attempt.yields_tally_bind_iff ..).1 came
  obtain ⟨_, _, _, rfl, cold, offering⟩ := (Attempt.yields_bind_ok_iff ..).1 looked
  obtain ⟨_, _, _, rfl, around, rfl, _⟩ := (Attempt.yields_outcome_bind_iff ..).1 offering
  have silent : (Bracket.find id boundary .cumulativeEnergy : Attempt σ (Bracket σ)).Uses
      (Request.IsAround id boundary .cumulativeEnergy) fun _ => False := Bracket.asks_find ..
  rw [events_of_coldRead cold, List.eq_nil_iff_forall_not_mem.2 (silent.counted_of_yields around)]
  rfl

/-- A lookup from a checkpoint that succeeds is counted as a hit, or as one from the readings after
the checkpoint was given up. -/
theorem events_of_warmRead {checkpoint : Checkpoint σ} {id : SourceId} {boundary : Instant}
    {window : Span}
    (came : (warmRead checkpoint id boundary time window now).Yields possible events (.ok read)) :
    events = [.hit] ∨ events = [.fallback, .coldRead] := by
  unfold warmRead at came
  obtain ⟨early, result, late, rfl, looked, rest⟩ := (Attempt.yields_outcome_bind_iff ..).1 came
  have silent : (checkpoint.counterFrom time).Uses Request.IsLookup fun _ => False :=
    checkpoint.uses_counterFrom time
  rw [List.eq_nil_iff_forall_not_mem.2 (silent.counted_of_yields looked), List.nil_append]
  split at rest
  · obtain ⟨_, rfl, rfl, _⟩ := (Attempt.yields_tally_bind_iff ..).1 rest
    exact Or.inl rfl
  · obtain ⟨_, rfl, offering⟩ := (Attempt.yields_tally_bind_iff ..).1 rest
    exact Or.inr (congrArg _ (events_of_coldReadWithOffer offering))
  · obtain ⟨_, same⟩ := rest
    cases same

/-- A lookup that succeeds is counted as one of the kinds of lookups. -/
theorem events_of_counterAt
    (came : (cache.counterAt source time now).Yields possible events (.ok read)) :
    CacheEvent.AreOneLookup events := by
  have cold : ∀ kind, CacheEvent.AreOneLookup [kind] → (do
      Attempt.tally kind
      coldRead source.id time : Attempt σ (CounterRead σ)).Yields possible events (.ok read) →
        CacheEvent.AreOneLookup events := by
    intro kind one tallied
    obtain ⟨_, rfl, looked⟩ := (Attempt.yields_tally_bind_iff ..).1 tallied
    rw [events_of_coldRead looked]
    exact one
  unfold counterAt at came
  split at came
  · exact cold .coldRead (by decide) came
  · split at came
    · exact cold .windowBypass (by decide) came
    · split at came
      · exact cold .coldRead (by decide) came
      · split at came
        · rcases events_of_warmRead came with rfl | rfl
          · decide
          · decide
        · rw [events_of_coldReadWithOffer came]
          decide

end Lookups

end CheckpointCache

/-! ## Sessions -/

/-- A reading is taken in only for sources whose checkpoints, if they are kept, are a positive
number of seconds apart. -/
def CacheAction.IsSpaced : CacheAction σ → Prop
  | .ingest source _ => ∀ settings, source.cache = some settings → 0 < settings.intervalSeconds
  | _ => True

/-- What comes of a reading that is taken in adds the checkpoints that are counted as added, and
costs its source no more than are counted as refused. -/
theorem CheckpointCache.Taken.held {cache : CheckpointCache σ} {source : Source σ}
    {reading : Reading σ} {now : Instant} {events : List CacheEvent}
    {outcome : Except QueryError (Nat × CheckpointCache σ)}
    (taken : cache.Taken source reading now events outcome)
    (spaced : (CacheAction.ingest source reading).IsSpaced) :
    let after := (outcome.toOption.map Prod.snd).getD cache
    let lost := (cache.seriesOf source.id).beyond (after.seriesOf source.id)
    after.held + lost = cache.held + events.count .created ∧ lost ≤ events.count .rejected := by
  have nothing : (cache.seriesOf source.id).beyond (cache.seriesOf source.id) = 0 :=
    Timeline.beyond_self _
  cases taken with
  | refused error => exact ⟨congrArg (cache.held + ·) nothing, Nat.le_of_eq nothing⟩
  | idle => exact ⟨congrArg (cache.held + ·) nothing, Nat.le_of_eq nothing⟩
  | failed frozen =>
    have none : ∀ event : CacheEvent, event ≠ .frozenSkip → event ≠ .fallback →
        (List.replicate frozen CacheEvent.frozenSkip ++ [CacheEvent.fallback]).count event = 0 := by
      intro event first second
      rw [List.count_eq_zero, List.mem_append, List.mem_replicate, List.mem_singleton]
      exact fun member => member.elim (fun same => first same.2) second
    rw [none .created (by decide) (by decide), none .rejected (by decide) (by decide)]
    exact ⟨congrArg (cache.held + ·) nothing, Nat.le_of_eq nothing⟩
  | upkept settings neighbours calls own =>
    have own := ((cache.settingsFor?_eq_some_iff source settings).1 calls.1).2.2
    obtain ⟨sizes, _, refused⟩ := cache.size_spliced source settings neighbours now
      (Source.isRegular_of_pos (spaced settings own))
    have placed := cache.held_withSeries source.id
      (cache.spliced source settings neighbours now)
    dsimp only [Except.toOption, Option.map_some, Option.getD_some] at sizes refused ⊢
    rw [seriesOf_withSeries, if_pos rfl]
    exact ⟨by omega, refused⟩

namespace CacheSession

variable {ω : Type}

/-- An amount told of each action and the session it finds, summed up along a run. -/
def sumAlong (serve : Service σ ω) (amount : CacheSession σ ω → CacheAction σ → Nat) :
    CacheSession σ ω → List (CacheAction σ) → Nat
  | _, [] => 0
  | session, action :: rest =>
    amount session action + sumAlong serve amount (session.step serve action) rest

/-- How many checkpoints an action forgets, as it says itself. -/
def evicted (session : CacheSession σ ω) : CacheAction σ → Nat
  | .evict id => (session.engine.evict id).1
  | _ => 0

/-- How many checkpoints of its source a reading that is taken in costs. -/
def lost (serve : Service σ ω) (session : CacheSession σ ω) : CacheAction σ → Nat
  | .ingest source reading =>
    (session.seriesOf source.id).beyond
      ((session.step serve (.ingest source reading)).seriesOf source.id)
  | _ => 0

/-- How many checkpoints there are. -/
def held (session : CacheSession σ ω) : Nat := session.engine.cache.held

/-- How often an event has been counted. -/
def count (session : CacheSession σ ω) (event : CacheEvent) : Nat :=
  session.engine.progress.tally.count event

section Balance

variable (serve : Service σ ω)

/-- What an action does to the number of checkpoints is what it counts as added, less what it
forgets and what it loses, and it counts as refused at least what it loses. -/
theorem held_step (session : CacheSession σ ω) {action : CacheAction σ}
    (spaced : action.IsSpaced) :
    let after := session.step serve action
    after.held + session.evicted action + session.lost serve action + session.count .created =
        session.held + after.count .created ∧
      session.count .rejected + session.lost serve action ≤ after.count .rejected := by
  have answers := Possibility.any_answer serve
  unfold held count
  cases action with
  | ingest source reading =>
    obtain ⟨events, outcome, _, _, taken, same⟩ :=
      exists_step_ingest answers session source reading
    obtain ⟨balance, refused⟩ := taken.held spaced
    unfold lost evicted seriesOf
    dsimp only at balance refused ⊢
    rw [same]
    simp only [Tally.count_foldl_add]
    omega
  | counterAt source time =>
    obtain ⟨events, outcome, _, _, came, same⟩ :=
      exists_step_counterAt answers session source time
    have none : ∀ event, ¬ event.IsOfLookup → events.count event = 0 := fun event other =>
      List.count_eq_zero.2 fun member =>
        other ((CheckpointCache.uses_counterAt ..).counted_of_yields came event member)
    unfold lost evicted
    dsimp only
    rw [same]
    simp only [Tally.count_foldl_add]
    rw [none .created id, none .rejected id]
    exact ⟨by omega, by omega⟩
  | commit batch =>
    obtain ⟨held, _⟩ := CheckpointCache.commit_spec batch session.engine.cache
    unfold lost evicted step Engine.commit
    simp only [Tally.count_foldl_add]
    omega
  | evict id =>
    have left := session.engine.cache.held_evict id
    unfold lost evicted step Engine.evict
    dsimp only
    omega
  | setNow now => exact ⟨rfl, Nat.le_refl _⟩

/-- Over a whole run the number of checkpoints changes by what is counted as added, less what is
forgotten and what is lost, and at least what is lost is counted as refused. -/
theorem held_run {actions : List (CacheAction σ)} (session : CacheSession σ ω)
    (spaced : ∀ action ∈ actions, action.IsSpaced) :
    let after := session.run serve actions
    after.held + sumAlong serve evicted session actions +
          sumAlong serve (lost serve) session actions + session.count .created =
        session.held + after.count .created ∧
      session.count .rejected + sumAlong serve (lost serve) session actions ≤
        after.count .rejected := by
  induction actions generalizing session with
  | nil => exact ⟨rfl, Nat.le_refl _⟩
  | cons first rest ih =>
    have step := session.held_step serve (spaced first List.mem_cons_self)
    have onward := ih (session.step serve first) fun action member =>
      spaced action (List.mem_cons_of_mem first member)
    have ran : session.run serve (first :: rest) = (session.step serve first).run serve rest := rfl
    dsimp only at step onward ⊢
    unfold sumAlong
    rw [ran]
    omega

end Balance

/-- An ingestion that comes to an upkeep, with no call of the store failing, splices the verdict on
its candidates into the series and counts it. -/
theorem exists_step_upkept (session : CacheSession σ (Fated σ)) {source : Source σ}
    {settings : CacheSettings} {reading : Reading σ}
    (calls : session.engine.cache.CallsForUpkeep source settings reading session.now)
    (calm : ∀ call ∈ session.engine.progress.world.exchanges
      (session.engine.cache.ingest source reading session.now), call.failed = false) :
    ∃ stored later moment,
      session.engine.progress.world.database.readings.insert reading = .ok stored ∧
      let cache := session.engine.cache
      let neighbours := stored.around source.id reading
      (session.engine.takeIn Fated.serve (cache.ingest source reading session.now)).1 =
          .ok (cache.verdict source settings neighbours session.now).accepted.length ∧
        session.step Fated.serve (.ingest source reading) =
          ⟨⟨cache.withSeries source.id (cache.spliced source settings neighbours session.now),
            session.now, ⟨later, moment,
              (cache.verdictEvents source settings neighbours session.now).foldl Tally.add
                session.engine.progress.tally⟩⟩, session.offered⟩ := by
  obtain ⟨outcome, exchanges, events, later, came, spec⟩ :=
    session.engine.progress.world.comes_ingest session.engine.cache source reading session.now
  rw [came.exchanges_eq] at calm
  rcases spec with ⟨_, _, call, made, _, failed⟩ | ⟨written, final, rfl, ingested⟩
  · exact absurd failed (Bool.eq_false_iff.1 (calm call made))
  · rcases ingested.upkept with ⟨_, result, told⟩ | ⟨⟨call, made, failed⟩, _⟩
    · obtain ⟨same, counted⟩ := session.engine.cache.result_upkeep_around source settings
        session.now later.database calls
      obtain ⟨rfl, rfl⟩ := Prod.mk.inj (Except.ok.inj (same.symm.trans result))
      obtain rfl := told.trans counted
      obtain ⟨moment, took⟩ := Engine.takeIn_of_comes came
      exact ⟨_, later, moment, ingested.stored, congrArg Prod.fst took,
        congrArg (fun taken => (⟨taken.2, session.offered⟩ : CacheSession σ (Fated σ))) took⟩
    · exact absurd failed (Bool.eq_false_iff.1 (calm call made))

/-- What the counters of a session tell of the operation that comes next. -/
structure Accounts (session : CacheSession σ (Fated σ)) : Prop where
  /-- An ingestion that comes to an upkeep, with no call of the store failing, counts each grid
  instant that it brings up to date once, and says how many checkpoints it has written. What it
  costs are the checkpoints that a refused refresh drops. -/
  upkept : ∀ source settings reading,
    session.engine.cache.CallsForUpkeep source settings reading session.now →
    (∀ call ∈ session.engine.progress.world.exchanges
        (session.engine.cache.ingest source reading session.now), call.failed = false) →
    ∃ stored written,
      session.engine.progress.world.database.readings.insert reading = .ok stored ∧
      (session.engine.takeIn Fated.serve
        (session.engine.cache.ingest source reading session.now)).1 = .ok written ∧
      let neighbours := stored.around source.id reading
      let boundaries := session.engine.cache.affected source settings neighbours session.now
      let after := session.step Fated.serve (.ingest source reading)
      after.count .created + after.count .refreshed + after.count .frozenSkip +
          after.count .rejected =
        session.count .created + session.count .refreshed + session.count .frozenSkip +
          session.count .rejected + boundaries.length ∧
      after.count .created + after.count .refreshed =
        session.count .created + session.count .refreshed + written ∧
      (0 < settings.intervalSeconds →
        session.lost Fated.serve (.ingest source reading) =
          (session.engine.cache.verdict source settings neighbours session.now).dropped.length)
  /-- A commit says how many checkpoints it has added, and every other one of its batch is counted
  as refused or found its instant taken. -/
  committed : ∀ batch,
    let kept := (session.engine.commit batch).1
    let after := session.step Fated.serve (.commit batch)
    ∃ refused, after.count .created = session.count .created + kept ∧
      after.count .rejected = session.count .rejected + refused ∧
      kept + refused + session.engine.cache.presentIn batch = batch.length
  /-- A lookup that succeeds is counted as a lookup of one kind. -/
  lookedUp : ∀ source time read,
    (session.engine.perform Fated.serve .none
      (session.engine.cache.counterAt source time session.now)).1 = .ok read →
    let after := session.step Fated.serve (.counterAt source time)
    ∃ kind ∈ CacheEvent.lookups, ∀ other ∈ CacheEvent.lookups,
      after.count other = session.count other + if kind = other then 1 else 0

/-- The counters of a session account for whatever comes next. -/
theorem accounts (session : CacheSession σ (Fated σ)) : session.Accounts where
  upkept source settings reading calls calm := by
    obtain ⟨stored, _, _, inserted, written, after⟩ := session.exists_step_upkept calls calm
    obtain ⟨each, accepted⟩ := session.engine.cache.verdictEvents_spec source settings
      (stored.around source.id reading) session.now
    refine ⟨stored, _, inserted, written, ?_, ?_, fun positive => ?_⟩
    · rw [after]
      unfold count
      simp only [Tally.count_foldl_add]
      omega
    · rw [after]
      unfold count
      simp only [Tally.count_foldl_add]
      omega
    · unfold lost seriesOf
      dsimp only
      rw [after]
      dsimp only
      rw [CheckpointCache.seriesOf_withSeries, if_pos rfl]
      exact (session.engine.cache.size_spliced source settings _ session.now
        (Source.isRegular_of_pos positive)).2.1
  committed batch := by
    obtain ⟨_, counted⟩ := CheckpointCache.commit_spec batch session.engine.cache
    refine ⟨(session.engine.cache.commit batch).2.count CacheEvent.rejected, ?_, ?_, counted⟩
    · exact Tally.count_foldl_add ..
    · exact Tally.count_foldl_add ..
  lookedUp source time read found := by
    obtain ⟨events, outcome, world, elapsed, came, same⟩ := Engine.exists_perform_eq
      (Possibility.any_answer Fated.serve) session.engine
      (session.engine.cache.counterAt source time session.now)
    rw [same] at found
    obtain rfl : outcome = .ok read := found
    obtain ⟨kind, listed, each⟩ := CheckpointCache.events_of_counterAt came
    refine ⟨kind, listed, fun other member => ?_⟩
    unfold count step
    dsimp only
    rw [same]
    dsimp only
    rw [Tally.count_foldl_add, each other member]

/-- The counters are a ledger of what happens to a new cache, whatever that is and whatever calls of
the store fail. They account for each operation that may come next. What the cache holds is what has
been added, less what was forgotten, as the evictions themselves say, and less what was lost to
refused refreshes; so it is at most what was added and not forgotten, and less than that at most by
what was refused. -/
theorem ledger (config : Config) (fated : Fated σ) (now : Instant) (actions : List (CacheAction σ))
    (spaced : ∀ action ∈ actions, action.IsSpaced) :
    let start : CacheSession σ (Fated σ) := new config fated now
    let session := start.run Fated.serve actions
    let forgotten := start.sumAlong Fated.serve evicted actions
    session.Accounts ∧
      session.held + forgotten + start.sumAlong Fated.serve (lost Fated.serve) actions =
        session.count .created ∧
      session.count .created ≤ session.held + forgotten + session.count .rejected ∧
      session.held + forgotten ≤ session.count .created := by
  intro start session forgotten
  have ran := start.held_run Fated.serve spaced
  have balance : session.held + forgotten + start.sumAlong Fated.serve (lost Fated.serve) actions +
      start.count .created = start.held + session.count .created := ran.1
  have refused : start.count .rejected + start.sumAlong Fated.serve (lost Fated.serve) actions ≤
      session.count .rejected := ran.2
  have held : start.held = 0 := CheckpointCache.held_new config
  have created : start.count .created = 0 := rfl
  have rejected : start.count .rejected = 0 := rfl
  exact ⟨accounts session, by omega, by omega, by omega⟩

/-- Some checkpoints are to be kept: two of the hourly meter, one of them twice, one that would run
backwards, and one of another source. A day later three readings come in that are far below them,
and the checkpoints of the other source are forgotten. -/
def bookedActions : List (CacheAction Rat) :=
  [.commit [⟨"meter", atMinute 60, 10, .epoch⟩, ⟨"meter", atMinute 120, 20, .epoch⟩,
      ⟨"meter", atMinute 120, 20, .epoch⟩, ⟨"meter", atMinute 180, 5, .epoch⟩,
      ⟨"spare", atMinute 60, 1, .epoch⟩],
    .setNow (atMinute 1440), .ingest hourlyMeter (hourlyReading 90 0),
    .ingest hourlyMeter (hourlyReading 150 1), .ingest hourlyMeter (hourlyReading 210 2),
    .evict "spare"]

/-- A store without readings that fails to look up the neighbours of the third one. -/
def bookedStore : Fated Rat :=
  ⟨⟨.empty, hourlyCatalog⟩, 0,
    fun number _ => ⟨if number = 7 then some (.backend "down") else none, 0⟩⟩

/-- On that day three checkpoints are added, one is forgotten and one is lost, since its refresh is
refused under the checkpoint before it. An upkeep and a lookup that may come next are accounted for
like all others. -/
theorem ledger_bookedActions :
    let start : CacheSession Rat (Fated Rat) :=
      new { Config.standard with lateDataPolicy := .revise } bookedStore .epoch
    let session := start.run Fated.serve bookedActions
    let next := session.engine.cache.ingest hourlyMeter (hourlyReading 270 30) session.now
    session.Accounts ∧
      session.engine.progress.tally = ⟨0, 0, 0, 3, 0, 0, 2, 1⟩ ∧
      session.held = 1 ∧ start.sumAlong Fated.serve evicted bookedActions = 1 ∧
      start.sumAlong Fated.serve (lost Fated.serve) bookedActions = 1 ∧
      session.engine.cache.CallsForUpkeep hourlyMeter ⟨3600, 60⟩ (hourlyReading 270 30)
        session.now ∧
      (∀ call ∈ session.engine.progress.world.exchanges next, call.failed = false) ∧
      (session.engine.perform Fated.serve .none
        (session.engine.cache.counterAt hourlyMeter (atMinute 180) session.now)).1.isOk := by
  intro start session next
  have hourly : ∀ reading, (CacheAction.ingest hourlyMeter reading).IsSpaced := by
    intro reading settings own
    obtain rfl := Option.some_inj.1 own
    decide
  have spaced : ∀ action ∈ bookedActions, action.IsSpaced := by
    unfold bookedActions
    simp only [List.forall_mem_cons]
    exact ⟨trivial, trivial, hourly _, hourly _, hourly _, trivial, List.forall_mem_nil _⟩
  have told := ledger { Config.standard with lateDataPolicy := .revise } bookedStore .epoch
    bookedActions spaced
  have tally : session.engine.progress.tally = ⟨0, 0, 0, 3, 0, 0, 2, 1⟩ := by decide +kernel
  have calls : session.engine.cache.CallsForUpkeep hourlyMeter ⟨3600, 60⟩ (hourlyReading 270 30)
      session.now := ⟨by decide +kernel, by decide, by decide +kernel⟩
  refine ⟨told.1, tally, ?_, ?_, ?_, calls, ?_, ?_⟩
  · decide +kernel
  · decide +kernel
  · decide +kernel
  · decide +kernel
  · decide +kernel

end CacheSession

end Metering
