import Metering.Proofs.Exchanges
import Metering.Proofs.Purity

/-!
# Falling back to the readings

A lookup that starts from a checkpoint gives it up when a call on the way fails,
and starts over from the readings. So a store that fails costs an answer only
where a call of the raw lookup fails, which is made only where there is no
checkpoint or the checkpoint was given up (`Engine.counterAt_survives_failures`).
A call that fails around the boundary costs the offer and nothing else.
-/

namespace Metering

variable {σ α : Type}

/-- Whether a call of some failed is told by how each of them came out. -/
theorem Exchange.any_failed (calls : List (Exchange σ)) :
    calls.any failed = (calls.map failed).any id := by
  rw [List.any_map]
  rfl

/-- Readings that are there give no failure of the store. -/
theorem ReadingStore.valueAt_ne_storage [Scalar σ] (store : ReadingStore σ) (id : SourceId)
    (time : Instant) (field : Field) (reason : String) :
    store.valueAt id time field ≠ .error (.storage reason) := by
  unfold valueAt bracket
  cases lower : store.nearestBefore id time field with
  | none => cases store.nearestAfter id time field <;> exact nofun
  | some before =>
    cases upper : store.nearestAfter id time field with
    | none => exact nofun
    | some after =>
      obtain ⟨held, _⟩ := (nearestBefore_eq_some_iff ..).1 lower
      obtain ⟨later, _⟩ := (nearestAfter_eq_some_iff ..).1 upper
      obtain ⟨value, worth⟩ := Bracket.exists_interpolate_eq_ok time held.2 later.2
      rw [Except.ok_bind, worth]
      exact nofun

/-! ## Stores that do not work -/

namespace Fated

/-- Calls fail only because the store or the catalog does not work. -/
def FailsAsBackend (fated : Fated σ) : Prop :=
  ∀ number request error, (fated.fate number request).failure = some error →
    ∃ reason, error = .backend reason

variable {fated : Fated σ}

/-- A store that does not work fails later calls for that reason as well. -/
theorem FailsAsBackend.after (backend : fated.FailsAsBackend) (count : Nat) :
    (fated.after count).FailsAsBackend := backend

/-- Over a store that does not work, an attempt of lookups that counts nothing and passes every
failure on comes to what it comes to over the database, unless one of its calls failed, and to a
failure of the store if one did. -/
theorem comes_of_backend (backend : fated.FailsAsBackend) {attempt : Attempt σ α}
    (passes : attempt.PassesOn) (silent : attempt.Uses Request.IsLookup fun _ => False) :
    ∃ outcome, fated.Comes attempt.run outcome (fated.exchanges attempt) []
        (fated.after (fated.exchanges attempt).length) ∧
      ((fated.exchanges attempt).any Exchange.failed = false ∧
          outcome = attempt.result fated.database ∨
        (fated.exchanges attempt).any Exchange.failed = true ∧
          ∃ reason, outcome = .error (.storage reason)) := by
  obtain ⟨outcome, events, came, spec⟩ := comes_of_passesOn passes silent fated
  cases spec with
  | fine calm result told =>
    obtain rfl : events = [] := List.eq_nil_iff_forall_not_mem.2 fun event member =>
      silent.counted_of_mem_events fated.database event (told ▸ member)
    refine ⟨outcome, came, Or.inl ⟨List.any_eq_false.2 fun call made => ?_, result⟩⟩
    rw [calm call made]
    exact nofun
  | failed call made fails number error fate result told =>
    obtain rfl : events = [] := List.eq_nil_iff_forall_not_mem.2 told
    obtain ⟨reason, rfl⟩ := backend number call.request error fate
    exact ⟨outcome, came, Or.inr ⟨List.any_eq_true.2 ⟨call, made, fails⟩, reason, result⟩⟩

variable [Scalar σ]

/-- The calls of a raw lookup. -/
abbrev rawCalls (fated : Fated σ) (id : SourceId) (time : Instant) : List (Exchange σ) :=
  fated.exchanges (Bracket.valueAt id time .cumulativeEnergy)

/-- A raw lookup reads what the readings give, unless one of its calls fails. -/
theorem comes_coldRead (backend : fated.FailsAsBackend) (id : SourceId) (time : Instant) :
    ∃ outcome, fated.Comes (CheckpointCache.coldRead id time).run outcome (fated.rawCalls id time)
        [] (fated.after (fated.rawCalls id time).length) ∧
      ((fated.rawCalls id time).any Exchange.failed = false ∧
          outcome = (fated.database.readings.valueAt id time .cumulativeEnergy).map
            (CounterRead.mk · none) ∨
        (fated.rawCalls id time).any Exchange.failed = true ∧
          ∃ reason, outcome = .error (.storage reason)) := by
  have silent : (Bracket.valueAt id time .cumulativeEnergy : Attempt σ σ).Uses Request.IsLookup
      fun _ => False :=
    Plan.Uses.imp (Bracket.asks_valueAt id time .cumulativeEnergy)
      (fun _ around => around.isLookup) fun _ never => never
  obtain ⟨outcome, came, spec⟩ := comes_of_backend backend (Bracket.passesOn_valueAt ..) silent
  rw [Bracket.result_valueAt] at spec
  unfold CheckpointCache.coldRead
  rcases spec with ⟨calm, rfl⟩ | ⟨failed, reason, rfl⟩
  · cases found : fated.database.readings.valueAt id time .cumulativeEnergy with
    | error error =>
      rw [found] at came
      exact ⟨_, came.bind_error _, Or.inl ⟨calm, rfl⟩⟩
    | ok value =>
      rw [found] at came
      exact ⟨_, came.bind_pure (CounterRead.mk · none), Or.inl ⟨calm, rfl⟩⟩
  · exact ⟨_, came.bind_error _, Or.inr ⟨failed, reason, rfl⟩⟩

/-- What is offered with a counter is for the bracket around the grid instant, and nothing if a call
for it fails. -/
theorem comes_offer (backend : fated.FailsAsBackend) (id : SourceId) (boundary : Instant)
    (window : Span) (now : Instant) (read : CounterRead σ) :
    let offering := fated.exchanges (Bracket.find id boundary .cumulativeEnergy)
    fated.Comes ((Bracket.find id boundary .cumulativeEnergy).outcome >>= fun bracket =>
        pure { read with pending := CheckpointCache.offer id boundary window now bracket }).run
      (.ok ⟨read.value, if !offering.any Exchange.failed then
        CheckpointCache.offer id boundary window now
          (fated.database.readings.bracket id boundary .cumulativeEnergy) else none⟩)
      offering [] (fated.after offering.length) := by
  intro offering
  have silent : (Bracket.find id boundary .cumulativeEnergy : Attempt σ (Bracket σ)).Uses
      Request.IsLookup fun _ => False :=
    Plan.Uses.imp (Bracket.asks_find id boundary .cumulativeEnergy)
      (fun _ around => around.isLookup) fun _ never => never
  obtain ⟨bracket, looked, spec⟩ := comes_of_backend backend
    (Bracket.passesOn_find id boundary .cumulativeEnergy) silent
  have ends := looked.outcome.bind_pure fun bracket =>
    { read with pending := CheckpointCache.offer id boundary window now bracket }
  rw [Bracket.result_find] at spec
  rcases spec with ⟨calm, rfl⟩ | ⟨failed, reason, rfl⟩
  · have calm : offering.any Exchange.failed = false := calm
    rw [calm]
    exact ends
  · have failed : offering.any Exchange.failed = true := failed
    rw [failed]
    exact ends

/-- A lookup from the readings with an offer reads what they give, unless a call of the raw lookup
fails. It offers what the bracket of the grid instant gives, and nothing if a call for it fails. -/
theorem comes_coldReadWithOffer (backend : fated.FailsAsBackend) (id : SourceId)
    (boundary time : Instant) (window : Span) (now : Instant) :
    ∃ outcome offering, fated.Comes
        (CheckpointCache.coldReadWithOffer id boundary time window now).run outcome
        (fated.rawCalls id time ++ offering) [.coldRead]
        (fated.after (fated.rawCalls id time ++ offering).length) ∧
      (∀ call ∈ offering, call.request.IsAround id boundary .cumulativeEnergy) ∧
      ((fated.rawCalls id time).any Exchange.failed = false ∧
          outcome = (fated.database.readings.valueAt id time .cumulativeEnergy).map
            (CounterRead.mk · (if !offering.any Exchange.failed then
              CheckpointCache.offer id boundary window now
                (fated.database.readings.bracket id boundary .cumulativeEnergy) else none)) ∨
        (fated.rawCalls id time).any Exchange.failed = true ∧
          ∃ reason, outcome = .error (.storage reason)) := by
  obtain ⟨outcome, came, spec⟩ := comes_coldRead backend id time
  unfold CheckpointCache.coldReadWithOffer
  rcases spec with ⟨calm, rfl⟩ | ⟨failed, reason, rfl⟩
  · cases found : fated.database.readings.valueAt id time .cumulativeEnergy with
    | error error =>
      rw [found] at came
      refine ⟨.error error, [], ?_, List.forall_mem_nil _, Or.inl ⟨calm, rfl⟩⟩
      rw [List.append_nil]
      exact .tally (came.bind_error _) .coldRead
    | ok value =>
      rw [found] at came
      let middle := fated.after (fated.rawCalls id time).length
      let offering := middle.exchanges (Bracket.find id boundary .cumulativeEnergy)
      refine ⟨.ok ⟨value, _⟩, offering, ?_,
        allowed_of_mem_exchanges (Bracket.asks_find id boundary .cumulativeEnergy) middle,
        Or.inl ⟨calm, rfl⟩⟩
      rw [List.length_append, ← after_after]
      exact .tally (came.bind_ok (comes_offer (backend.after _) id boundary window now
        ⟨value, none⟩)) .coldRead
  · refine ⟨.error _, [], ?_, List.forall_mem_nil _, Or.inr ⟨failed, reason, rfl⟩⟩
    rw [List.append_nil]
    exact .tally (came.bind_error _) .coldRead

/-- A lookup from a checkpoint that agrees with the readings reads what they give, unless a call on
the way from the checkpoint fails and then one of the raw lookup. It counts a fallback where a call
on the way failed. -/
theorem comes_warmRead (backend : fated.FailsAsBackend) {checkpoint : Checkpoint σ} {id : SourceId}
    {time : Instant} (warm : (checkpoint.counterFrom time).result fated.database =
      fated.database.readings.valueAt id time .cumulativeEnergy) (boundary : Instant)
    (window : Span) (now : Instant) :
    let path := fated.exchanges (checkpoint.counterFrom time)
    let abandoned := path.any Exchange.failed
    let raw := if abandoned then (fated.after path.length).rawCalls id time else []
    ∃ outcome offering events later, fated.Comes
        (CheckpointCache.warmRead checkpoint id boundary time window now).run outcome
        (path ++ (raw ++ offering)) events later ∧
      (∀ call ∈ offering, call.request.IsAround id boundary .cumulativeEnergy) ∧
      events.count .fallback = (if abandoned then 1 else 0) ∧
      (raw.any Exchange.failed = false ∧
          outcome = (fated.database.readings.valueAt id time .cumulativeEnergy).map
            (CounterRead.mk · (if abandoned && !offering.any Exchange.failed then
              CheckpointCache.offer id boundary window now
                (fated.database.readings.bracket id boundary .cumulativeEnergy) else none)) ∨
        raw.any Exchange.failed = true ∧ ∃ reason, outcome = .error (.storage reason)) := by
  intro path abandoned raw
  obtain ⟨outcome, came, spec⟩ := comes_of_backend backend
    (Checkpoint.passesOn_counterFrom checkpoint time) (Checkpoint.uses_counterFrom checkpoint time)
  have tried := came.outcome
  unfold CheckpointCache.warmRead
  rcases spec with ⟨calm, rfl⟩ | ⟨failed, reason, rfl⟩
  · have goesOn : abandoned = false := calm
    have nothing : raw = [] := if_neg (Bool.eq_false_iff.1 goesOn)
    rw [nothing, goesOn]
    rw [warm] at tried
    cases found : fated.database.readings.valueAt id time .cumulativeEnergy with
    | error error =>
      rw [found] at tried
      cases error with
      | storage reason =>
        exact absurd found
          (fated.database.readings.valueAt_ne_storage id time .cumulativeEnergy reason)
      | _ =>
        exact ⟨.error _, [], _, _, tried.bind_ok (comes_done _ _), List.forall_mem_nil _, rfl,
          Or.inl ⟨rfl, rfl⟩⟩
    | ok value =>
      rw [found] at tried
      exact ⟨.ok ⟨value, none⟩, [], _, _, tried.bind_ok (.tally (comes_done _ _) .hit),
        List.forall_mem_nil _, rfl, Or.inl ⟨rfl, rfl⟩⟩
  · have givenUp : abandoned = true := failed
    have all : raw = (fated.after path.length).rawCalls id time := if_pos givenUp
    rw [all, givenUp]
    obtain ⟨outcome, offering, looked, around, spec⟩ :=
      comes_coldReadWithOffer (backend.after path.length) id boundary time window now
    exact ⟨outcome, offering, _, _, tried.bind_ok (.tally looked .fallback), around, rfl, spec⟩

end Fated

/-! ## The stages of a lookup -/

namespace CheckpointCache

/-- The checkpoint that a lookup starts from, if there is one: that of the grid instant before its
target. -/
def start? (cache : CheckpointCache σ) (source : Source σ) (settings : CacheSettings)
    (time : Instant) : Option (Checkpoint σ) :=
  ((source.grid settings).floor? time).bind (cache.seriesOf source.id).at?

/-- A lookup starts from the checkpoint that there is to start from. -/
theorem startsFrom_of_start? {cache : CheckpointCache σ} {source : Source σ}
    {settings : CacheSettings} {time now : Instant} {checkpoint : Checkpoint σ}
    (kept : cache.settingsFor? source = some settings) (old : settings.window < now.since time)
    (found : cache.start? source settings time = some checkpoint) :
    cache.StartsFrom source now time checkpoint := by
  obtain ⟨boundary, floor, held⟩ := Option.bind_eq_some_iff.1 found
  exact ⟨settings, boundary, kept, old, floor, held⟩

/-- The checkpoint that readings offer for the grid instant before a target, if they do. -/
def offered? [Scalar σ] (readings : ReadingStore σ) (source : Source σ) (settings : CacheSettings)
    (time now : Instant) : Option (Checkpoint σ) :=
  ((source.grid settings).floor? time).bind fun boundary =>
    offer source.id boundary settings.window now
      (readings.bracket source.id boundary .cumulativeEnergy)

variable [Scalar σ] {cache : CheckpointCache σ} {source : Source σ} {settings : CacheSettings}
  {time now boundary : Instant}

/-- A kept counter before the first grid instant is looked up in the readings. -/
theorem counterAt_of_no_boundary (kept : cache.settingsFor? source = some settings)
    (old : settings.window < now.since time) (floor : (source.grid settings).floor? time = none) :
    cache.counterAt source time now = (do
      Attempt.tally .coldRead
      coldRead source.id time) := by
  change (Grid.mk source.createdAt settings.interval).floor? time = none at floor
  have older : ¬ now.since time ≤ settings.window := Int.not_le.2 old
  unfold counterAt
  simp only [kept, if_neg older, floor]

/-- A kept counter without a checkpoint is looked up in the readings, with an offer. -/
theorem counterAt_of_no_start (kept : cache.settingsFor? source = some settings)
    (old : settings.window < now.since time)
    (floor : (source.grid settings).floor? time = some boundary)
    (missing : (cache.seriesOf source.id).at? boundary = none) :
    cache.counterAt source time now =
      coldReadWithOffer source.id boundary time settings.window now := by
  change (Grid.mk source.createdAt settings.interval).floor? time = some boundary at floor
  have older : ¬ now.since time ≤ settings.window := Int.not_le.2 old
  unfold counterAt
  simp only [kept, if_neg older, floor, missing]

/-- A kept counter with a checkpoint is looked up from it. -/
theorem counterAt_of_start (kept : cache.settingsFor? source = some settings)
    (old : settings.window < now.since time)
    (floor : (source.grid settings).floor? time = some boundary) {checkpoint : Checkpoint σ}
    (found : (cache.seriesOf source.id).at? boundary = some checkpoint) :
    cache.counterAt source time now =
      warmRead checkpoint source.id boundary time settings.window now := by
  change (Grid.mk source.createdAt settings.interval).floor? time = some boundary at floor
  have older : ¬ now.since time ≤ settings.window := Int.not_le.2 old
  unfold counterAt
  simp only [kept, if_neg older, floor, found]

end CheckpointCache

namespace Fated

variable [Scalar σ] {fated : Fated σ}

/-- The calls of a lookup on its way from a checkpoint. -/
def pathCalls (fated : Fated σ) (start : Option (Checkpoint σ)) (time : Instant) :
    List (Exchange σ) :=
  match start with
  | some checkpoint => fated.exchanges (checkpoint.counterFrom time)
  | none => []

/-- Whether a lookup makes the raw lookup: there is no checkpoint to start from, or it is given up
because a call on the way from it failed. -/
def readsRaw (fated : Fated σ) (start : Option (Checkpoint σ)) (time : Instant) : Bool :=
  start.isNone || (fated.pathCalls start time).any Exchange.failed

/-- The calls of the raw lookup that a lookup makes, if it does, after those on the way from the
checkpoint. -/
def rawCallsAfter (fated : Fated σ) (start : Option (Checkpoint σ)) (id : SourceId)
    (time : Instant) : List (Exchange σ) :=
  if fated.readsRaw start time then
    (fated.after (fated.pathCalls start time).length).rawCalls id time
  else
    []

/-- What a lookup of a kept counter comes to over a store that does not work, stage by stage. -/
theorem comes_counterAt (backend : fated.FailsAsBackend) {cache : CheckpointCache σ}
    {source : Source σ} {settings : CacheSettings} {time now : Instant}
    (kept : cache.settingsFor? source = some settings) (old : settings.window < now.since time)
    (warm : ∀ checkpoint, cache.start? source settings time = some checkpoint →
      (checkpoint.counterFrom time).result fated.database =
        fated.database.readings.valueAt source.id time .cumulativeEnergy) :
    let start := cache.start? source settings time
    let path := fated.pathCalls start time
    let raw := fated.rawCallsAfter start source.id time
    ∃ outcome offering events later, fated.Comes (cache.counterAt source time now).run outcome
        (path ++ (raw ++ offering)) events later ∧
      (∀ call ∈ offering, ∃ boundary, (source.grid settings).floor? time = some boundary ∧
        call.request.IsAround source.id boundary .cumulativeEnergy) ∧
      events.count .fallback = (if path.any Exchange.failed then 1 else 0) ∧
      (raw.any Exchange.failed = false ∧
          outcome = (fated.database.readings.valueAt source.id time .cumulativeEnergy).map
            (CounterRead.mk · (if fated.readsRaw start time && !offering.any Exchange.failed then
              CheckpointCache.offered? fated.database.readings source settings time now
            else none)) ∨
        raw.any Exchange.failed = true ∧ ∃ reason, outcome = .error (.storage reason)) := by
  intro start path raw
  have stands : cache.start? source settings time = start := rfl
  rw [stands] at warm
  clear_value start
  unfold CheckpointCache.start? at stands
  unfold CheckpointCache.offered?
  cases start with
  | none =>
    cases floor : (source.grid settings).floor? time with
    | none =>
      rw [CheckpointCache.counterAt_of_no_boundary kept old floor]
      obtain ⟨outcome, came, spec⟩ := comes_coldRead backend source.id time
      rw [← List.append_nil (fated.rawCalls source.id time)] at came
      exact ⟨outcome, [], [.coldRead], _, came.tally .coldRead, List.forall_mem_nil _, rfl, spec⟩
    | some boundary =>
      rw [floor] at stands
      rw [CheckpointCache.counterAt_of_no_start kept old floor stands]
      obtain ⟨outcome, offering, came, around, spec⟩ :=
        comes_coldReadWithOffer backend source.id boundary time settings.window now
      exact ⟨outcome, offering, [.coldRead], _, came,
        fun call made => ⟨boundary, rfl, around call made⟩, rfl, spec⟩
  | some checkpoint =>
    obtain ⟨boundary, floor, found⟩ := Option.bind_eq_some_iff.1 stands
    rw [CheckpointCache.counterAt_of_start kept old floor found, floor]
    obtain ⟨outcome, offering, events, later, came, around, counted, spec⟩ :=
      comes_warmRead backend (warm checkpoint rfl) boundary settings.window now
    exact ⟨outcome, offering, events, later, came,
      fun call made => ⟨boundary, rfl, around call made⟩, counted, spec⟩

end Fated

/-! ## What failures cost -/

namespace Engine

/-- Over a store that does not work now and then, a lookup older than the window makes calls on the
way from a checkpoint, if there is one, then those of the raw lookup, if there is no checkpoint or a
call on the way failed, and then calls around the grid instant for an offer. If the checkpoints
agree with the readings it fails for the store just when a call of the raw lookup fails. In every
other case it comes to what it comes to without failures, except that a checkpoint is offered where
the readings are read and no call for the offer fails. It counts a fallback just when a call on the
way from the checkpoint failed. -/
theorem counterAt_survives_failures {engine : Engine Rat (Fated Rat)} {source : Source Rat}
    {settings : CacheSettings} {time : Instant}
    (kept : engine.cache.settingsFor? source = some settings)
    (old : settings.window < engine.now.since time)
    (wholeAnchor : source.createdAt.IsWholeMilli) (wholeTime : time.IsWholeMilli)
    (whole : ∀ reading, engine.progress.world.database.readings.Carries source.id
      .cumulativeEnergy reading → reading.instant.IsWholeMilli)
    (agree : ∀ checkpoint ∈ (engine.cache.seriesOf source.id).entries,
      checkpoint.source = source.id ∧
        engine.progress.world.database.readings.Agrees source.id checkpoint)
    (backend : engine.progress.world.FailsAsBackend) :
    let fated := engine.progress.world
    let lookup := engine.cache.counterAt source time engine.now
    let asked := engine.perform Fated.serve .none lookup
    let plain := engine.faultless.perform Database.serve .none lookup
    let start := engine.cache.start? source settings time
    let path := fated.pathCalls start time
    let raw := fated.rawCallsAfter start source.id time
    ∃ offering, fated.exchanges lookup = path ++ (raw ++ offering) ∧
      (∀ call ∈ offering, ∃ boundary, (source.grid settings).floor? time = some boundary ∧
        call.request.IsAround source.id boundary .cumulativeEnergy) ∧
      ((∃ reason, asked.1 = .error (.storage reason)) ↔ raw.any Exchange.failed) ∧
      (raw.any Exchange.failed = false → asked.1 = plain.1.map fun read =>
        ⟨read.value, if fated.readsRaw start time && !offering.any Exchange.failed then
          CheckpointCache.offered? fated.database.readings source settings time engine.now
        else none⟩) ∧
      asked.2.progress.tally.fallbacks =
        engine.progress.tally.fallbacks + if path.any Exchange.failed then 1 else 0 := by
  intro fated lookup asked plain start path raw
  have warm : ∀ checkpoint, engine.cache.StartsFrom source engine.now time checkpoint →
      (checkpoint.counterFrom time).result fated.database =
        fated.database.readings.valueAt source.id time .cumulativeEnergy := by
    intro checkpoint starts
    obtain ⟨own, agrees⟩ := agree checkpoint starts.mem.1
    rw [← own] at whole agrees ⊢
    exact Checkpoint.result_counterFrom starts.mem.2 agrees whole
      (starts.isWholeMilli wholeAnchor) wholeTime
  have plainly : plain.1.map CounterRead.value =
      fated.database.readings.valueAt source.id time .cumulativeEnergy := by
    have performed : plain = _ := perform_eq rfl (CheckpointCache.uses_counterAt ..)
    rw [performed]
    exact CheckpointCache.map_value_counterAt_of_startsFrom warm
  obtain ⟨outcome, offering, events, later, came, around, counted, spec⟩ :=
    Fated.comes_counterAt backend kept old fun checkpoint found =>
      warm checkpoint (CheckpointCache.startsFrom_of_start? kept old found)
  obtain ⟨moment, performed⟩ := perform_of_comes came
  have performed : asked = _ := performed
  have total : asked.2.progress.tally.fallbacks =
      engine.progress.tally.fallbacks + if path.any Exchange.failed then 1 else 0 := by
    rw [performed]
    change (events.foldl Tally.add _).count .fallback = _
    rw [Tally.count_foldl_add, counted]
    rfl
  refine ⟨offering, came.exchanges_eq, around, ?_, ?_, total⟩
  · rw [performed]
    rcases spec with ⟨calm, same⟩ | ⟨failed, same⟩
    · refine iff_of_false (fun ⟨reason, storage⟩ => ?_) (Bool.eq_false_iff.1 calm)
      exact ReadingStore.valueAt_ne_storage _ _ _ _ _
        (Except.map_eq_error_iff.1 (same.symm.trans storage))
    · exact iff_of_true same failed
  · intro calm
    rw [performed]
    rcases spec with ⟨_, same⟩ | ⟨failed, _⟩
    · refine same.trans ?_
      rw [← plainly]
      cases plain.1 <;> rfl
    · exact absurd failed (Bool.eq_false_iff.1 calm)

/-- An engine over two readings of a meter and a checkpoint on their line. Those of its calls with
some numbers fail. -/
def resuming (numbers : List Nat) (error : StoreError) : Engine Rat (Fated Rat) :=
  let cold := failing numbers error
  { cold with cache :=
    cold.cache.withSeries "meter" (.ofList [⟨"meter", atMinute 60, 2, atMinute 1440⟩]) }

/-- The search after the target of the lookup fails and the lookup starts over from the readings,
where the search after the grid instant fails and costs the offer. The counter is the same. -/
theorem counterAt_survives_failures_resuming :
    let engine := resuming [1, 5] (.backend "down")
    let fated := engine.progress.world
    let lookup := engine.cache.counterAt hourlyMeter (atMinute 75) engine.now
    let asked := engine.perform Fated.serve .none lookup
    let plain := engine.faultless.perform Database.serve .none lookup
    (fated.exchanges lookup).map Exchange.failed = [false, true, false, false, false, true] ∧
    plain.1.map CounterRead.value = .ok (5 / 2) ∧
    asked.1.map (fun read => (read.value, read.pending.isSome)) = .ok (5 / 2, false) ∧
    (¬ ∃ reason, asked.1 = .error (.storage reason)) ∧
    asked.2.progress.tally.fallbacks = 1 := by
  intro engine fated lookup asked plain
  have backend : fated.FailsAsBackend := by
    intro number request error fate
    change (if number ∈ [1, 5] then some (StoreError.backend "down") else none) = some error at fate
    split at fate
    · exact ⟨"down", (Option.some_inj.1 fate).symm⟩
    · cases fate
  have agree : ∀ checkpoint ∈ (engine.cache.seriesOf "meter").entries,
      checkpoint.source = "meter" ∧ fated.database.readings.Agrees "meter" checkpoint := by
    have entries : (engine.cache.seriesOf "meter").entries =
        [⟨"meter", atMinute 60, 2, atMinute 1440⟩] := by decide +kernel
    rw [entries]
    refine List.forall_mem_singleton.2 ⟨rfl, ?_⟩
    unfold ReadingStore.Agrees
    decide +kernel
  have kept : engine.cache.settingsFor? hourlyMeter = some ⟨3600, 60⟩ := by decide
  have old : (⟨3600, 60⟩ : CacheSettings).window < engine.now.since (atMinute 75) := by decide
  obtain ⟨offering, made, _, fails, same, counted⟩ :=
    counterAt_survives_failures kept old ⟨0, rfl⟩ (isWholeMilli_atMinute 75)
      (isWhole_frozenEngine.readings "meter") agree backend
  let start := engine.cache.start? hourlyMeter ⟨3600, 60⟩ (atMinute 75)
  have fates : (fated.exchanges lookup).map Exchange.failed =
      [false, true, false, false, false, true] := by decide +kernel
  have pathFates : (fated.pathCalls start (atMinute 75)).map Exchange.failed = [false, true] := by
    decide +kernel
  have rawFates : (fated.rawCallsAfter start "meter" (atMinute 75)).map Exchange.failed =
      [false, false] := by decide +kernel
  have offeringFates : offering.map Exchange.failed = [false, true] := by
    have split := fates
    rw [made, List.map_append, List.map_append, pathFates] at split
    change [false, true] ++
      ((fated.rawCallsAfter start "meter" (atMinute 75)).map Exchange.failed ++ _) = _ at split
    rw [rawFates] at split
    simpa using split
  have plainly : plain.1.map CounterRead.value = .ok (5 / 2) := by decide +kernel
  have calm : (fated.rawCallsAfter start "meter" (atMinute 75)).any Exchange.failed = false := by
    rw [Exchange.any_failed, rawFates]
    rfl
  have abandoned : (fated.pathCalls start (atMinute 75)).any Exchange.failed = true := by
    rw [Exchange.any_failed, pathFates]
    rfl
  have unoffered : offering.any Exchange.failed = true := by
    rw [Exchange.any_failed, offeringFates]
    rfl
  refine ⟨fates, plainly, ?_, ?_, ?_⟩
  · have read := same calm
    rw [unoffered, Bool.not_true, Bool.and_false] at read
    change asked.1 = plain.1.map fun read => ⟨read.value, none⟩ at read
    rw [read]
    cases answered : plain.1 with
    | error error =>
      rw [answered] at plainly
      cases plainly
    | ok given =>
      rw [answered] at plainly
      exact congrArg (fun value => Except.ok (value, false)) (Except.ok.inj plainly)
  · exact fun storage => Bool.eq_false_iff.1 calm (fails.1 storage)
  · exact counted.trans (congrArg (fun given => 0 + if given = true then 1 else 0) abandoned)

end Engine

end Metering
