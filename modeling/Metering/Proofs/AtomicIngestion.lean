import Metering.Proofs.Exchanges
import Metering.Proofs.Perform

/-!
# Ingestion over calls that fail

An ingestion asks for the definition of its source, stores the reading and looks
up the neighbours of the reading, and any of these calls may fail. Nothing is
written before the last of them has come back: up to the insertion a failure is
the ingestion's own and leaves everything as it was, and after it a failure
costs the upkeep and nothing else (`Engine.ingest_atomic`).
-/

namespace Metering

variable {σ α β ω : Type}

namespace Request

variable {id : SourceId} {time : Instant} {request : Request σ}

/-- A search beside an instant does not ask for a definition. -/
theorem IsBeside.not_definition (beside : request.IsBeside id time) (source : SourceId) :
    request ≠ .definition source := by
  rintro rfl
  obtain ⟨_, _, sought⟩ | ⟨_, _, sought⟩ := beside <;> cases sought

/-- A search beside an instant does not store a reading. -/
theorem IsBeside.not_insert (beside : request.IsBeside id time) (reading : Reading σ) :
    request ≠ .insert reading := by
  rintro rfl
  obtain ⟨_, _, sought⟩ | ⟨_, _, sought⟩ := beside <;> cases sought

end Request

/-! ## The stages of an ingestion -/

namespace Fated

/-- A plan that calls nothing comes to what it comes to over the database. -/
theorem comes_of_silent {plan : Plan σ α} {counted : CacheEvent → Prop}
    (silent : plan.Uses (fun _ => False) counted) (fated : Fated σ) :
    fated.Comes plan (plan.result fated.database) [] (plan.events fated.database) fated := by
  induction plan with
  | done result => exact comes_done fated result
  | ask request next => exact silent.1.elim
  | tally event next ih => exact (ih silent.2).tally event
  | poll next ih => exact (ih silent).poll

section Silent

variable {fated later : Fated σ} {attempt : Attempt σ α} {next : α → Attempt σ β} {value : α}
  {calls : List (Exchange σ)} {events : List CacheEvent}

/-- What calls nothing after an attempt comes to what it comes to over the database. -/
theorem Comes.bind_silent (first : fated.Comes attempt.run (.ok value) calls events later)
    (silent : (next value).Uses (fun _ => False) fun _ => True) :
    fated.Comes (attempt >>= next).run ((next value).result later.database) calls
      (events ++ (next value).events later.database) later := by
  have both := first.bind_ok (comes_of_silent silent later)
  rw [List.append_nil] at both
  exact both

/-- If an attempt comes to what it comes to over the database, so does the whole if nothing more is
called after it. -/
theorem Comes.bind_plain
    (first : fated.Comes attempt.run (attempt.result fated.database) calls
      (attempt.events fated.database) later)
    (found : attempt.result fated.database = .ok value) (still : later.database = fated.database)
    (silent : (next value).Uses (fun _ => False) fun _ => True) :
    fated.Comes (attempt >>= next).run ((attempt >>= next).result fated.database) calls
      ((attempt >>= next).events fated.database) later := by
  rw [found] at first
  have both := first.bind_silent silent
  rw [still] at both
  rw [Attempt.result_bind, Attempt.events_bind, found]
  exact both

end Silent

variable [Scalar σ]

omit [Scalar σ] in
/-- Storing a reading fails and stores nothing, or the reading is stored. -/
theorem comes_insert (fated : Fated σ) (reading : Reading σ) :
    (∃ error, fated.Comes (Attempt.insert reading).run (.error error.toQueryError)
        [⟨.insert reading, .error error⟩] [] (fated.after 1)) ∨
      ∃ readings, fated.database.readings.insert reading = .ok readings ∧
        fated.Comes (Attempt.insert reading).run (.ok ()) [⟨.insert reading, .ok ()⟩] []
          { fated.after 1 with database := { fated.database with readings := readings } } := by
  cases fate : (fated.fate fated.calls (.insert reading)).failure with
  | some error => exact Or.inl ⟨error, .ask (serve_of_failure fate) (comes_done _ _)⟩
  | none =>
    have served := serve_of_no_failure fate
    cases stored : fated.database.readings.insert reading with
    | error error =>
      have answered : fated.database.answer (.insert reading) = (.error error, fated.database) := by
        simp only [Database.answer, Database.insert, stored]
        rfl
      rw [answered] at served
      exact Or.inl ⟨error, .ask served (comes_done _ _)⟩
    | ok readings =>
      have answered : fated.database.answer (.insert reading) =
          (.ok (), { fated.database with readings := readings }) := by
        simp only [Database.answer, Database.insert, stored]
        rfl
      rw [answered] at served
      exact Or.inr ⟨readings, rfl, .ask served (comes_done _ _)⟩

variable (cache : CheckpointCache σ) (source : Source σ) (reading : Reading σ) (now : Instant)

/-- Bringing a series up to date looks up the neighbours of the reading. If one of these calls fails
it fails before anything is counted, and if none does it comes to what it comes to over the
database. -/
theorem comes_maintain (fated : Fated σ) (settings : CacheSettings) :
    ∃ outcome calls events,
      fated.Comes (cache.maintain source settings reading now).run outcome calls events
        (fated.after calls.length) ∧
      (∀ call ∈ calls, call.request.IsBeside source.id reading.instant) ∧
      ((∀ call ∈ calls, call.failed = false) ∧
          outcome = (cache.maintain source settings reading now).result fated.database ∧
          events = (cache.maintain source settings reading now).events fated.database ∨
        (∃ call ∈ calls, call.failed) ∧ (∃ error, outcome = .error error) ∧ events = []) := by
  let calls := fated.exchanges (CheckpointCache.neighboursOf source.id reading)
  have asks : (CheckpointCache.neighboursOf source.id reading).Uses
      (Request.IsBeside source.id reading.instant) fun _ => False :=
    CheckpointCache.asks_neighboursOf source.id reading
  have lookups : (CheckpointCache.neighboursOf source.id reading).Uses Request.IsLookup
      fun _ => False :=
    CheckpointCache.uses_neighboursOf source.id reading
  have beside : ∀ call ∈ calls, call.request.IsBeside source.id reading.instant :=
    allowed_of_mem_exchanges asks fated
  obtain ⟨outcome, events, came, spec⟩ := comes_of_passesOn
    (CheckpointCache.passesOn_neighboursOf source.id reading) lookups fated
  rcases spec with ⟨calm, rfl, rfl⟩ | ⟨call, member, failed, number, error, _, rfl, silent⟩
  · have found := CheckpointCache.result_neighboursOf fated.database source.id reading
    refine ⟨_, calls, _, came.bind_plain found rfl ?_, beside, Or.inl ⟨calm, rfl, rfl⟩⟩
    refine (Attempt.uses_tallyAll fun _ _ => trivial).bind fun _ => ?_
    refine (Attempt.uses_ofExcept _).bind fun candidates => ?_
    exact (Attempt.uses_tallyAll fun _ _ => trivial).bind fun _ => Attempt.uses_pure _
  · obtain rfl : events = [] := List.eq_nil_iff_forall_not_mem.2 silent
    exact ⟨_, calls, [], came.bind_error _, beside, Or.inr ⟨⟨call, member, failed⟩, ⟨_, rfl⟩, rfl⟩⟩

/-- What follows an insertion looks up the neighbours of the reading at most, and fails in no case.
If one of these calls fails it counts a fallback and leaves the cache as it is, and if none does it
comes to what it comes to over the database. -/
theorem comes_upkeep (fated : Fated σ) :
    ∃ written later calls events,
      fated.Comes (cache.upkeep source reading now).run (.ok (written, later)) calls events
        (fated.after calls.length) ∧
      (∀ call ∈ calls, call.request.IsBeside source.id reading.instant) ∧
      (∀ id, source.id ≠ id → later.seriesOf id = cache.seriesOf id) ∧
      ((∀ call ∈ calls, call.failed = false) ∧
          (cache.upkeep source reading now).result fated.database = .ok (written, later) ∧
          events = (cache.upkeep source reading now).events fated.database ∨
        (∃ call ∈ calls, call.failed) ∧ later = cache ∧ events = [.fallback]) := by
  have silent : ∀ value : Nat × CheckpointCache σ, (do
      Attempt.tally .fallback
      return value : Attempt σ (Nat × CheckpointCache σ)).Uses (fun _ => False) fun _ => True :=
    fun _ => (Attempt.uses_tally trivial).bind fun _ => Attempt.uses_pure _
  by_cases due : ∃ settings, cache.CallsForUpkeep source settings reading now
  · obtain ⟨settings, due⟩ := due
    rw [CheckpointCache.upkeep_eq_of_calls due]
    obtain ⟨outcome, calls, events, came, beside, spec⟩ :=
      comes_maintain cache source reading now fated settings
    have tried := came.outcome
    rcases spec with ⟨calm, rfl, rfl⟩ | ⟨failed, ⟨error, rfl⟩, rfl⟩
    · rw [Attempt.result_bind, Attempt.events_bind, Attempt.result_outcome, Attempt.events_outcome]
      cases found : (cache.maintain source settings reading now).result fated.database with
      | ok kept =>
        rw [found] at tried
        obtain ⟨written, series⟩ := kept
        refine ⟨written, cache.withSeries source.id series, calls, _,
          tried.bind_silent (Attempt.uses_pure _), beside, fun id other => ?_,
          Or.inl ⟨calm, rfl, rfl⟩⟩
        rw [CheckpointCache.seriesOf_withSeries, if_neg other]
      | error error =>
        rw [found] at tried
        exact ⟨0, cache, calls, _, tried.bind_silent (silent _), beside, fun _ _ => rfl,
          Or.inl ⟨calm, rfl, rfl⟩⟩
    · exact ⟨0, cache, calls, _, tried.bind_silent (silent _), beside, fun _ _ => rfl,
        Or.inr ⟨failed, rfl, rfl⟩⟩
  · rw [CheckpointCache.upkeep_eq_of_not_calls (not_exists.1 due)]
    exact ⟨0, cache, [], [], comes_done _ _, List.forall_mem_nil _, fun _ _ => rfl,
      Or.inl ⟨List.forall_mem_nil _, rfl, rfl⟩⟩

end Fated

/-- What an ingestion that stores its reading leaves behind. The calls that failed were for the
neighbours of the reading. If there were none the upkeep comes to what it comes to over the database
with the reading in it, and if there were the cache stays and a fallback is counted. -/
structure Ingested [Scalar σ] (database after : Database σ) (cache final : CheckpointCache σ)
    (source : Source σ) (reading : Reading σ) (now : Instant) (written : Nat)
    (calls : List (Exchange σ)) (events : List CacheEvent) : Prop where
  /-- The reading is stored and nothing else. -/
  stored : database.readings.insert reading = .ok after.readings
  /-- The catalog stays. -/
  catalog : after.catalog = database.catalog
  /-- Calls that failed were for the neighbours of the reading. -/
  beside : ∀ call ∈ calls, call.failed → call.request.IsBeside source.id reading.instant
  /-- The checkpoints of other sources stay. -/
  others : ∀ id, source.id ≠ id → final.seriesOf id = cache.seriesOf id
  /-- The checkpoints are brought up to date or stay. -/
  upkept : (∀ call ∈ calls, call.failed = false) ∧
      (cache.upkeep source reading now).result after = .ok (written, final) ∧
      events = (cache.upkeep source reading now).events after ∨
    (∃ call ∈ calls, call.failed) ∧ final = cache ∧ events = [.fallback]

section Ingested

variable [Scalar σ] {database after : Database σ} {cache final : CheckpointCache σ}
  {source : Source σ} {reading : Reading σ} {now : Instant} {written : Nat}
  {calls earlier : List (Exchange σ)} {events : List CacheEvent}

/-- Calls before that do not fail make no difference. -/
theorem Ingested.append
    (ingested : Ingested database after cache final source reading now written calls events)
    (calm : ∀ call ∈ earlier, call.failed = false) :
    Ingested database after cache final source reading now written (earlier ++ calls) events := by
  refine ⟨ingested.stored, ingested.catalog, fun call member failed => ?_, ingested.others, ?_⟩
  · rcases List.mem_append.1 member with early | late
    · exact absurd failed (Bool.eq_false_iff.1 (calm call early))
    · exact ingested.beside call late failed
  · rcases ingested.upkept with ⟨fine, upkept⟩ | ⟨⟨call, member, failed⟩, same⟩
    · refine Or.inl ⟨fun call member => ?_, upkept⟩
      exact (List.mem_append.1 member).elim (calm call) (fine call)
    · exact Or.inr ⟨⟨call, List.mem_append_right _ member, failed⟩, same⟩

/-- Storing a reading of a leaf and bringing its checkpoints up to date fails because the insertion
does, or the reading is ingested. -/
theorem Fated.comes_ingest (fated : Fated σ) (cache : CheckpointCache σ) (source : Source σ)
    (reading : Reading σ) (now : Instant) :
    ∃ outcome calls events later,
      fated.Comes (cache.ingest source reading now).run outcome calls events later ∧
      ((∃ error, outcome = .error error) ∧ later.database = fated.database ∧
          (∃ call ∈ calls, call.request = .insert reading ∧ call.failed) ∨
        ∃ written final, outcome = .ok (written, final) ∧ Ingested fated.database later.database
          cache final source reading now written calls events) := by
  rw [CheckpointCache.ingest_eq]
  rcases comes_insert fated reading with ⟨error, refused⟩ | ⟨readings, stored, accepted⟩
  · exact ⟨_, _, _, _, refused.bind_error _,
      Or.inl ⟨⟨_, rfl⟩, rfl, _, List.mem_singleton_self _, rfl, rfl⟩⟩
  · obtain ⟨written, final, looked, counted, kept, beside, others, upkept⟩ :=
      comes_upkeep cache source reading now
        { fated.after 1 with database := { fated.database with readings := readings } }
    have ingested : Ingested fated.database { fated.database with readings := readings } cache final
        source reading now written looked counted :=
      ⟨stored, rfl, fun call member _ => beside call member, others, upkept⟩
    have calm : ∀ call ∈ [(⟨.insert reading, .ok ()⟩ : Exchange σ)], call.failed = false :=
      List.forall_mem_singleton.2 rfl
    exact ⟨_, _, _, _, accepted.bind_ok kept,
      Or.inr ⟨written, final, rfl, ingested.append calm⟩⟩

end Ingested

/-! ## The whole ingestion -/

namespace Engine

/-- Resolving a leaf over a database fails where there is no definition or not one of a leaf. -/
theorem no_leaf_of_result_resolveLeaf {database : Database σ} {id : SourceId} {error : QueryError}
    (failed : (resolveLeaf id).result database = .error error) :
    database.catalog.get? id = none ∨
      ∃ source, database.catalog.get? id = some source ∧ source.isLeaf = false := by
  cases found : database.catalog.get? id with
  | none => exact Or.inl rfl
  | some source =>
    cases isLeaf : source.isLeaf with
    | false => exact Or.inr ⟨source, rfl, isLeaf⟩
    | true =>
      rw [(result_resolveLeaf_eq_ok_iff database id source).2 ⟨found, isLeaf⟩] at failed
      cases failed

/-- What an engine takes in of what an attempt comes to. -/
theorem takeIn_of_comes {engine : Engine σ (Fated σ)}
    {attempt : Attempt σ (Nat × CheckpointCache σ)}
    {outcome : Except QueryError (Nat × CheckpointCache σ)} {calls : List (Exchange σ)}
    {events : List CacheEvent} {later : Fated σ}
    (came : engine.progress.world.Comes attempt.run outcome calls events later) :
    ∃ moment, engine.takeIn Fated.serve attempt =
      (outcome.map Prod.fst, ⟨(outcome.map Prod.snd).toOption.getD engine.cache, engine.now,
        ⟨later, moment, events.foldl Tally.add engine.progress.tally⟩⟩) := by
  obtain ⟨moment, performed⟩ := perform_of_comes came
  refine ⟨moment, ?_⟩
  unfold takeIn
  rw [performed]
  cases outcome <;> rfl

variable [Scalar σ]

/-- What an ingestion does. -/
def ingestion (engine : Engine σ ω) (reading : Reading σ) :
    Attempt σ (Nat × CheckpointCache σ) := do
  let source ← resolveLeaf reading.source
  engine.cache.ingest source reading engine.now

/-- Why an ingestion fails: the call for the definition of its source fails, there is none or not
one of a leaf, or the insertion fails. -/
def Refuses (database : Database σ) (reading : Reading σ) (calls : List (Exchange σ)) : Prop :=
  (∃ call ∈ calls, call.request = .definition reading.source ∧ call.failed) ∨
    database.catalog.get? reading.source = none ∨
    (∃ source, database.catalog.get? reading.source = some source ∧ source.isLeaf = false) ∨
    ∃ call ∈ calls, call.request = .insert reading ∧ call.failed

/-- A reading that is ingested for a leaf is not refused. -/
theorem not_refuses_of_ingested {database after : Database σ} {cache final : CheckpointCache σ}
    {source : Source σ} {reading : Reading σ} {now : Instant} {written : Nat}
    {calls : List (Exchange σ)} {events : List CacheEvent}
    (found : database.catalog.get? reading.source = some source) (leaf : source.isLeaf)
    (ingested : Ingested database after cache final source reading now written calls events) :
    ¬ Refuses database reading calls := by
  rintro (⟨call, member, asked, failed⟩ | nothing | ⟨other, defined, virtual⟩ |
    ⟨call, member, asked, failed⟩)
  · exact (ingested.beside call member failed).not_definition _ asked
  · rw [nothing] at found
    cases found
  · rw [found] at defined
    obtain rfl := Option.some_inj.1 defined
    rw [leaf] at virtual
    cases virtual
  · exact (ingested.beside call member failed).not_insert _ asked

/-- An ingestion is refused and leaves the database as it was, or the reading is ingested for a
leaf. -/
theorem comes_ingestion (engine : Engine σ (Fated σ)) (reading : Reading σ) :
    let before := engine.progress.world.database
    ∃ outcome calls events later,
      engine.progress.world.Comes (engine.ingestion reading).run outcome calls events later ∧
      ((∃ error, outcome = .error error) ∧ later.database = before ∧
          Refuses before reading calls ∨
        ∃ source written final, outcome = .ok (written, final) ∧
          before.catalog.get? reading.source = some source ∧ source.isLeaf ∧
          Ingested before later.database engine.cache final source reading engine.now written calls
            events) := by
  obtain ⟨cache, now, fated, elapsed, tally⟩ := engine
  intro before
  let resolving := fated.exchanges (resolveLeaf reading.source)
  have asked : ∀ call ∈ resolving, call.request = .definition reading.source :=
    Fated.allowed_of_mem_exchanges (asks_resolveLeaf reading.source) fated
  obtain ⟨outcome, events, came, spec⟩ := Fated.comes_of_passesOn
    (passesOn_resolveLeaf reading.source) (uses_resolveLeaf reading.source) fated
  rcases spec with ⟨calm, rfl, rfl⟩ | ⟨call, member, failed, number, error, _, rfl, _⟩
  · change fated.Comes (resolveLeaf reading.source).run
      ((resolveLeaf reading.source).result before) resolving
      ((resolveLeaf reading.source).events before) _ at came
    rw [events_resolveLeaf] at came
    cases resolved : (resolveLeaf reading.source).result before with
    | error error =>
      rw [resolved] at came
      have nowhere := no_leaf_of_result_resolveLeaf resolved
      exact ⟨_, _, _, _, came.bind_error _, Or.inl ⟨⟨error, rfl⟩, rfl,
        Or.inr (nowhere.imp_right Or.inl)⟩⟩
    | ok source =>
      rw [resolved] at came
      obtain ⟨found, leaf⟩ := (result_resolveLeaf_eq_ok_iff ..).1 resolved
      obtain ⟨outcome, calls, events, later, kept, spec⟩ :=
        (fated.after resolving.length).comes_ingest cache source reading now
      refine ⟨outcome, _, _, later, came.bind_ok kept, ?_⟩
      rcases spec with ⟨fails, still, call, member, failed⟩ | ⟨written, final, same, ingested⟩
      · exact Or.inl ⟨fails, still, Or.inr (Or.inr (Or.inr
          ⟨call, List.mem_append_right _ member, failed⟩))⟩
      · exact Or.inr ⟨source, written, final, same, found, leaf, ingested.append calm⟩
  · exact ⟨_, _, _, _, came.bind_error _, Or.inl ⟨⟨_, rfl⟩, rfl,
      Or.inl ⟨call, member, asked call member, failed⟩⟩⟩

/-- Over a fated database, whatever calls fail and with whatever error, an ingestion fails exactly
if the call for the definition of the source fails, there is no definition, it is not one of a leaf,
or the insertion fails, be it because the source has a reading at the instant. Then the database and
the cache are as they were. An ingestion that does not fail has stored the reading and nothing else.
If a call failed it was one for a neighbour of the reading, the cache is as it was, and a fallback
is counted. If none did, the cache and the counters are what they are over a database that does not
fail. The checkpoints of other sources stay in any case. -/
theorem ingest_atomic (engine : Engine σ (Fated σ)) (reading : Reading σ) :
    let taken := engine.ingest Fated.serve reading
    let plain := engine.faultless.ingest Database.serve reading
    let calls := engine.progress.world.exchanges (engine.ingestion reading)
    let before := engine.progress.world.database
    let after := taken.2.progress.world.database
    ((∃ error, taken.1 = .error error) ↔
      (∃ call ∈ calls, call.request = .definition reading.source ∧ call.failed) ∨
      before.catalog.get? reading.source = none ∨
      (∃ source, before.catalog.get? reading.source = some source ∧ source.isLeaf = false) ∨
      ∃ call ∈ calls, call.request = .insert reading ∧ call.failed) ∧
    (∀ error, taken.1 = .error error → after = before ∧ taken.2.cache = engine.cache) ∧
    (∀ written, taken.1 = .ok written →
      (before.readings.insert reading = .ok after.readings ∧ after.catalog = before.catalog ∧
        ∀ id other, other ∈ (after.readings.timeline id).entries ↔
          other ∈ (before.readings.timeline id).entries ∨ reading.source = id ∧ other = reading) ∧
      ((∀ call ∈ calls, call.failed = false) ∧ plain.1 = .ok written ∧
          taken.2.cache = plain.2.cache ∧ taken.2.progress.tally = plain.2.progress.tally ∨
        (∃ source, before.catalog.get? reading.source = some source ∧ ∃ call ∈ calls,
            call.request.IsBeside source.id reading.instant ∧ call.failed) ∧
          taken.2.cache = engine.cache ∧
          taken.2.progress.tally = engine.progress.tally.add .fallback)) ∧
    ∀ id, (∀ source, before.catalog.get? reading.source = some source → source.id ≠ id) →
      taken.2.cache.seriesOf id = engine.cache.seriesOf id := by
  intro taken plain calls before after
  obtain ⟨outcome, made, events, later, came, spec⟩ := comes_ingestion engine reading
  obtain ⟨moment, took⟩ := takeIn_of_comes came
  change taken = _ at took
  obtain rfl : calls = made := came.exchanges_eq
  have left : later.database = after :=
    congrArg (fun taken => taken.2.progress.world.database) took.symm
  rw [left] at spec
  have counted : taken.2.progress.tally = events.foldl Tally.add engine.progress.tally :=
    congrArg (fun taken => taken.2.progress.tally) took
  rcases spec with ⟨⟨error, rfl⟩, still, reason⟩ | ⟨source, written, final, rfl, found, leaf,
    ingested⟩
  · have failed : taken.1 = .error error := congrArg Prod.fst took
    have unchanged : taken.2.cache = engine.cache := congrArg (fun taken => taken.2.cache) took
    refine ⟨iff_of_true ⟨error, failed⟩ reason, fun _ _ => ⟨still, unchanged⟩,
      fun written succeeded => ?_, fun id _ => by rw [unchanged]⟩
    cases failed.symm.trans succeeded
  · have succeeded : taken.1 = .ok written := congrArg Prod.fst took
    have kept : taken.2.cache = final := congrArg (fun taken => taken.2.cache) took
    have fine : ¬ ∃ error, taken.1 = .error error := by
      rintro ⟨error, failed⟩
      cases failed.symm.trans succeeded
    rw [kept, counted]
    refine ⟨iff_of_false fine (not_refuses_of_ingested found leaf ingested),
      fun error failed => absurd ⟨error, failed⟩ fine, fun number same => ⟨⟨ingested.stored,
        ingested.catalog, ReadingStore.mem_timeline_of_insert ingested.stored⟩, ?_⟩,
      fun id other => ingested.others id (other source found)⟩
    obtain rfl := Except.ok.inj (succeeded.symm.trans same)
    rcases ingested.upkept with ⟨calm, result, rfl⟩ | ⟨⟨call, member, failed⟩, rfl, rfl⟩
    · have accepted : engine.faultless.progress.world.accept reading = .ok (source, after) :=
        (Database.accept_eq_ok_iff ..).2 ⟨⟨found, leaf⟩, ingested.stored, ingested.catalog⟩
      have plainly : plain = _ := ingest_of_accept_ok accepted result
      rw [plainly]
      exact Or.inl ⟨calm, rfl, rfl, rfl⟩
    · exact Or.inr ⟨⟨source, found, call, member, ingested.beside call member failed, failed⟩,
        rfl, rfl⟩

/-- The search for the reading after a new one fails. The new reading is stored between the two that
are there, no checkpoint is written, and a fallback is counted. -/
example :
    let taken := (failing [3] (.backend "down")).ingest Fated.serve (hourlyReading 60 3)
    taken.1 = .ok 0 ∧
      (taken.2.progress.world.database.readings.timeline "meter").entries.map Reading.instant =
        [atMinute 180, atMinute 60, atMinute 0] ∧
      (taken.2.cache.seriesOf "meter").entries = [] ∧
      taken.2.progress.tally.fallbacks = 1 := by
  decide +kernel

end Engine

end Metering
