import Metering.Proofs.Backing
import Metering.Proofs.Possible
import Metering.Proofs.WarmRead

/-!
# What a lookup comes to

A lookup of a counter offers only checkpoints that are backed
(`isBacked_of_pending`). With all instants on whole milliseconds it has the
value or the error that the readings alone give, unless it starts from a
checkpoint that does not agree with them (`map_value_counterAt`).
-/

namespace Metering

variable {σ : Type}

/-- Whether an event is counted by lookups. -/
def CacheEvent.IsOfLookup : CacheEvent → Prop
  | .hit => True
  | .coldRead => True
  | .windowBypass => True
  | .fallback => True
  | _ => False

/-- A request looks for the reading nearest to an instant, on either side of it. -/
def Request.IsAround (id : SourceId) (time : Instant) (field : Field) (request : Request σ) : Prop :=
  request = .nearestBefore id time field ∨ request = .nearestAfter id time field

/-- A search around an instant is a lookup. -/
theorem Request.IsAround.isLookup {id : SourceId} {time : Instant} {field : Field}
    {request : Request σ} (around : request.IsAround id time field) : request.IsLookup := by
  obtain rfl | rfl := around <;> trivial

/-! ## What lookups ask for -/

/-- Finding a bracket asks for the readings around its target, and counts nothing. -/
theorem Bracket.asks_find (id : SourceId) (time : Instant) (field : Field) :
    (find id time field : Attempt σ (Bracket σ)).Uses (Request.IsAround id time field)
      fun _ => False := by
  unfold find
  refine (Attempt.uses_request (Or.inl rfl)).bind fun before => ?_
  cases before with
  | none =>
    refine (Attempt.uses_request (Or.inr rfl)).bind fun after => ?_
    cases after <;> exact Attempt.uses_throw _
  | some reading =>
    dsimp only
    split
    · exact Attempt.uses_pure _
    · refine (Attempt.uses_request (Or.inr rfl)).bind fun after => ?_
      cases after with
      | none => exact Attempt.uses_throw _
      | some next => exact Attempt.uses_ofExcept _

/-- Finding a bracket only looks things up. -/
theorem Bracket.uses_find (id : SourceId) (time : Instant) (field : Field) :
    (find id time field : Attempt σ (Bracket σ)).Uses Request.IsLookup CacheEvent.IsOfLookup :=
  Plan.Uses.imp (asks_find id time field) (fun _ around => around.isLookup) fun _ never =>
    never.elim

variable [Scalar σ]

/-- Finding a value asks for the readings around its target, and counts nothing. -/
theorem Bracket.asks_valueAt (id : SourceId) (time : Instant) (field : Field) :
    (valueAt id time field : Attempt σ σ).Uses (Request.IsAround id time field) fun _ => False :=
  (asks_find id time field).bind fun _ => Attempt.uses_ofExcept _

/-- Finding a value only looks things up. -/
theorem Bracket.uses_valueAt (id : SourceId) (time : Instant) (field : Field) :
    (valueAt id time field : Attempt σ σ).Uses Request.IsLookup CacheEvent.IsOfLookup :=
  (uses_find id time field).bind fun _ => Attempt.uses_ofExcept _

/-- Reading on from a checkpoint only looks things up, and counts nothing. -/
theorem Checkpoint.uses_counterFrom {counted : CacheEvent → Prop} (checkpoint : Checkpoint σ)
    (time : Instant) : (checkpoint.counterFrom time).Uses Request.IsLookup counted := by
  unfold counterFrom
  split
  · exact Attempt.uses_pure _
  · refine (Attempt.uses_request trivial).bind fun recent => ?_
    dsimp only
    split
    · exact Attempt.uses_ofExcept _
    · refine (Attempt.uses_request trivial).bind fun after => ?_
      cases after with
      | none => exact Attempt.uses_throw _
      | some next => exact Attempt.uses_ofExcept _

namespace CheckpointCache

/-- A lookup from the readings only looks things up. -/
theorem uses_coldRead (id : SourceId) (time : Instant) :
    (coldRead id time : Attempt σ (CounterRead σ)).Uses Request.IsLookup CacheEvent.IsOfLookup :=
  (Bracket.uses_valueAt id time .cumulativeEnergy).bind fun _ => Attempt.uses_pure _

/-- A lookup from the readings with an offer only looks things up. -/
theorem uses_coldReadWithOffer (id : SourceId) (boundary time : Instant) (window : Span)
    (now : Instant) :
    (coldReadWithOffer id boundary time window now : Attempt σ (CounterRead σ)).Uses
      Request.IsLookup CacheEvent.IsOfLookup := by
  unfold coldReadWithOffer
  refine (Attempt.uses_tally trivial).bind fun _ => ?_
  refine (uses_coldRead id time).bind fun read => ?_
  exact (Bracket.uses_find id boundary .cumulativeEnergy).outcome.bind fun _ =>
    Attempt.uses_pure _

/-- A lookup of a counter only looks things up. -/
theorem uses_counterAt (cache : CheckpointCache σ) (source : Source σ) (time now : Instant) :
    (cache.counterAt source time now).Uses Request.IsLookup CacheEvent.IsOfLookup := by
  have cold : ∀ event, event.IsOfLookup → (do
      Attempt.tally event
      coldRead source.id time : Attempt σ (CounterRead σ)).Uses Request.IsLookup
        CacheEvent.IsOfLookup :=
    fun event permitted => (Attempt.uses_tally permitted).bind fun _ => uses_coldRead source.id time
  unfold counterAt
  split
  · exact cold _ trivial
  · split
    · exact cold _ trivial
    · split
      · exact cold _ trivial
      · split
        · refine (Checkpoint.uses_counterFrom _ time).outcome.bind fun outcome => ?_
          cases outcome with
          | ok value => exact (Attempt.uses_tally trivial).bind fun _ => Attempt.uses_pure _
          | error error =>
            cases error with
            | storage reason =>
              exact (Attempt.uses_tally trivial).bind fun _ => uses_coldReadWithOffer ..
            | _ => exact Attempt.uses_throw _
        · exact uses_coldReadWithOffer ..

/-! ## What lookups come to -/

/-- What a lookup from the readings comes to. -/
theorem result_coldRead (database : Database σ) (id : SourceId) (time : Instant) :
    (coldRead id time).result database =
      database.readings.valueAt id time .cumulativeEnergy >>= fun value => .ok ⟨value, none⟩ := by
  unfold coldRead
  rw [Attempt.result_bind, Bracket.result_valueAt]
  rfl

/-- What a lookup from the readings with an offer comes to. -/
theorem result_coldReadWithOffer (database : Database σ) (id : SourceId)
    (boundary time : Instant) (window : Span) (now : Instant) :
    (coldReadWithOffer id boundary time window now).result database =
      database.readings.valueAt id time .cumulativeEnergy >>= fun value =>
        .ok ⟨value, offer id boundary window now
          (database.readings.bracket id boundary .cumulativeEnergy)⟩ := by
  unfold coldReadWithOffer
  simp only [Attempt.result_bind, Attempt.result_tally, Except.ok_bind, result_coldRead,
    Attempt.result_outcome, Bracket.result_find, Attempt.result_pure]
  cases database.readings.valueAt id time .cumulativeEnergy <;> rfl

/-! ## What lookups offer -/

/-- A checkpoint is offered for a bracket that has settled, with its value. -/
theorem exists_bracket_of_offer {id : SourceId} {boundary : Instant} {window : Span}
    {now : Instant} {found : Except QueryError (Bracket σ)} {checkpoint : Checkpoint σ}
    (offered : offer id boundary window now found = some checkpoint) :
    ∃ bracket value, found = .ok bracket ∧ window < now.since bracket.after.instant ∧
      bracket.interpolate = .ok value ∧ checkpoint = ⟨id, boundary, value, now⟩ := by
  unfold offer at offered
  cases found with
  | error error => cases offered
  | ok bracket =>
    dsimp only at offered
    split at offered
    · cases offered
    · rename_i old
      cases value : bracket.interpolate with
      | error error =>
        rw [value] at offered
        cases offered
      | ok energy =>
        rw [value] at offered
        exact ⟨bracket, energy, rfl, Int.not_le.1 old, value, (Option.some_inj.1 offered).symm⟩

section Possible

variable {possible : Possibility σ} {events : List CacheEvent} {cache : CheckpointCache σ}
  {source : Source σ} {time now : Instant} {read : CounterRead σ} {checkpoint : Checkpoint σ}

/-- A lookup from the readings offers nothing. -/
theorem pending_of_coldRead {id : SourceId}
    (came : (coldRead id time).Yields possible events (.ok read)) : read.pending = none := by
  obtain ⟨_, _, _, _, _, _, same⟩ := (Attempt.yields_bind_ok_iff ..).1 came
  rw [← Except.ok.inj same]

/-- What a lookup from the readings offers is for the bracket that it finds around the grid
instant. -/
theorem offer_of_coldReadWithOffer {id : SourceId} {boundary : Instant} {window : Span}
    (came : (coldReadWithOffer id boundary time window now).Yields possible events (.ok read))
    (pending : read.pending = some checkpoint) :
    ∃ found outcome, (Bracket.find id boundary .cumulativeEnergy).Yields possible found outcome ∧
      offer id boundary window now outcome = some checkpoint := by
  obtain ⟨_, _, looked⟩ := (Attempt.yields_tally_bind_iff ..).1 came
  obtain ⟨_, cold, _, _, _, offering⟩ := (Attempt.yields_bind_ok_iff ..).1 looked
  obtain ⟨found, outcome, _, _, around, _, same⟩ := (Attempt.yields_outcome_bind_iff ..).1 offering
  rw [← Except.ok.inj same] at pending
  exact ⟨found, outcome, around, pending⟩

/-- What a lookup offers is for the grid instant before a target that is older than the window, and
for the bracket that it finds around it. -/
theorem offer_of_yields (came : (cache.counterAt source time now).Yields possible events (.ok read))
    (pending : read.pending = some checkpoint) :
    ∃ settings boundary found outcome, cache.settingsFor? source = some settings ∧
      settings.window < now.since time ∧
      (source.grid settings).floor? time = some boundary ∧
      (Bracket.find source.id boundary .cumulativeEnergy).Yields possible found outcome ∧
      offer source.id boundary settings.window now outcome = some checkpoint := by
  have cold : ∀ event, (do
      Attempt.tally event
      coldRead source.id time : Attempt σ (CounterRead σ)).Yields possible events (.ok read) →
        False := by
    intro event tallied
    obtain ⟨_, _, looked⟩ := (Attempt.yields_tally_bind_iff ..).1 tallied
    rw [pending_of_coldRead looked] at pending
    cases pending
  unfold counterAt at came
  cases kept : cache.settingsFor? source with
  | none =>
    rw [kept] at came
    exact (cold _ came).elim
  | some settings =>
    simp only [kept] at came
    split at came
    · exact (cold _ came).elim
    · rename_i old
      cases floor : (source.grid settings).floor? time with
      | none =>
        simp only [floor] at came
        exact (cold _ came).elim
      | some boundary =>
        simp only [floor] at came
        suffices offering : ∃ later, (coldReadWithOffer source.id boundary time settings.window
            now).Yields possible later (.ok read) by
          obtain ⟨later, offering⟩ := offering
          obtain ⟨found, outcome, around, offered⟩ := offer_of_coldReadWithOffer offering pending
          exact ⟨settings, boundary, found, outcome, rfl, Int.not_le.1 old, floor, around, offered⟩
        split at came
        · unfold warmRead at came
          obtain ⟨_, result, later, _, _, rest⟩ := (Attempt.yields_outcome_bind_iff ..).1 came
          split at rest
          · obtain ⟨_, _, _, same⟩ := (Attempt.yields_tally_bind_iff ..).1 rest
            rw [← Except.ok.inj same] at pending
            cases pending
          · obtain ⟨last, _, offering⟩ := (Attempt.yields_tally_bind_iff ..).1 rest
            exact ⟨last, offering⟩
          · obtain ⟨_, same⟩ := rest
            cases same
        · exact ⟨events, came⟩

/-- What a lookup offers was worked out at the time of the lookup. -/
theorem computedAt_of_pending
    (came : (cache.counterAt source time now).Yields possible events (.ok read))
    (pending : read.pending = some checkpoint) : checkpoint.computedAt = now := by
  obtain ⟨_, _, _, _, _, _, _, _, offered⟩ := offer_of_yields came pending
  obtain ⟨_, _, _, _, _, rfl⟩ := exists_bracket_of_offer offered
  rfl

end Possible

variable {cache : CheckpointCache σ} {database : Database σ} {now time : Instant}
  {source : Source σ} {read : CounterRead σ} {checkpoint : Checkpoint σ}

/-- What is offered for an instant is the counter there, where the readings have settled. -/
theorem offer_eq_some {store : ReadingStore σ} {id : SourceId} {boundary : Instant}
    {window : Span}
    (offered : offer id boundary window now (store.bracket id boundary .cumulativeEnergy) =
      some checkpoint) :
    checkpoint.source = id ∧ checkpoint.instant = boundary ∧
      store.SettledAt id window now boundary ∧ store.Agrees id checkpoint := by
  obtain ⟨bracket, energy, around, old, value, rfl⟩ := exists_bracket_of_offer offered
  obtain ⟨before, after, pair, rfl⟩ := (ReadingStore.bracket_eq_ok_iff ..).1 around
  exact ⟨rfl, rfl, ⟨before, after, pair, old⟩, pair.valueAt_eq.trans value⟩

/-- What a lookup offers is on the grid of the source, where the readings have settled, with the
counter that they give. -/
theorem spec_of_pending (came : (cache.counterAt source time now).result database = .ok read)
    (pending : read.pending = some checkpoint) :
    checkpoint.source = source.id ∧ ∃ settings, cache.settingsFor? source = some settings ∧
      (source.grid settings).Has checkpoint.instant ∧
      database.readings.SettledAt source.id settings.window now checkpoint.instant ∧
      database.readings.Agrees source.id checkpoint := by
  obtain ⟨settings, boundary, _, outcome, kept, _, floor, found, offered⟩ :=
    offer_of_yields (Attempt.yields_of_result came) pending
  obtain ⟨onGrid, _⟩ := Grid.floor?_spec (Source.isRegular_of_floor? floor) floor
  rw [← Attempt.result_of_yields found, Bracket.result_find] at offered
  obtain ⟨own, here, settled, agrees⟩ := offer_eq_some offered
  subst here
  exact ⟨own, settings, kept, onGrid, settled, agrees⟩

/-- What a lookup offers is backed. -/
theorem isBacked_of_pending (defined : database.catalog.get? source.id = some source)
    (came : (cache.counterAt source time now).result database = .ok read)
    (pending : read.pending = some checkpoint) : cache.IsBacked database now checkpoint := by
  obtain ⟨own, settings, kept, onGrid, settled, agrees⟩ := spec_of_pending came pending
  exact ⟨source, settings, own.symm ▸ defined, kept, onGrid, own.symm ▸ settled,
    own.symm ▸ agrees⟩

end CheckpointCache

/-! ## What lookups read -/

namespace CheckpointCache

section Values

variable (database : Database σ) (id : SourceId) (time now : Instant)

/-- A lookup from the readings reads what they give. -/
theorem map_value_coldRead (event : CacheEvent) :
    ((do
      Attempt.tally event
      coldRead id time : Attempt σ (CounterRead σ)).result database).map CounterRead.value =
      database.readings.valueAt id time .cumulativeEnergy := by
  rw [Attempt.result_bind, Attempt.result_tally, Except.ok_bind, result_coldRead]
  cases database.readings.valueAt id time .cumulativeEnergy <;> rfl

/-- A lookup from the readings with an offer reads what they give. -/
theorem map_value_coldReadWithOffer (boundary : Instant) (window : Span) :
    ((coldReadWithOffer id boundary time window now).result database).map CounterRead.value =
      database.readings.valueAt id time .cumulativeEnergy := by
  rw [result_coldReadWithOffer]
  cases database.readings.valueAt id time .cumulativeEnergy <;> rfl

variable {database id time now}

/-- A lookup from a checkpoint reads what reading on from it comes to. -/
theorem map_value_warmRead_of_ok {checkpoint : Checkpoint σ} {value : σ}
    (warm : (checkpoint.counterFrom time).result database = .ok value) (boundary : Instant)
    (window : Span) :
    ((warmRead checkpoint id boundary time window now).result database).map CounterRead.value =
      .ok value := by
  unfold warmRead
  rw [Attempt.result_bind, Attempt.result_outcome, Except.ok_bind, warm]
  rfl

/-- A lookup from a checkpoint reads what the readings give if reading on from the checkpoint comes
to that. -/
theorem map_value_warmRead {checkpoint : Checkpoint σ}
    (warm : (checkpoint.counterFrom time).result database =
      database.readings.valueAt id time .cumulativeEnergy) (boundary : Instant) (window : Span) :
    ((warmRead checkpoint id boundary time window now).result database).map CounterRead.value =
      database.readings.valueAt id time .cumulativeEnergy := by
  cases value : database.readings.valueAt id time .cumulativeEnergy with
  | ok value => exact map_value_warmRead_of_ok (warm.trans value) boundary window
  | error error =>
    unfold warmRead
    rw [Attempt.result_bind, Attempt.result_outcome, Except.ok_bind, warm, value]
    cases error with
    | storage reason =>
      dsimp only
      rw [Attempt.result_bind, Attempt.result_tally, Except.ok_bind]
      exact (map_value_coldReadWithOffer ..).trans value
    | _ => rfl

end Values

section Start

variable {cache : CheckpointCache σ} {database : Database σ} {now time : Instant}
  {source : Source σ} {checkpoint : Checkpoint σ}

/-- A lookup starts from a checkpoint: its instant is older than the window, and the checkpoint is
at the instant of the grid before it. -/
def StartsFrom (cache : CheckpointCache σ) (source : Source σ) (now time : Instant)
    (checkpoint : Checkpoint σ) : Prop :=
  ∃ settings boundary, cache.settingsFor? source = some settings ∧
    settings.window < now.since time ∧ (source.grid settings).floor? time = some boundary ∧
    (cache.seriesOf source.id).at? boundary = some checkpoint

omit [Scalar σ] in
/-- A lookup starts from a checkpoint of the source's series that is at or before its instant. -/
theorem StartsFrom.mem (starts : cache.StartsFrom source now time checkpoint) :
    checkpoint ∈ (cache.seriesOf source.id).entries ∧ checkpoint.instant ≤ time := by
  obtain ⟨settings, boundary, kept, older, floor, found⟩ := starts
  obtain ⟨member, rfl⟩ := (Timeline.at?_eq_some_iff ..).1 found
  exact ⟨member, Grid.floor?_le _ floor⟩

omit [Scalar σ] in
/-- The checkpoint that a lookup starts from is at a whole millisecond if the source was created at
one. -/
theorem StartsFrom.isWholeMilli (starts : cache.StartsFrom source now time checkpoint)
    (wholeAnchor : source.createdAt.IsWholeMilli) : checkpoint.instant.IsWholeMilli := by
  obtain ⟨settings, boundary, kept, older, floor, found⟩ := starts
  obtain ⟨_, rfl⟩ := (Timeline.at?_eq_some_iff ..).1 found
  have regular := Source.isRegular_of_floor? floor
  exact (Grid.floor?_spec regular floor).1.isWholeMilli regular wholeAnchor

/-- A lookup that starts from a checkpoint reads on from it. -/
theorem StartsFrom.counterAt_eq (starts : cache.StartsFrom source now time checkpoint) :
    ∃ boundary window, cache.counterAt source time now =
      warmRead checkpoint source.id boundary time window now := by
  obtain ⟨settings, boundary, kept, older, floor, found⟩ := starts
  have old : ¬ now.since time ≤ settings.window := Int.not_le.2 older
  refine ⟨boundary, settings.window, ?_⟩
  unfold counterAt
  change (Grid.mk source.createdAt settings.interval).floor? time = some boundary at floor
  simp only [kept, if_neg old, floor, found]

/-- A lookup at the instant of the checkpoint that it starts from reads its counter. -/
theorem StartsFrom.map_value_counterAt (starts : cache.StartsFrom source now time checkpoint)
    (here : checkpoint.instant = time) :
    ((cache.counterAt source time now).result database).map CounterRead.value =
      .ok checkpoint.energy := by
  obtain ⟨boundary, window, same⟩ := starts.counterAt_eq
  have warm : (checkpoint.counterFrom time).result database = .ok checkpoint.energy := by
    rw [Checkpoint.result_counterFrom_eq, if_pos here.symm]
  rw [same, map_value_warmRead_of_ok warm]

/-- A lookup reads what the readings give if reading on from the checkpoint that it starts from, if
any, comes to that. -/
theorem map_value_counterAt_of_startsFrom
    (warm : ∀ checkpoint, cache.StartsFrom source now time checkpoint →
      (checkpoint.counterFrom time).result database =
        database.readings.valueAt source.id time .cumulativeEnergy) :
    ((cache.counterAt source time now).result database).map CounterRead.value =
      database.readings.valueAt source.id time .cumulativeEnergy := by
  unfold counterAt
  cases kept : cache.settingsFor? source with
  | none => exact map_value_coldRead ..
  | some settings =>
    dsimp only
    split
    · exact map_value_coldRead ..
    · rename_i old
      cases floor : (source.grid settings).floor? time with
      | none => exact map_value_coldRead ..
      | some boundary =>
        dsimp only
        cases found : (cache.seriesOf source.id).at? boundary with
        | none => exact map_value_coldReadWithOffer ..
        | some checkpoint =>
          have starts : cache.StartsFrom source now time checkpoint :=
            ⟨settings, boundary, kept, Int.not_le.1 old, floor, found⟩
          exact map_value_warmRead (warm checkpoint starts) _ _

end Start

variable {cache : CheckpointCache Rat} {database : Database Rat} {now time : Instant}
  {source : Source Rat}

/-- A lookup reads what the readings give if the checkpoint that it starts from, if any, is one of
the source that agrees with them. -/
theorem map_value_counterAt (wholeAnchor : source.createdAt.IsWholeMilli)
    (whole : ∀ reading, database.readings.Carries source.id .cumulativeEnergy reading →
      reading.instant.IsWholeMilli) (wholeTime : time.IsWholeMilli)
    (agree : ∀ settings boundary checkpoint, cache.settingsFor? source = some settings →
      (source.grid settings).floor? time = some boundary →
      (cache.seriesOf source.id).at? boundary = some checkpoint →
      checkpoint.source = source.id ∧ database.readings.Agrees checkpoint.source checkpoint) :
    ((cache.counterAt source time now).result database).map CounterRead.value =
      database.readings.valueAt source.id time .cumulativeEnergy := by
  refine map_value_counterAt_of_startsFrom fun checkpoint starts => ?_
  have le := starts.mem.2
  have wholeStart := starts.isWholeMilli wholeAnchor
  obtain ⟨settings, boundary, kept, _, floor, found⟩ := starts
  obtain ⟨own, agrees⟩ := agree settings boundary checkpoint kept floor found
  rw [← own] at whole ⊢
  exact Checkpoint.result_counterFrom le agrees whole wholeStart wholeTime

/-- Over a sound cache a lookup reads what the readings alone give. -/
theorem IsSound.map_value_counterAt (sound : cache.IsSound database now)
    (wholeAnchor : source.createdAt.IsWholeMilli)
    (whole : ∀ reading, database.readings.Carries source.id .cumulativeEnergy reading →
      reading.instant.IsWholeMilli) (wholeTime : time.IsWholeMilli) :
    ((cache.counterAt source time now).result database).map CounterRead.value =
      database.readings.valueAt source.id time .cumulativeEnergy := by
  refine CheckpointCache.map_value_counterAt wholeAnchor whole wholeTime ?_
  intro _ _ checkpoint _ _ found
  obtain ⟨member, _⟩ := (Timeline.at?_eq_some_iff ..).1 found
  obtain ⟨own, _, _, backing⟩ := sound source.id checkpoint member
  exact ⟨own, backing.agrees⟩

end CheckpointCache

end Metering
