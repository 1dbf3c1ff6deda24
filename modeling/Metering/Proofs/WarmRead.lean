import Metering.Cache.Lookup
import Metering.Proofs.Line
import Metering.Proofs.Maintenance

/-!
# Reading on from a checkpoint

A lookup that starts from a checkpoint sees only the readings after it, with
the checkpoint standing in for those before. If the checkpoint agrees with the
readings and all instants sit on whole milliseconds, the answer is the one the
readings give, be it a value or an error (`result_counterFrom`): either there
is a reading in between, and the checkpoint plays no part
(`result_counterFrom_of_recent`), or the line from the checkpoint to the next
reading is the rest of the line that the checkpoint is on.
-/

namespace Metering

/-- The instants of a grid sit on whole milliseconds if its anchor does. -/
theorem Grid.Has.isWholeMilli {grid : Grid} {time : Instant} (has : grid.Has time)
    (regular : grid.IsRegular) (wholeAnchor : grid.anchor.IsWholeMilli) : time.IsWholeMilli := by
  obtain ⟨count, same⟩ := has
  obtain ⟨millis, _, length⟩ := regular
  unfold Instant.IsWholeMilli
  rw [same, length]
  exact Int.dvd_add wholeAnchor (Dvd.dvd.mul_left (Int.dvd_mul_left ..) _)

namespace ReadingStore

variable {σ : Type}

/-- The last reading after an instant up to a later one is the newest reading up to that one,
unless the newest is too old. -/
theorem getLast?_range (store : ReadingStore σ) (id : SourceId) (start stop : Instant)
    (field : Field) :
    (store.range id (.afterUntil start stop) field).getLast? =
      (store.nearestBefore id stop field).filter fun reading => start < reading.instant := by
  have found : (store.range id (.afterUntil start stop) field).getLast? =
      (store.timeline id).entries.find? fun reading =>
        (Window.afterUntil start stop).contains reading.instant && reading.carries field := by
    unfold range
    rw [Timeline.within_eq_filter, List.getLast?_reverse, List.head?_filter]
    rfl
  rw [found]
  refine Option.ext fun reading => ?_
  rw [Timeline.find?_entries_eq_some_iff, Option.filter_eq_some_iff, nearestBefore_eq_some_iff]
  simp only [Window.afterUntil, Window.contains, Window.admitsStart, Window.admitsStop, Carries,
    Bool.and_eq_true, decide_eq_true_eq, Stamped.instant, Instant.le_iff, Instant.lt_iff]
  constructor
  · rintro ⟨member, ⟨⟨above, below⟩, carries⟩, newest⟩
    refine ⟨⟨⟨member, carries⟩, below, fun other held le => ?_⟩, above⟩
    by_cases recent : start.nanos < other.instant.nanos
    · exact newest other held.1 ⟨⟨recent, le⟩, held.2⟩
    · omega
  · rintro ⟨⟨⟨member, carries⟩, below, newest⟩, above⟩
    exact ⟨member, ⟨⟨above, below⟩, carries⟩,
      fun other found within => newest other ⟨found, within.2⟩ within.1.2⟩

/-- Between the readings around a later instant the value at an earlier one is the first reading's
own or on the line to the second. -/
theorem eq_or_eq_line_of_valueAt [Scalar σ] {store : ReadingStore σ} {id : SourceId}
    {field : Field} {start time : Instant} {before after : Reading σ} {low high value : σ}
    (pair : store.Brackets id field time before after) (lower : before.value? field = some low)
    (upper : after.value? field = some high) (older : before.instant ≤ start) (less : start < time)
    (found : store.valueAt id start field = .ok value) :
    before.instant = start ∧ value = low ∨
      before.instant < start ∧ value = Bracket.line before.instant low after.instant high start := by
  have most := pair.le_after
  by_cases sits : before.instant = start
  · refine Or.inl ⟨sits, ?_⟩
    have here : store.Brackets id field start before before :=
      brackets_of_gap pair.carries_before pair.carries_before (Or.inl ⟨rfl, sits⟩) fun other _ =>
        Int.le_total other.instant.nanos before.instant.nanos
    rw [here.valueAt_eq, Bracket.interpolate_eq_ok start lower lower, if_pos (Or.inl rfl)] at found
    exact (Except.ok.inj found).symm
  · have later : before.instant < start :=
      Int.lt_iff_le_and_ne.2 ⟨older, fun same => sits (Instant.ext same)⟩
    refine Or.inr ⟨later, ?_⟩
    have inside : start < after.instant := Int.lt_of_lt_of_le less most
    have here : store.Brackets id field start before after :=
      brackets_of_gap pair.carries_before pair.carries_after (Or.inr ⟨later, inside⟩) pair.gap
    have apart : ¬ (before.instant = after.instant ∨ start = before.instant) := by
      simp only [Instant.ext_iff, Instant.lt_iff] at *
      omega
    have notEnd : start ≠ after.instant := Instant.ne_of_lt inside
    rw [here.valueAt_eq, Bracket.interpolate_eq_ok start lower upper, if_neg apart,
      if_neg notEnd] at found
    exact (Except.ok.inj found).symm

end ReadingStore

namespace Checkpoint

/-- The reading that a checkpoint stands for is at its instant. -/
@[simp] theorem toReading_instant {σ : Type} (checkpoint : Checkpoint σ) :
    checkpoint.toReading.instant = checkpoint.instant := rfl

/-- What reading on from a checkpoint comes to. -/
theorem result_counterFrom_eq {σ : Type} [Scalar σ] (checkpoint : Checkpoint σ) (time : Instant)
    (database : Database σ) :
    (checkpoint.counterFrom time).result database =
      if time = checkpoint.instant then .ok checkpoint.energy
      else
        let before := (database.readings.range checkpoint.source
          (.afterUntil checkpoint.instant time) .cumulativeEnergy).getLast?.getD
            checkpoint.toReading
        if before.instant = time then (Bracket.exact .cumulativeEnergy before).interpolate
        else
          match database.readings.nearestAfter checkpoint.source time .cumulativeEnergy with
          | none => .error (.outOfRange checkpoint.source time)
          | some after =>
            Bracket.of? .cumulativeEnergy before after time >>= Bracket.interpolate := by
  unfold counterFrom
  by_cases sits : time = checkpoint.instant
  · simp only [if_pos sits]
    rfl
  · have recent : (Attempt.range checkpoint.source (.afterUntil checkpoint.instant time)
        .cumulativeEnergy).result database =
          .ok (database.readings.range checkpoint.source (.afterUntil checkpoint.instant time)
            .cumulativeEnergy) := rfl
    have next : (Attempt.nearestAfter checkpoint.source time .cumulativeEnergy).result database =
        .ok (database.readings.nearestAfter checkpoint.source time .cumulativeEnergy) := rfl
    simp only [if_neg sits, Attempt.result_bind, recent, Except.ok_bind]
    split
    · rfl
    · simp only [Attempt.result_bind, next, Except.ok_bind]
      cases database.readings.nearestAfter checkpoint.source time .cumulativeEnergy <;> rfl

/-- A reading is at or before every instant from a checkpoint on that agrees with the readings. -/
theorem exists_nearestBefore {σ : Type} [Scalar σ] {checkpoint : Checkpoint σ} {id : SourceId}
    {time : Instant} {store : ReadingStore σ} (le : checkpoint.instant ≤ time)
    (agrees : store.Agrees id checkpoint) :
    ∃ newest, store.nearestBefore id time .cumulativeEnergy = some newest := by
  obtain ⟨first, second, pair, _⟩ := (ReadingStore.valueAt_eq_ok_iff ..).1 agrees
  cases lower : store.nearestBefore id time .cumulativeEnergy with
  | some newest => exact ⟨newest, rfl⟩
  | none =>
    have nowhere := (ReadingStore.nearestBefore_eq_none_iff ..).1 lower
    exact absurd (Int.le_trans pair.before_le le) (nowhere first pair.carries_before)

/-- With no reading in between, a checkpoint that agrees with the readings stands in for the one
before it. -/
theorem interpolate_toReading {checkpoint : Checkpoint Rat} {store : ReadingStore Rat}
    {id : SourceId} {time : Instant} {before after : Reading Rat}
    (pair : store.Brackets id .cumulativeEnergy time before after)
    (older : before.instant ≤ checkpoint.instant) (less : checkpoint.instant < time)
    (agrees : store.Agrees id checkpoint)
    (whole : ∀ reading, store.Carries id .cumulativeEnergy reading →
      reading.instant.IsWholeMilli)
    (wholeStart : checkpoint.instant.IsWholeMilli) (wholeTime : time.IsWholeMilli) :
    Bracket.interpolate ⟨.cumulativeEnergy, checkpoint.toReading, after, time⟩ =
      Bracket.interpolate ⟨.cumulativeEnergy, before, after, time⟩ := by
  obtain ⟨low, lower⟩ := Option.isSome_iff_exists.1 pair.carries_before.2
  obtain ⟨high, upper⟩ := Option.isSome_iff_exists.1 pair.carries_after.2
  have energy : checkpoint.toReading.value? .cumulativeEnergy = some checkpoint.energy := rfl
  have most := pair.le_after
  have beforeTime : before.instant < time := Int.lt_of_le_of_lt older less
  have same : Bracket.line checkpoint.instant checkpoint.energy after.instant high time =
      Bracket.line before.instant low after.instant high time := by
    rcases ReadingStore.eq_or_eq_line_of_valueAt pair lower upper older less agrees with
      ⟨here, same⟩ | ⟨later, same⟩
    · rw [here, same]
    · rw [same]
      exact Bracket.line_of_line low high (whole before pair.carries_before) wholeStart
        (whole after pair.carries_after) wholeTime later (Int.lt_of_lt_of_le less most)
  rw [Bracket.interpolate_eq_ok time energy upper, Bracket.interpolate_eq_ok time lower upper]
  have apart : ¬ (checkpoint.instant = after.instant ∨ time = checkpoint.instant) := by
    simp only [Instant.ext_iff, Instant.lt_iff, Instant.le_iff] at *
    omega
  have apartBefore : ¬ (before.instant = after.instant ∨ time = before.instant) := by
    simp only [Instant.ext_iff, Instant.lt_iff, Instant.le_iff] at *
    omega
  rw [toReading_instant, if_neg apart, if_neg apartBefore, same]

/-- A reading after a checkpoint takes its place: reading on comes to what the readings give,
whatever the checkpoint holds. -/
theorem result_counterFrom_of_recent {σ : Type} [Scalar σ] {checkpoint : Checkpoint σ}
    {time : Instant} {database : Database σ} {reading : Reading σ}
    (held : database.readings.Carries checkpoint.source .cumulativeEnergy reading)
    (recent : checkpoint.instant < reading.instant) (le : reading.instant ≤ time) :
    (checkpoint.counterFrom time).result database =
      database.readings.valueAt checkpoint.source time .cumulativeEnergy := by
  have less : checkpoint.instant < time := Int.lt_of_lt_of_le recent le
  have apart : time ≠ checkpoint.instant := (Instant.ne_of_lt less).symm
  rw [result_counterFrom_eq, if_neg apart, ReadingStore.getLast?_range]
  cases lower : database.readings.nearestBefore checkpoint.source time .cumulativeEnergy with
  | none =>
    have nowhere := (ReadingStore.nearestBefore_eq_none_iff ..).1 lower
    exact absurd le (nowhere reading held)
  | some newest =>
    obtain ⟨heldNewest, _, latest⟩ := (ReadingStore.nearestBefore_eq_some_iff ..).1 lower
    have later : checkpoint.instant < newest.instant :=
      Int.lt_of_lt_of_le recent (latest reading held le)
    simp only [Option.filter_some, later, decide_true, if_true, Option.getD_some]
    by_cases here : newest.instant = time
    · have pair : database.readings.Brackets checkpoint.source .cumulativeEnergy time newest
          newest := ReadingStore.brackets_of_gap heldNewest heldNewest (Or.inl ⟨rfl, here⟩)
        fun other _ => Int.le_total other.instant.nanos newest.instant.nanos
      rw [if_pos here, pair.valueAt_eq, ← here]
      rfl
    · rw [if_neg here]
      cases upper : database.readings.nearestAfter checkpoint.source time .cumulativeEnergy with
      | none =>
        unfold ReadingStore.valueAt ReadingStore.bracket
        rw [lower, upper]
        rfl
      | some after =>
        have pair : database.readings.Brackets checkpoint.source .cumulativeEnergy time newest
          after := ⟨lower, upper⟩
        rw [pair.valueAt_eq]
        simp only [Bracket.of?_eq_ok pair.before_le pair.le_after, Except.ok_bind]

/-- Reading on from a checkpoint that agrees with the readings comes to what they give. -/
theorem result_counterFrom {checkpoint : Checkpoint Rat} {time : Instant}
    {database : Database Rat} (le : checkpoint.instant ≤ time)
    (agrees : database.readings.Agrees checkpoint.source checkpoint)
    (whole : ∀ reading, database.readings.Carries checkpoint.source .cumulativeEnergy reading →
      reading.instant.IsWholeMilli)
    (wholeStart : checkpoint.instant.IsWholeMilli) (wholeTime : time.IsWholeMilli) :
    (checkpoint.counterFrom time).result database =
      database.readings.valueAt checkpoint.source time .cumulativeEnergy := by
  by_cases sits : time = checkpoint.instant
  · rw [result_counterFrom_eq, if_pos sits, sits]
    exact agrees.symm
  have less : checkpoint.instant < time :=
    Int.lt_iff_le_and_ne.2 ⟨le, fun same => sits (Instant.ext same.symm)⟩
  -- The checkpoint has a reading before it, so the readings reach back from the target.
  obtain ⟨newest, lower⟩ := exists_nearestBefore le agrees
  obtain ⟨held, least, _⟩ := (ReadingStore.nearestBefore_eq_some_iff ..).1 lower
  by_cases recent : checkpoint.instant < newest.instant
  · exact result_counterFrom_of_recent held recent least
  · -- The checkpoint stands in for the reading before it.
    rw [result_counterFrom_eq, if_neg sits, ReadingStore.getLast?_range, lower,
      Option.filter_some]
    simp only [recent, decide_false, Bool.false_eq_true, if_false, Option.getD_none]
    have apart : ¬ checkpoint.toReading.instant = time := fun same => sits same.symm
    rw [if_neg apart]
    cases upper : database.readings.nearestAfter checkpoint.source time .cumulativeEnergy with
    | none =>
      unfold ReadingStore.valueAt ReadingStore.bracket
      rw [lower, upper]
      rfl
    | some after =>
      have pair : database.readings.Brackets checkpoint.source .cumulativeEnergy time newest
        after := ⟨lower, upper⟩
      have start : checkpoint.toReading.instant ≤ time := le
      simp only [Bracket.of?_eq_ok start pair.le_after, Except.ok_bind]
      rw [pair.valueAt_eq]
      exact interpolate_toReading pair (Int.not_lt.1 recent) less agrees whole wholeStart wholeTime

end Checkpoint

end Metering
