import Metering.Proofs.Interpolation
import Metering.Proofs.Lookup

/-!
# Reading on, and reading afresh

Reading on from a checkpoint scans the readings after it up to the target and
the one from the target on, and nothing before the checkpoint (`asks_counterFrom`).
If the checkpoint is a point of the counter and all instants sit on whole
milliseconds, that leaves the same answer as a lookup that knows of no checkpoint:
the same value, or the same refusal past the last reading (`resume_eq_lookup`).
-/

namespace Metering

variable {σ α : Type}

namespace ReadingStore

variable [Scalar σ] {store : ReadingStore σ} {id : SourceId} {field : Field}

/-- A value is refused where its bracket is. -/
theorem valueAt_eq_error_iff (time : Instant) (error : QueryError) :
    store.valueAt id time field = .error error ↔ store.bracket id time field = .error error := by
  unfold valueAt
  cases around : store.bracket id time field with
  | error refusal => rw [Except.error_bind, Except.error.injEq, Except.error.injEq]
  | ok bracket =>
    obtain ⟨before, after, pair, rfl⟩ := (bracket_eq_ok_iff ..).1 around
    obtain ⟨value, worth⟩ := Bracket.exists_interpolate_eq_ok time pair.carries_before.2
      pair.carries_after.2
    rw [Except.ok_bind, worth]
    exact iff_of_false nofun nofun

/-- From an instant with a value on, a value is refused past the last reading only, and always as
out of range. -/
theorem valueAt_eq_error_iff_of_le {start time : Instant} {value : σ}
    (begins : store.valueAt id start field = .ok value) (le : start ≤ time) (error : QueryError) :
    store.valueAt id time field = .error error ↔ error = .outOfRange id time ∧
      ∀ reading, store.Carries id field reading → reading.instant < time := by
  obtain ⟨before, after, pair, _⟩ := (valueAt_eq_ok_iff ..).1 begins
  have held := pair.carries_before
  have early : ¬ time < before.instant := Int.not_lt.2 (Int.le_trans pair.before_le le)
  rw [valueAt_eq_error_iff, bracket_eq_error_iff]
  constructor
  · rintro (⟨nothing, _⟩ | ⟨⟨_, later | earlier⟩, rfl⟩)
    · exact absurd held (nothing before)
    · exact absurd (later before held) early
    · exact ⟨rfl, earlier⟩
  · rintro ⟨rfl, earlier⟩
    exact Or.inr ⟨⟨⟨before, held⟩, Or.inr earlier⟩, rfl⟩

end ReadingStore

/-- Reading on from a checkpoint asks for the readings after it up to the target and for the one
from the target on, and counts nothing. -/
theorem Checkpoint.asks_counterFrom [Scalar σ] (checkpoint : Checkpoint σ) (time : Instant) :
    (checkpoint.counterFrom time).Uses
      (fun request =>
        request = .range checkpoint.source (.afterUntil checkpoint.instant time)
          .cumulativeEnergy ∨
        request = .nearestAfter checkpoint.source time .cumulativeEnergy)
      fun _ => False := by
  unfold counterFrom
  split
  · exact Attempt.uses_pure _
  · refine (Attempt.uses_request (Or.inl rfl)).bind fun recent => ?_
    dsimp only
    split
    · exact Attempt.uses_ofExcept _
    · refine (Attempt.uses_request (Or.inr rfl)).bind fun after => ?_
      cases after with
      | none => exact Attempt.uses_throw _
      | some next => exact Attempt.uses_ofExcept _

namespace Engine

/-- Without limits, an attempt that only looks things up and counts nothing comes to its result and
leaves the engine as it is. -/
theorem perform_of_silent (engine : Engine σ (Database σ)) {attempt : Attempt σ α}
    (silent : attempt.Uses Request.IsLookup fun _ => False) :
    engine.perform Database.serve .none attempt =
      (attempt.result engine.progress.world, engine) := by
  have nothing : Limits.none.check engine.progress.elapsed = none := rfl
  have uncounted : attempt.events engine.progress.world = [] :=
    List.eq_nil_iff_forall_not_mem.2 (Plan.Uses.counted_of_mem_events silent _)
  rw [perform_eq nothing silent, uncounted]
  rfl

/-- Reading on from a checkpoint that holds the counter at its instant comes to what a lookup of a
later instant comes to, if the instants of the energy readings, of the checkpoint and of the target
are whole milliseconds. Neither moves anything. Both are refused exactly past the last energy
reading, as out of range. -/
theorem resume_eq_lookup (engine : Engine Rat (Database Rat)) (checkpoint : Checkpoint Rat)
    {time : Instant} (le : checkpoint.instant ≤ time)
    (counted : (engine.perform Database.serve .none
      (Bracket.valueAt checkpoint.source checkpoint.instant .cumulativeEnergy)).1 =
        .ok checkpoint.energy)
    (whole : ∀ reading, engine.progress.world.readings.Carries checkpoint.source .cumulativeEnergy
      reading → reading.instant.IsWholeMilli)
    (wholeStart : checkpoint.instant.IsWholeMilli) (wholeTime : time.IsWholeMilli) :
    let resumed := engine.perform Database.serve .none (checkpoint.counterFrom time)
    let looked := engine.perform Database.serve .none
      (Bracket.valueAt checkpoint.source time .cumulativeEnergy)
    resumed = looked ∧ resumed.2 = engine ∧
      ∀ error, resumed.1 = .error error ↔ error = .outOfRange checkpoint.source time ∧
        ∀ reading, engine.progress.world.readings.Carries checkpoint.source .cumulativeEnergy
          reading → reading.instant < time := by
  intro resumed looked
  have agrees : engine.progress.world.readings.Agrees checkpoint.source checkpoint := by
    rwa [perform_valueAt] at counted
  have scans : (checkpoint.counterFrom time).result engine.progress.world =
      engine.progress.world.readings.valueAt checkpoint.source time .cumulativeEnergy :=
    checkpoint.result_counterFrom le agrees whole wholeStart wholeTime
  have silent := Plan.Uses.imp (Bracket.asks_valueAt (σ := Rat) checkpoint.source time
    .cumulativeEnergy) (fun _ around => around.isLookup) fun _ never => never
  have first : resumed =
      (engine.progress.world.readings.valueAt checkpoint.source time .cumulativeEnergy, engine) :=
    (perform_of_silent engine (checkpoint.uses_counterFrom time)).trans (by rw [scans])
  have second : looked =
      (engine.progress.world.readings.valueAt checkpoint.source time .cumulativeEnergy, engine) :=
    (perform_of_silent engine silent).trans (by rw [Bracket.result_valueAt])
  rw [first, second]
  exact ⟨rfl, rfl, ReadingStore.valueAt_eq_error_iff_of_le agrees le⟩

/-- Between readings three hours apart, reading on from a checkpoint an hour after the first comes
to the rest of the line, as far as the second reading. -/
theorem resume_eq_lookup_hourly :
    let engine := ofReadings [hourlyReading 0 0, hourlyReading 180 6]
    let checkpoint : Checkpoint Rat := ⟨"meter", atMinute 60, 2, atMinute 1440⟩
    let resumed := fun time => engine.perform Database.serve .none (checkpoint.counterFrom time)
    let looked := fun time => engine.perform Database.serve .none
      (Bracket.valueAt "meter" time .cumulativeEnergy)
    (resumed (atMinute 150)).1 = .ok 5 ∧
      (resumed (atMinute 200)).1 = .error (.outOfRange "meter" (atMinute 200)) ∧
      ∀ minute, atMinute 60 ≤ atMinute minute →
        resumed (atMinute minute) = looked (atMinute minute) := by
  intro engine checkpoint resumed looked
  have counted : (looked (atMinute 60)).1 = .ok 2 := by decide +kernel
  have whole : ∀ reading, engine.progress.world.readings.Carries "meter" .cumulativeEnergy
      reading → reading.instant.IsWholeMilli := by
    rintro reading ⟨member, _⟩
    have each : ∀ reading ∈ (engine.progress.world.readings.timeline "meter").entries,
        reading.instant.nanos % Span.nanosPerMilli = 0 := by decide +kernel
    exact Int.dvd_of_emod_eq_zero (each reading member)
  refine ⟨by decide +kernel, by decide +kernel, fun minute le => ?_⟩
  exact (resume_eq_lookup engine checkpoint le counted whole (isWholeMilli_atMinute 60)
    (isWholeMilli_atMinute minute)).1

end Engine

end Metering
