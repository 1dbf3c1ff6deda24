import Metering.Database
import Metering.Proofs.Sessions

/-!
# Checkpoints are written once

A checkpoint is finalized from the moment it is written or offered, whatever
the store answers: the upkeep writes none beyond what has settled, and a lookup
offers one only for a target that is older than the window
(`CacheSession.IsFrozen.step`). Under a policy that freezes, the upkeep leaves finalized
checkpoints alone, so each stays as it was first written until the checkpoints
of its source are forgotten, and none is ever worked out again
(`CacheSession.written_once`).
-/

namespace Metering

variable {σ ω : Type}

/-- Where the gap that a reading splits has settled, every instant is older than the window. -/
theorem Neighbours.lt_since_of_contains {neighbours : Neighbours σ} {window : Span}
    {now time : Instant} (settled : window < now.since neighbours.reading.instant)
    (inside : (neighbours.settledWindow window now).contains time) : window < now.since time := by
  have stop := ((Window.contains_iff ..).1 inside).2
  unfold settledWindow at stop
  have upTo : ∀ last, window < now.since last → Window.admitsStop time (.inclusive last) →
      window < now.since time := fun last old admitted =>
    Instant.lt_since_of_le old (Int.le_refl _) (of_decide_eq_true admitted)
  cases after : neighbours.following with
  | none =>
    rw [after] at stop
    exact upTo _ settled stop
  | some following =>
    simp only [after] at stop
    split at stop
    · rename_i old
      exact Instant.lt_since_of_le old (Int.le_refl _) (Int.le_of_lt (of_decide_eq_true stop))
    · exact upTo _ settled stop

namespace CheckpointCache

/-- A checkpoint is finalized under the settings that its source is defined with. -/
def IsFinal (cache : CheckpointCache σ) (definitions : SourceId → Option (Source σ))
    (now : Instant) (checkpoint : Checkpoint σ) : Prop :=
  ∃ source settings, definitions checkpoint.source = some source ∧
    cache.settingsFor? source = some settings ∧
      settings.window < now.since checkpoint.instant

variable {cache : CheckpointCache σ} {definitions : SourceId → Option (Source σ)} {now : Instant}
  {checkpoint : Checkpoint σ} {source : Source σ} {settings : CacheSettings}

/-- What is finalized stays so as time goes on. -/
theorem IsFinal.later (final : cache.IsFinal definitions now checkpoint)
    {other : CheckpointCache σ} (same : other.config = cache.config) {later : Instant}
    (le : now ≤ later) : other.IsFinal definitions later checkpoint := by
  obtain ⟨source, settings, defined, kept, old⟩ := final
  exact ⟨source, settings, defined, (settingsFor?_of_config_eq same source).trans kept,
    Instant.lt_since_of_le old le (Int.le_refl _)⟩

/-- What is proposed is finalized. -/
theorem isFinal_of_mem_proposals (defined : definitions source.id = some source)
    {neighbours : Neighbours σ} {counter : Instant → σ}
    (calls : cache.CallsForUpkeep source settings neighbours.reading now)
    {candidate : Candidate σ}
    (proposed : candidate ∈ cache.proposals source settings neighbours counter now) :
    cache.IsFinal definitions now candidate.checkpoint := by
  obtain ⟨time, inside, _, rfl⟩ := (mem_proposals_iff ..).1 proposed
  refine ⟨source, settings, defined, calls.1, ?_⟩
  exact Neighbours.lt_since_of_contains calls.2.2
    ((Grid.within_spec settings.interval_nonneg _ _).2 time inside)

/-- Under a policy that freezes nothing is proposed where a finalized checkpoint is. -/
theorem at?_of_mem_proposals (freezes : cache.config.lateDataPolicy = .freeze)
    (defined : definitions source.id = some source)
    (kept : cache.settingsFor? source = some settings)
    (final : ∀ checkpoint ∈ (cache.seriesOf source.id).entries,
      checkpoint.source = source.id ∧ cache.IsFinal definitions now checkpoint)
    {neighbours : Neighbours σ} {counter : Instant → σ} {candidate : Candidate σ}
    (proposed : candidate ∈ cache.proposals source settings neighbours counter now) :
    (cache.seriesOf source.id).at? candidate.checkpoint.instant = none := by
  obtain ⟨time, _, open_, rfl⟩ := (mem_proposals_iff ..).1 proposed
  dsimp only
  cases found : (cache.seriesOf source.id).at? time with
  | none => rfl
  | some checkpoint =>
    obtain ⟨own, other, others, definedOther, keptOther, old⟩ :=
      final checkpoint ((Timeline.at?_eq_some_iff ..).1 found).1
    obtain rfl : source = other :=
      Option.some_inj.1 (defined.symm.trans (own ▸ definedOther))
    obtain rfl : settings = others := Option.some_inj.1 (kept.symm.trans keptOther)
    rw [found, Option.any_some] at open_
    unfold ProposalRules.isFrozen rulesFor Checkpoint.maturity at open_
    simp [freezes, old] at open_

variable [Scalar σ]

/-- What a lookup offers is finalized. -/
theorem isFinal_of_pending {possible : Possibility σ} {events : List CacheEvent} {time : Instant}
    {read : CounterRead σ} (defined : definitions source.id = some source)
    (came : (cache.counterAt source time now).Yields possible events (.ok read))
    (pending : read.pending = some checkpoint) : cache.IsFinal definitions now checkpoint := by
  obtain ⟨settings, boundary, _, _, kept, old, floor, _, offered⟩ := offer_of_yields came pending
  obtain ⟨_, _, _, _, _, rfl⟩ := exists_bracket_of_offer offered
  exact ⟨source, settings, defined, kept,
    Instant.lt_since_of_le old (Int.le_refl _) (Grid.floor?_le _ floor)⟩

section Fresh

variable {reading : Reading σ} {events : List CacheEvent}
  {outcome : Except QueryError (Nat × CheckpointCache σ)}

/-- A reading proposes nothing where a checkpoint is. -/
def ProposesFresh (cache : CheckpointCache σ) (source : Source σ) (reading : Reading σ)
    (now : Instant) : Prop :=
  ∀ settings neighbours, cache.CallsForUpkeep source settings reading now →
    ∀ candidate ∈ cache.proposals source settings neighbours neighbours.counter now,
      (cache.seriesOf source.id).at? candidate.checkpoint.instant = none

/-- A reading that proposes nothing where a checkpoint is works none out again. -/
theorem Taken.refreshed_not_mem (taken : cache.Taken source reading now events outcome)
    (fresh : cache.ProposesFresh source reading now) : CacheEvent.refreshed ∉ events := by
  cases taken with
  | refused error => exact List.not_mem_nil
  | idle => exact List.not_mem_nil
  | failed frozen =>
    intro member
    rcases List.mem_append.1 member with skipped | failed
    · cases List.eq_of_mem_replicate skipped
    · cases List.mem_singleton.1 failed
  | upkept settings neighbours calls own =>
    intro member
    rcases List.mem_append.1 member with skipped | judged
    · cases List.eq_of_mem_replicate skipped
    · have unmarked : ∀ candidate ∈
          cache.proposals source settings neighbours neighbours.counter now,
          candidate.replaces = false := by
        intro candidate proposed
        rw [marked_proposals _ _ _ _ _ _ candidate proposed,
          fresh settings neighbours calls candidate proposed]
        rfl
      rcases Review.mem_events_foldl_judge _ _ unmarked (List.mem_reverse.1 judged) with
        nothing | created | rejected
      · cases nothing
      · cases created
      · cases rejected

/-- A reading that proposes nothing where a checkpoint is takes none away. -/
theorem Taken.mem_of_mem (taken : cache.Taken source reading now events outcome)
    (fresh : cache.ProposesFresh source reading now) {id : SourceId}
    (member : checkpoint ∈ (cache.seriesOf id).entries) :
    checkpoint ∈ (((outcome.toOption.map Prod.snd).getD cache).seriesOf id).entries := by
  cases taken with
  | refused error => exact member
  | idle => exact member
  | failed frozen => exact member
  | upkept settings neighbours calls own =>
    change checkpoint ∈ ((cache.withSeries source.id _).seriesOf id).entries
    rw [seriesOf_withSeries]
    split
    · rename_i here
      subst here
      refine Review.mem_apply_of_untouched member fun candidate proposed same => ?_
      have found : (cache.seriesOf source.id).at? candidate.checkpoint.instant = some checkpoint :=
        (Timeline.at?_eq_some_iff ..).2 ⟨member, same.symm⟩
      rw [fresh settings neighbours calls candidate proposed] at found
      cases found
    · exact member

end Fresh

end CheckpointCache

namespace CacheSession

variable [Scalar σ] {serve : Service σ ω} {definitions : SourceId → Option (Source σ)}

/-- Every checkpoint is finalized and stays so, and none has been worked out again. -/
structure IsFrozen (definitions : SourceId → Option (Source σ)) (session : CacheSession σ ω) :
    Prop where
  /-- Whatever is kept or offered is finalized. -/
  final : session.Everywhere (session.engine.cache.IsFinal definitions session.now)
  /-- Finalized checkpoints never change. -/
  freezes : session.engine.cache.config.lateDataPolicy = .freeze
  /-- No checkpoint has been worked out again. -/
  refreshed : session.engine.progress.tally.refreshed = 0

variable {session : CacheSession σ ω}

/-- Where finalized checkpoints are frozen a reading proposes nothing in their place. -/
theorem IsFrozen.proposesFresh (frozen : session.IsFrozen definitions) {source : Source σ}
    (defined : definitions source.id = some source) (reading : Reading σ) :
    session.engine.cache.ProposesFresh source reading session.now :=
  fun _ _ calls _ proposed => CheckpointCache.at?_of_mem_proposals frozen.freezes defined calls.1
    (frozen.final.kept source.id) proposed

/-- No action works a checkpoint out again. -/
theorem IsFrozen.refreshed_step (frozen : session.IsFrozen definitions) {action : CacheAction σ}
    (obeys : session.Obeys definitions action) :
    (session.step serve action).engine.progress.tally.refreshed = 0 := by
  have answers := Possibility.any_answer serve
  have unchanged : ∀ events : List CacheEvent, CacheEvent.refreshed ∉ events →
      (events.foldl Tally.add session.engine.progress.tally).refreshed = 0 :=
    fun _ absent => (Tally.count_foldl_add_of_not_mem absent _).trans frozen.refreshed
  cases action with
  | ingest source reading =>
    obtain ⟨events, _, _, _, taken, same⟩ := exists_step_ingest answers session source reading
    rw [same]
    exact unchanged events (taken.refreshed_not_mem (frozen.proposesFresh obeys reading))
  | counterAt source time =>
    obtain ⟨events, _, _, _, came, same⟩ := exists_step_counterAt answers session source time
    rw [same]
    exact unchanged events
      ((CheckpointCache.uses_counterAt ..).counted_of_yields came CacheEvent.refreshed)
  | commit batch =>
    refine unchanged _ fun member => ?_
    rcases CheckpointCache.mem_commit_events member with created | rejected
    · cases created
    · cases rejected
  | evict id => exact frozen.refreshed
  | setNow now => exact frozen.refreshed

/-- Every checkpoint that is written or offered is finalized from the start. -/
theorem IsFrozen.step (frozen : session.IsFrozen definitions) {action : CacheAction σ}
    (obeys : session.Obeys definitions action) :
    (session.step serve action).IsFrozen definitions := by
  have answers := Possibility.any_answer serve
  have final : (session.step serve action).Everywhere
      (session.engine.cache.IsFinal definitions session.now) := by
    cases action with
    | ingest source reading =>
      refine frozen.final.ingest answers fun settings neighbours calls own candidate proposed => ?_
      exact CheckpointCache.isFinal_of_mem_proposals obeys (own.symm ▸ calls) proposed
    | counterAt source time =>
      exact frozen.final.counterAt answers fun _ _ _ came pending =>
        CheckpointCache.isFinal_of_pending obeys came pending
    | commit batch => exact frozen.final.commit obeys
    | evict id => exact frozen.final.evict id
    | setNow now => exact ⟨frozen.final.kept, frozen.final.offered⟩
  have forward : session.now ≤ (session.step serve action).now := by
    rw [now_step]
    cases action with
    | setNow now => exact obeys
    | _ => exact Int.le_refl _
  exact ⟨final.imp fun _ meets => meets.later (config_step session action) forward,
    (congrArg Config.lateDataPolicy (config_step session action)).trans frozen.freezes,
    frozen.refreshed_step obeys⟩

/-- A checkpoint stays until those of its source are forgotten. -/
theorem IsFrozen.mem_step (frozen : session.IsFrozen definitions) {action : CacheAction σ}
    (obeys : session.Obeys definitions action) {id : SourceId} (stays : action ≠ .evict id)
    {checkpoint : Checkpoint σ} (member : checkpoint ∈ (session.seriesOf id).entries) :
    checkpoint ∈ ((session.step serve action).seriesOf id).entries := by
  have answers := Possibility.any_answer serve
  cases action with
  | ingest source reading =>
    obtain ⟨_, _, _, _, taken, same⟩ := exists_step_ingest answers session source reading
    rw [same]
    exact taken.mem_of_mem (frozen.proposesFresh obeys reading) member
  | counterAt source time =>
    obtain ⟨_, _, _, _, _, same⟩ := exists_step_counterAt answers session source time
    rw [same]
    exact member
  | commit batch => exact CheckpointCache.mem_commit_of_mem batch member
  | evict other =>
    change checkpoint ∈ ((session.engine.cache.evict other).seriesOf id).entries
    rw [CheckpointCache.seriesOf_evict, if_neg fun same => stays (by rw [same])]
    exact member
  | setNow now => exact member

/-- A session stays frozen. -/
theorem IsFrozen.run (frozen : session.IsFrozen definitions) {actions : List (CacheAction σ)}
    (obeys : session.AllAlong serve (Obeys definitions) actions) :
    (session.run serve actions).IsFrozen definitions :=
  run_induction (IsFrozen definitions) (fun _ _ before keeps => before.step keeps) frozen obeys

/-- A checkpoint stays as long as those of its source are not forgotten. -/
theorem IsFrozen.mem_run (frozen : session.IsFrozen definitions) {actions : List (CacheAction σ)}
    (obeys : session.AllAlong serve (Obeys definitions) actions) {id : SourceId}
    (stays : .evict id ∉ actions) {checkpoint : Checkpoint σ}
    (member : checkpoint ∈ (session.seriesOf id).entries) :
    checkpoint ∈ ((session.run serve actions).seriesOf id).entries := by
  have apart : ∀ action ∈ actions, action ≠ .evict id := fun action there same =>
    stays (same ▸ there)
  exact (run_induction
    (fun session => session.IsFrozen definitions ∧
      checkpoint ∈ (session.seriesOf id).entries)
    (fun _ _ before keeps => ⟨before.1.step keeps.1, before.1.mem_step keeps.1 keeps.2 before.2⟩)
    ⟨frozen, member⟩ (obeys.and apart)).2

/-- Under a policy that freezes and over any store, with fixed definitions and a clock that goes
forward, a checkpoint that a source has at an instant stays there as it is until the checkpoints of
the source are forgotten, and no checkpoint is ever worked out again. -/
theorem written_once (serve : Service σ ω) (definitions : SourceId → Option (Source σ))
    {config : Config} (freezes : config.lateDataPolicy = .freeze) (world : ω) (now : Instant)
    (early late : List (CacheAction σ))
    (obeys : (new config world now).AllAlong serve (Obeys definitions) (early ++ late)) :
    (∀ id time checkpoint, .evict id ∉ late →
      (((new config world now).run serve early).seriesOf id).at? time = some checkpoint →
      (((new config world now).run serve (early ++ late)).seriesOf id).at? time =
        some checkpoint) ∧
    ((new config world now).run serve (early ++ late)).engine.progress.tally.refreshed = 0 := by
  have start : (new config world now).IsFrozen definitions := ⟨.new config world now, freezes, rfl⟩
  have frozen := start.run obeys
  obtain ⟨obeysEarly, obeysLate⟩ := (allAlong_append_iff ..).1 obeys
  have split : (new config world now).run serve (early ++ late) =
      ((new config world now).run serve early).run serve late := List.foldl_append
  refine ⟨fun id time checkpoint stays found => ?_, frozen.refreshed⟩
  rw [Timeline.at?_eq_some_iff] at found ⊢
  rw [split]
  exact ⟨(start.run obeysEarly).mem_run obeysLate stays found.1, found.2⟩

/-- On the day of the hourly meter the checkpoint that the lookup offered is the one that the late
reading leaves there, although it is off the new line. -/
theorem written_once_hourlyActions :
    hourlySession.AllAlong Database.serve (Obeys hourlyCatalog.get?)
      (earlyActions ++ lateActions) ∧
    ((hourlySession.run Database.serve (earlyActions ++ lateActions)).seriesOf "meter").at?
      (atMinute 60) = some hourlyCheckpoint ∧
    (hourlySession.run Database.serve
      (earlyActions ++ lateActions)).engine.progress.tally.refreshed = 0 := by
  have law := written_once Database.serve hourlyCatalog.get? (by rfl) ⟨.empty, hourlyCatalog⟩
    .epoch earlyActions lateActions obeys_hourlyActions
  have stays : CacheAction.evict "meter" ∉ lateActions := by
    intro member
    cases List.mem_singleton.1 member
  have found : ((hourlySession.run Database.serve earlyActions).seriesOf "meter").at?
      (atMinute 60) = some hourlyCheckpoint := by decide +kernel
  exact ⟨obeys_hourlyActions, law.1 "meter" (atMinute 60) hourlyCheckpoint stays found, law.2⟩

end CacheSession

end Metering
