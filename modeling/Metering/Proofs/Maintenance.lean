import Metering.Proofs.Catalog
import Metering.Proofs.Grid
import Metering.Proofs.Neighbours
import Metering.Proofs.Review

/-!
# What a reading does to a series

A reading that is stored proposes a checkpoint for every grid instant in the
settled part of the gap it splits, up to the number that one reading may bring
up to date. None of the proposals fails: each has the counter that the readings
give once the new one is among them (`propose_eq`). The series then holds
proposals and checkpoints that nothing was proposed for (`mem_maintained`), and
of the latter a reading changes the counter only beyond that number.
-/

namespace Metering

variable {σ : Type}

/-- A request looks for the energy reading of a source right before or right after an instant. -/
def Request.IsBeside (id : SourceId) (time : Instant) (request : Request σ) : Prop :=
  (∃ earlier, time.justBefore? = some earlier ∧
      request = .nearestBefore id earlier .cumulativeEnergy) ∨
    ∃ later, time.justAfter? = some later ∧ request = .nearestAfter id later .cumulativeEnergy

namespace ReadingStore

/-- The energy readings around an instant are older than the window. -/
def SettledAt (store : ReadingStore σ) (id : SourceId) (window : Span) (now time : Instant) :
    Prop :=
  ∃ before after, store.Brackets id .cumulativeEnergy time before after ∧
    window < now.since after.instant

/-- Readings on either side of an instant settle it if the later one is older than the window. -/
theorem settledAt_of_carries {store : ReadingStore σ} {id : SourceId} {window : Span}
    {now time : Instant} {first second : Reading σ}
    (before : store.Carries id .cumulativeEnergy first)
    (after : store.Carries id .cumulativeEnergy second) (before_le : first.instant ≤ time)
    (le_after : time ≤ second.instant) (old : window < now.since second.instant) :
    store.SettledAt id window now time := by
  obtain ⟨newest, oldest, brackets⟩ := exists_brackets before after before_le le_after
  have closer : oldest.instant ≤ second.instant :=
    ((nearestAfter_eq_some_iff ..).1 brackets.upper).2.2 second after le_after
  exact ⟨newest, oldest, brackets, Instant.lt_since_of_le old (Int.le_refl _) closer⟩

/-- What has settled stays settled as time goes on. -/
theorem SettledAt.later {store : ReadingStore σ} {id : SourceId} {window : Span}
    {now later time : Instant} (settled : store.SettledAt id window now time) (le : now ≤ later) :
    store.SettledAt id window later time := by
  obtain ⟨before, after, brackets, old⟩ := settled
  exact ⟨before, after, brackets, Instant.lt_since_of_le old le (Int.le_refl _)⟩

/-- What has settled for a window has settled for a shorter one. -/
theorem SettledAt.shorter {store : ReadingStore σ} {id : SourceId} {window other : Span}
    {now time : Instant} (settled : store.SettledAt id window now time) (le : other ≤ window) :
    store.SettledAt id other now time := by
  obtain ⟨before, after, brackets, old⟩ := settled
  exact ⟨before, after, brackets, Int.lt_of_le_of_lt le old⟩

variable [Scalar σ]

/-- The energy counter of a source at an instant, zero where the readings give none. -/
def counter (store : ReadingStore σ) (id : SourceId) (time : Instant) : σ :=
  match store.valueAt id time .cumulativeEnergy with
  | .ok value => value
  | .error _ => Scalar.zero

/-- A checkpoint has the energy counter that the readings give at its instant. -/
def Agrees (store : ReadingStore σ) (id : SourceId) (checkpoint : Checkpoint σ) : Prop :=
  store.valueAt id checkpoint.instant .cumulativeEnergy = .ok checkpoint.energy

/-- Readings around an instant give a counter there. -/
theorem SettledAt.valueAt_eq {store : ReadingStore σ} {id : SourceId} {window : Span}
    {now time : Instant} (settled : store.SettledAt id window now time) :
    store.valueAt id time .cumulativeEnergy = .ok (store.counter id time) := by
  obtain ⟨before, after, brackets, _⟩ := settled
  obtain ⟨value, same⟩ := Bracket.exists_interpolate_eq_ok time
    brackets.carries_before.2 brackets.carries_after.2
  have found := brackets.valueAt_eq.trans same
  unfold counter
  rw [found]

/-- A new reading leaves the counter alone at a settled instant, and the instant stays settled,
unless the reading is older than the window and the instant in the settled part of the gap that it
splits. -/
theorem SettledAt.insert {store later : ReadingStore σ} {id : SourceId} {reading : Reading σ}
    {window : Span} {now time : Instant} (settled : store.SettledAt id window now time)
    (inserted : store.insert reading = .ok later)
    (outside : reading.source = id → reading.carries .cumulativeEnergy →
      window < now.since reading.instant →
        ¬ ((store.around id reading).settledWindow window now).contains time) :
    later.SettledAt id window now time ∧
      later.valueAt id time .cumulativeEnergy = store.valueAt id time .cumulativeEnergy := by
  obtain ⟨before, after, brackets, old⟩ := settled
  have kept := brackets.insert inserted fun own carries split => by
    have older : window < now.since reading.instant :=
      Instant.lt_since_of_le old (Int.le_refl _) (Int.le_of_lt split.2)
    exact outside own carries older (contains_of_split brackets old split.1 split.2)
  exact ⟨⟨before, after, kept, old⟩, kept.valueAt_eq.trans brackets.valueAt_eq.symm⟩

end ReadingStore

/-! ## Proposing -/

/-- The counter at an instant, from a reading and its neighbours, zero where they give none. -/
def Neighbours.counter [Scalar σ] (neighbours : Neighbours σ) (time : Instant) : σ :=
  match neighbours.counterAt time with
  | .ok value => value
  | .error _ => Scalar.zero

namespace ProposalRules

/-- Whether an instant is left alone because of the checkpoint there. -/
def leavesAlone (rules : ProposalRules) (slot : Instant × Option (Checkpoint σ)) : Bool :=
  slot.2.any rules.isFrozen

/-- The proposal for an instant, given with the checkpoint there. -/
def candidate (rules : ProposalRules) (counter : Instant → σ)
    (slot : Instant × Option (Checkpoint σ)) : Candidate σ :=
  ⟨⟨rules.id, slot.1, counter slot.1, rules.now⟩, slot.2.isSome⟩

variable [Scalar σ]

/-- Where the instants that are not left alone have counters, each of them is proposed. -/
theorem propose_eq (rules : ProposalRules) {neighbours : Neighbours σ} {counter : Instant → σ}
    {slots : List (Instant × Option (Checkpoint σ))}
    (found : ∀ slot ∈ slots, rules.leavesAlone slot = false →
      neighbours.counterAt slot.1 = .ok (counter slot.1)) (frozen : Nat)
    (sofar : List (Candidate σ)) :
    rules.propose neighbours frozen sofar slots =
      (frozen + slots.countP rules.leavesAlone,
        .ok (sofar.reverse ++ (slots.filter fun slot => !rules.leavesAlone slot).map
          (rules.candidate counter))) := by
  induction slots generalizing frozen sofar with
  | nil => simp [propose]
  | cons slot rest ih =>
    have foundRest := fun other member => found other (List.mem_cons_of_mem slot member)
    obtain ⟨boundary, existing⟩ := slot
    unfold propose
    cases alone : existing.any rules.isFrozen with
    | true =>
      have left : rules.leavesAlone (boundary, existing) = true := alone
      rw [if_pos rfl, ih foundRest, List.countP_cons_of_pos left,
        List.filter_cons_of_neg (by simp [left])]
      simp only [Prod.mk.injEq, and_true]
      omega
    | false =>
      have taken : rules.leavesAlone (boundary, existing) = false := alone
      have value : neighbours.counterAt boundary = .ok (counter boundary) :=
        found (boundary, existing) List.mem_cons_self taken
      rw [if_neg (by simp), value]
      simp only
      rw [ih foundRest, List.countP_cons_of_neg (by simp [taken]),
        List.filter_cons_of_pos (by simp [taken]), List.reverse_cons, List.append_assoc]
      rfl

/-- Proposals that do not fail have a counter for each instant that is not left alone. -/
theorem counterAt_of_propose (rules : ProposalRules) {neighbours : Neighbours σ}
    {slots : List (Instant × Option (Checkpoint σ))} {frozen : Nat}
    {sofar candidates : List (Candidate σ)}
    (came : (rules.propose neighbours frozen sofar slots).2 = .ok candidates) :
    ∀ slot ∈ slots, rules.leavesAlone slot = false →
      neighbours.counterAt slot.1 = .ok (neighbours.counter slot.1) := by
  induction slots generalizing frozen sofar with
  | nil => exact fun _ member => absurd member List.not_mem_nil
  | cons first rest ih =>
    obtain ⟨boundary, existing⟩ := first
    unfold propose at came
    intro slot member taken
    split at came
    · rename_i alone
      rcases List.mem_cons.1 member with rfl | member
      · exact absurd (Eq.trans taken.symm alone) Bool.false_ne_true
      · exact ih came slot member taken
    · split at came
      · rename_i value found
        rcases List.mem_cons.1 member with rfl | member
        · unfold Neighbours.counter
          rw [found]
        · exact ih came slot member taken
      · cases came

end ProposalRules

namespace CheckpointCache

/-- The rules of the proposals for a source. -/
def rulesFor (cache : CheckpointCache σ) (source : Source σ) (settings : CacheSettings)
    (now : Instant) : ProposalRules :=
  ⟨source.id, cache.config.lateDataPolicy, settings.window, now⟩

section Around

variable (cache : CheckpointCache σ) (source : Source σ) (settings : CacheSettings)
  (neighbours : Neighbours σ) (counter : Instant → σ) (now : Instant)

/-- The grid instants that a reading between its neighbours brings up to date, with the checkpoints
there. -/
def slotsAround : List (Instant × Option (Checkpoint σ)) :=
  (cache.affected source settings neighbours now).map fun boundary =>
    (boundary, (cache.seriesOf source.id).at? boundary)

/-- The candidates with given counters for the slots that are not left alone. -/
def proposals : List (Candidate σ) :=
  ((cache.slotsAround source settings neighbours now).filter fun slot =>
    !(cache.rulesFor source settings now).leavesAlone slot).map
      ((cache.rulesFor source settings now).candidate counter)

/-- The instants that a reading brings up to date never lead back. -/
theorem pairwise_affected : (cache.affected source settings neighbours now).Pairwise (· ≤ ·) :=
  (Grid.within_spec settings.interval_nonneg _ _).1

/-- The slots are what the upkeep looks at. -/
theorem zip_atEach_affected :
    (cache.affected source settings neighbours now).zip ((cache.seriesOf source.id).atEach
      (cache.affected source settings neighbours now)) =
        cache.slotsAround source settings neighbours now := by
  rw [Timeline.atEach_eq_map _ (cache.pairwise_affected source settings neighbours now)]
  exact List.map_prod_left_eq_zip.symm

/-- What the candidates with given counters are. -/
theorem mem_proposals_iff (candidate : Candidate σ) :
    candidate ∈ cache.proposals source settings neighbours counter now ↔
      ∃ time ∈ cache.affected source settings neighbours now,
        ((cache.seriesOf source.id).at? time).any (cache.rulesFor source settings now).isFrozen =
            false ∧
          candidate = ⟨⟨source.id, time, counter time, now⟩,
            ((cache.seriesOf source.id).at? time).isSome⟩ := by
  unfold proposals slotsAround
  simp only [List.mem_map, List.mem_filter, Bool.not_eq_true']
  constructor
  · rintro ⟨slot, ⟨⟨time, inside, rfl⟩, open_⟩, rfl⟩
    exact ⟨time, inside, open_, rfl⟩
  · rintro ⟨time, inside, open_, rfl⟩
    exact ⟨_, ⟨⟨time, inside, rfl⟩, open_⟩, rfl⟩

/-- The candidates are for the source of the series. -/
theorem source_of_mem_proposals {candidate : Candidate σ}
    (proposed : candidate ∈ cache.proposals source settings neighbours counter now) :
    candidate.checkpoint.source = source.id := by
  obtain ⟨time, _, _, rfl⟩ := (mem_proposals_iff ..).1 proposed
  rfl

/-- The candidates tell which of them replace a checkpoint. -/
theorem marked_proposals :
    ∀ candidate ∈ cache.proposals source settings neighbours counter now,
      candidate.replaces =
        ((cache.seriesOf source.id).at? candidate.checkpoint.instant).isSome := by
  intro candidate proposed
  obtain ⟨time, _, _, rfl⟩ := (mem_proposals_iff ..).1 proposed
  rfl

/-- The candidates are in the order of their instants. -/
theorem pairwise_proposals :
    (cache.proposals source settings neighbours counter now).Pairwise fun earlier later =>
      earlier.checkpoint.instant ≤ later.checkpoint.instant := by
  have slots : (cache.slotsAround source settings neighbours now).Pairwise fun earlier later =>
      earlier.1 ≤ later.1 :=
    (cache.pairwise_affected source settings neighbours now).map _ fun _ _ le => le
  exact (slots.filter _).map _ fun _ _ le => le

end Around

variable [Scalar σ]

section Proposals

variable (cache : CheckpointCache σ) (source : Source σ) (settings : CacheSettings)
  (store : ReadingStore σ) (reading : Reading σ) (now : Instant)

/-- The grid instants that a stored reading brings up to date, with the checkpoints there. -/
def slots : List (Instant × Option (Checkpoint σ)) :=
  (cache.affected source settings (store.around source.id reading) now).map fun boundary =>
    (boundary, (cache.seriesOf source.id).at? boundary)

/-- The candidates for the slots that are not left alone. -/
def candidates : List (Candidate σ) :=
  ((cache.slots source settings store reading now).filter fun slot =>
    !(cache.rulesFor source settings now).leavesAlone slot).map
      ((cache.rulesFor source settings now).candidate (store.counter source.id))

/-- The review of the candidates. -/
def review : Review σ :=
  Review.of ((cache.seriesOf source.id).neighbourhood
    (cache.candidates source settings store reading now))
    (cache.candidates source settings store reading now)

/-- The series as it is left. -/
def maintained : Series σ :=
  (cache.review source settings store reading now).apply (cache.seriesOf source.id)

/-- What is counted. -/
def upkeepEvents : List CacheEvent :=
  List.replicate ((cache.slots source settings store reading now).countP
      (cache.rulesFor source settings now).leavesAlone) .frozenSkip ++
    (cache.review source settings store reading now).events.reverse

end Proposals

section Upkeep

variable {cache : CheckpointCache σ} {source : Source σ} {settings : CacheSettings}
  {store later : ReadingStore σ} {reading : Reading σ} {now : Instant}

omit [Scalar σ] in
/-- The instants that a reading brings up to date are those of the grid in the settled part of the
gap it splits, as far as the number allowed. -/
theorem mem_affected_iff (regular : (source.grid settings).IsRegular)
    (time : Instant) :
    time ∈ cache.affected source settings (later.around source.id reading) now ↔
      time ∈ (source.grid settings).instantsIn
          ((later.around source.id reading).settledWindow settings.window now) ∧
        {other ∈ (source.grid settings).instantsIn
          ((later.around source.id reading).settledWindow settings.window now) |
            other < time}.ncard < cache.config.maxBoundariesPerIngest :=
  Grid.mem_within_iff regular _ _ time

/-- The counter of an instant that a reading brings up to date is the one that the readings give,
and the readings around the instant have settled. -/
theorem counterAt_of_mem_affected
    (regular : (source.grid settings).IsRegular)
    (inserted : store.insert reading = .ok later) (own : reading.source = source.id)
    (carries : reading.carries .cumulativeEnergy)
    (settled : settings.window < now.since reading.instant) {time : Instant}
    (member : time ∈ cache.affected source settings (later.around source.id reading) now) :
    later.SettledAt source.id settings.window now time ∧
      (later.around source.id reading).counterAt time = .ok (later.counter source.id time) := by
  obtain ⟨⟨_, inside⟩, _⟩ := (mem_affected_iff regular time).1 member
  rw [ReadingStore.around_of_insert inserted] at inside ⊢
  obtain ⟨before, after, brackets, same, old⟩ :=
    ReadingStore.exists_brackets_of_contains inserted own carries settled inside
  have around : later.SettledAt source.id settings.window now time :=
    ⟨before, after, brackets, old⟩
  exact ⟨around, same.trans (brackets.valueAt_eq.symm.trans around.valueAt_eq)⟩

/-- Where the instants that a reading brings up to date have counters, bringing a series up to date
succeeds with what the review of the candidates makes of it. -/
theorem result_maintain_of_counters (cache : CheckpointCache σ) (source : Source σ)
    (settings : CacheSettings) (now : Instant) {database : Database σ} {counter : Instant → σ}
    (found : ∀ time ∈ cache.affected source settings
        (database.readings.around source.id reading) now,
      (database.readings.around source.id reading).counterAt time = .ok (counter time)) :
    let neighbours := database.readings.around source.id reading
    let candidates := cache.proposals source settings neighbours counter now
    let review := Review.of ((cache.seriesOf source.id).neighbourhood candidates) candidates
    (cache.maintain source settings reading now).result database =
        .ok (review.accepted.length, review.apply (cache.seriesOf source.id)) ∧
      (cache.maintain source settings reading now).events database =
        List.replicate ((cache.slotsAround source settings neighbours now).countP
            (cache.rulesFor source settings now).leavesAlone) .frozenSkip ++
          review.events.reverse := by
  intro neighbours candidates review
  have counted : ∀ slot ∈ cache.slotsAround source settings neighbours now,
      neighbours.counterAt slot.1 = .ok (counter slot.1) := by
    intro slot member
    obtain ⟨boundary, inside, rfl⟩ := List.mem_map.1 member
    exact found boundary inside
  have proposed : (cache.rulesFor source settings now).propose neighbours 0 []
      (cache.slotsAround source settings neighbours now) =
        ((cache.slotsAround source settings neighbours now).countP
          (cache.rulesFor source settings now).leavesAlone, .ok candidates) := by
    rw [ProposalRules.propose_eq _ fun slot member _ => counted slot member, Nat.zero_add]
    rfl
  have zipped := cache.zip_atEach_affected source settings neighbours now
  unfold rulesFor at proposed
  unfold maintain
  constructor
  · simp only [Attempt.result_bind, result_neighboursOf, Except.ok_bind, neighbours, zipped,
      proposed, Attempt.result_tallyAll, Attempt.result_ofExcept]
    rfl
  · simp only [Attempt.events_bind, result_neighboursOf, events_neighboursOf, List.nil_append,
      neighbours, zipped, proposed, Attempt.result_tallyAll, Attempt.result_ofExcept,
      Attempt.events_tallyAll, Attempt.events_ofExcept, Attempt.events_pure, List.append_nil]
    rfl

/-- Bringing a series up to date with a stored reading succeeds, and what it counts. -/
theorem result_maintain (cache : CheckpointCache σ) (regular : (source.grid settings).IsRegular)
    {database : Database σ} (inserted : store.insert reading = .ok database.readings)
    (own : reading.source = source.id) (carries : reading.carries .cumulativeEnergy)
    (settled : settings.window < now.since reading.instant) :
    (cache.maintain source settings reading now).result database =
        .ok ((cache.review source settings database.readings reading now).accepted.length,
          cache.maintained source settings database.readings reading now) ∧
      (cache.maintain source settings reading now).events database =
        cache.upkeepEvents source settings database.readings reading now :=
  cache.result_maintain_of_counters source settings now fun _ inside =>
    (counterAt_of_mem_affected regular inserted own carries settled inside).2

/-! ## What the series holds afterwards -/

/-- What the candidates are. -/
theorem mem_candidates_iff (candidate : Candidate σ) :
    candidate ∈ cache.candidates source settings later reading now ↔
      ∃ time ∈ cache.affected source settings (later.around source.id reading) now,
        ((cache.seriesOf source.id).at? time).any (cache.rulesFor source settings now).isFrozen =
            false ∧
          candidate = ⟨⟨source.id, time, later.counter source.id time, now⟩,
            ((cache.seriesOf source.id).at? time).isSome⟩ :=
  mem_proposals_iff ..

/-- The series holds proposals and what nothing was proposed for. -/
theorem mem_maintained {checkpoint : Checkpoint σ}
    (member : checkpoint ∈ (cache.maintained source settings later reading now).entries) :
    (∃ candidate ∈ cache.candidates source settings later reading now,
      candidate.checkpoint = checkpoint) ∨
    checkpoint ∈ (cache.seriesOf source.id).entries ∧
      ∀ candidate ∈ cache.candidates source settings later reading now,
        candidate.checkpoint.instant ≠ checkpoint.instant :=
  Review.proposed_or_untouched (marked_proposals _ _ _ _ _ _) member

/-- A checkpoint that nothing was proposed for stays. -/
theorem mem_maintained_of_untouched {checkpoint : Checkpoint σ}
    (there : checkpoint ∈ (cache.seriesOf source.id).entries)
    (apart : ∀ candidate ∈ cache.candidates source settings later reading now,
      candidate.checkpoint.instant ≠ checkpoint.instant) :
    checkpoint ∈ (cache.maintained source settings later reading now).entries :=
  Review.mem_apply_of_untouched there apart

/-- A proposal has the counter that the readings give, at a grid instant whose readings have
settled. -/
theorem agrees_of_mem_candidates
    (regular : (source.grid settings).IsRegular)
    (inserted : store.insert reading = .ok later) (own : reading.source = source.id)
    (carries : reading.carries .cumulativeEnergy)
    (settled : settings.window < now.since reading.instant) {candidate : Candidate σ}
    (proposed : candidate ∈ cache.candidates source settings later reading now) :
    candidate.checkpoint.source = source.id ∧
      (source.grid settings).Has candidate.checkpoint.instant ∧
      later.SettledAt source.id settings.window now candidate.checkpoint.instant ∧
      later.Agrees source.id candidate.checkpoint := by
  obtain ⟨time, inside, _, rfl⟩ := (mem_candidates_iff candidate).1 proposed
  obtain ⟨around, _⟩ := counterAt_of_mem_affected regular inserted own carries settled inside
  exact ⟨rfl, ((mem_affected_iff regular time).1 inside).1.1, around, around.valueAt_eq⟩

end Upkeep

/-! ## What follows the insertion -/

/-- What is done once a reading is stored. -/
def upkeep (cache : CheckpointCache σ) (source : Source σ) (reading : Reading σ) (now : Instant) :
    Attempt σ (Nat × CheckpointCache σ) := do
  match cache.settingsFor? source with
  | none => return (0, cache)
  | some settings =>
    if reading.energy.isNone ∨ now.since reading.instant ≤ settings.window then
      return (0, cache)
    else
      match ← (cache.maintain source settings reading now).outcome with
      | .ok (written, series) => return (written, cache.withSeries source.id series)
      | .error _ =>
        Attempt.tally .fallback
        return (0, cache)

/-- Taking in a reading is storing it and doing what is left. -/
theorem ingest_eq (cache : CheckpointCache σ) (source : Source σ) (reading : Reading σ)
    (now : Instant) :
    cache.ingest source reading now =
      (Attempt.insert reading >>= fun _ => cache.upkeep source reading now) := rfl

/-- A stored reading calls for upkeep of a source's checkpoints if it carries energy and is older
than the window. -/
def CallsForUpkeep (cache : CheckpointCache σ) (source : Source σ) (settings : CacheSettings)
    (reading : Reading σ) (now : Instant) : Prop :=
  cache.settingsFor? source = some settings ∧ reading.carries .cumulativeEnergy ∧
    settings.window < now.since reading.instant

variable {cache : CheckpointCache σ} {source : Source σ} {settings : CacheSettings}
  {store : ReadingStore σ} {reading : Reading σ} {now : Instant}

/-- A reading that calls for no upkeep leaves the cache as it is. -/
theorem upkeep_eq_of_not_calls
    (idle : ∀ settings, ¬ cache.CallsForUpkeep source settings reading now) :
    cache.upkeep source reading now = pure (0, cache) := by
  unfold upkeep
  cases found : cache.settingsFor? source with
  | none => rfl
  | some settings =>
    refine if_pos ?_
    by_cases carries : reading.carries .cumulativeEnergy
    · refine Or.inr (Int.not_lt.1 fun settled => idle settings ⟨found, carries, settled⟩)
    · exact Or.inl (Option.isNone_iff_eq_none.2 (Option.not_isSome_iff_eq_none.1 carries))

/-- A reading that calls for upkeep brings the series of its source up to date, as far as that does
not fail. -/
theorem upkeep_eq_of_calls (calls : cache.CallsForUpkeep source settings reading now) :
    cache.upkeep source reading now = (do
      match ← (cache.maintain source settings reading now).outcome with
      | .ok (written, series) => return (written, cache.withSeries source.id series)
      | .error _ =>
        Attempt.tally .fallback
        return (0, cache)) := by
  obtain ⟨found, carries, settled⟩ := calls
  have due : ¬ (reading.energy.isNone ∨ now.since reading.instant ≤ settings.window) := by
    rintro (none | recent)
    · have nothing : reading.energy = .none := Option.isNone_iff_eq_none.1 none
      have something : reading.energy.isSome := carries
      rw [nothing] at something
      cases something
    · exact absurd settled (Int.not_lt.2 recent)
  unfold upkeep
  simp only [found, if_neg due]

/-- An upkeep whose series was brought up to date replaces that series. -/
theorem result_upkeep_of_maintain (calls : cache.CallsForUpkeep source settings reading now)
    {database : Database σ} {written : Nat} {series : Series σ}
    (maintained : (cache.maintain source settings reading now).result database =
      .ok (written, series)) :
    (cache.upkeep source reading now).result database =
        .ok (written, cache.withSeries source.id series) ∧
      (cache.upkeep source reading now).events database =
        (cache.maintain source settings reading now).events database := by
  rw [upkeep_eq_of_calls calls]
  constructor
  · simp only [Attempt.result_bind, Attempt.result_outcome, maintained, Except.ok_bind]
    rfl
  · simp only [Attempt.events_bind, Attempt.result_outcome, Attempt.events_outcome, maintained]
    exact List.append_nil _

/-- A reading that calls for upkeep replaces the series of its source. -/
theorem result_upkeep_of_calls (calls : cache.CallsForUpkeep source settings reading now)
    (regular : (source.grid settings).IsRegular)
    {database : Database σ} (inserted : store.insert reading = .ok database.readings)
    (own : reading.source = source.id) :
    (cache.upkeep source reading now).result database =
        .ok ((cache.review source settings database.readings reading now).accepted.length,
          cache.withSeries source.id
            (cache.maintained source settings database.readings reading now)) ∧
      (cache.upkeep source reading now).events database =
        cache.upkeepEvents source settings database.readings reading now := by
  obtain ⟨result, events⟩ := result_maintain cache regular inserted own calls.2.1 calls.2.2
  obtain ⟨replaced, counted⟩ := result_upkeep_of_maintain calls result
  exact ⟨replaced, counted.trans events⟩

omit [Scalar σ] in
/-- Looking up the neighbours of a reading asks for those right beside it, and counts nothing. -/
theorem asks_neighboursOf {counted : CacheEvent → Prop} (id : SourceId) (reading : Reading σ) :
    (neighboursOf id reading).Uses (Request.IsBeside id reading.instant) counted := by
  unfold neighboursOf
  cases before : reading.instant.justBefore? with
  | none => cases after : reading.instant.justAfter? with
    | none => exact Attempt.uses_pure _
    | some time =>
      exact (Attempt.uses_request (Or.inr ⟨time, after, rfl⟩)).bind fun _ => Attempt.uses_pure _
  | some earlier =>
    refine (Attempt.uses_request (Or.inl ⟨earlier, before, rfl⟩)).bind fun previous => ?_
    cases after : reading.instant.justAfter? with
    | none => exact Attempt.uses_pure _
    | some time =>
      exact (Attempt.uses_request (Or.inr ⟨time, after, rfl⟩)).bind fun _ => Attempt.uses_pure _

omit [Scalar σ] in
/-- Looking up the neighbours of a reading only looks things up. -/
theorem uses_neighboursOf {counted : CacheEvent → Prop} (id : SourceId) (reading : Reading σ) :
    (neighboursOf id reading).Uses Request.IsLookup counted := by
  refine Plan.Uses.imp (asks_neighboursOf id reading) ?_ fun _ counts => counts
  rintro _ (⟨_, _, rfl⟩ | ⟨_, _, rfl⟩)
  · trivial
  · trivial

/-- What follows the insertion of a reading only looks things up. -/
theorem uses_upkeep :
    (cache.upkeep source reading now).Uses Request.IsLookup fun _ => True := by
  have maintain : ∀ settings,
      (cache.maintain source settings reading now).Uses Request.IsLookup fun _ => True := by
    intro settings
    unfold maintain
    refine (uses_neighboursOf source.id reading).bind fun found => ?_
    refine (Attempt.uses_tallyAll fun _ _ => trivial).bind fun _ => ?_
    refine (Attempt.uses_ofExcept _).bind fun candidates => ?_
    exact (Attempt.uses_tallyAll fun _ _ => trivial).bind fun _ => Attempt.uses_pure _
  unfold upkeep
  split
  · exact Attempt.uses_pure _
  · split
    · exact Attempt.uses_pure _
    · refine (maintain _).outcome.bind fun outcome => ?_
      split
      · exact Attempt.uses_pure _
      · exact (Attempt.uses_tally trivial).bind fun _ => Attempt.uses_pure _

end CheckpointCache

end Metering
