import Metering.Bracket.Lookup
import Metering.Cache.Maintenance
import Metering.Proofs.Outcome
import Metering.Proofs.Timeline

/-!
# The readings around an instant

A lookup over a store in memory finds the tightest pair of readings around its
target, and the two are one reading where one sits on the target
(`ReadingStore.Brackets`). A new reading changes the pair of an instant only
if it falls strictly between the two (`Brackets.insert`). The value that a
lookup gives depends on that pair and on nothing else (`Brackets.valueAt_eq`).
-/

namespace Metering

namespace ReadingStore

variable {σ : Type}

/-- A store holds a reading that carries a field. -/
def Carries (store : ReadingStore σ) (id : SourceId) (field : Field) (reading : Reading σ) :
    Prop :=
  reading ∈ (store.timeline id).entries ∧ reading.carries field

/-- A source has one reading at an instant. -/
theorem Carries.eq_of_instant_eq {store : ReadingStore σ} {id : SourceId} {field other : Field}
    {left right : Reading σ} (first : store.Carries id field left)
    (second : store.Carries id other right) (same : left.instant = right.instant) :
    left = right :=
  (store.timeline id).eq_of_instant_eq first.1 second.1 same

/-- What the newest reading up to an instant is. -/
theorem nearestBefore_eq_some_iff (store : ReadingStore σ) (id : SourceId) (time : Instant)
    (field : Field) (reading : Reading σ) :
    store.nearestBefore id time field = some reading ↔
      store.Carries id field reading ∧ reading.instant ≤ time ∧
        ∀ other, store.Carries id field other → other.instant ≤ time →
          other.instant ≤ reading.instant := by
  unfold nearestBefore
  rw [Timeline.latestUpTo?_eq_some_iff]
  refine and_congr_right fun _ => and_congr_right fun _ => ?_
  exact ⟨fun least other held => least other held.1 held.2,
    fun least other member carries => least other ⟨member, carries⟩⟩

/-- There is no newest reading up to an instant if there is none. -/
theorem nearestBefore_eq_none_iff (store : ReadingStore σ) (id : SourceId) (time : Instant)
    (field : Field) :
    store.nearestBefore id time field = none ↔
      ∀ other, store.Carries id field other → ¬ other.instant ≤ time := by
  unfold nearestBefore
  rw [Timeline.latestUpTo?_eq_none_iff]
  exact ⟨fun nowhere other held => nowhere other held.1 held.2,
    fun nowhere other member carries => nowhere other ⟨member, carries⟩⟩

/-- What the oldest reading from an instant on is. -/
theorem nearestAfter_eq_some_iff (store : ReadingStore σ) (id : SourceId) (time : Instant)
    (field : Field) (reading : Reading σ) :
    store.nearestAfter id time field = some reading ↔
      store.Carries id field reading ∧ time ≤ reading.instant ∧
        ∀ other, store.Carries id field other → time ≤ other.instant →
          reading.instant ≤ other.instant := by
  unfold nearestAfter
  rw [Timeline.earliestFrom?_eq_some_iff]
  refine and_congr_right fun _ => and_congr_right fun _ => ?_
  exact ⟨fun least other held => least other held.1 held.2,
    fun least other member carries => least other ⟨member, carries⟩⟩

/-- There is no oldest reading from an instant on if there is none. -/
theorem nearestAfter_eq_none_iff (store : ReadingStore σ) (id : SourceId) (time : Instant)
    (field : Field) :
    store.nearestAfter id time field = none ↔
      ∀ other, store.Carries id field other → ¬ time ≤ other.instant := by
  unfold nearestAfter
  rw [Timeline.earliestFrom?_eq_none_iff]
  exact ⟨fun nowhere other held => nowhere other held.1 held.2,
    fun nowhere other member carries => nowhere other ⟨member, carries⟩⟩

/-! ## Insertion -/

/-- A store refuses a reading only where its source has one at its instant. -/
theorem insert_eq_error_iff (store : ReadingStore σ) (reading : Reading σ) (error : StoreError) :
    store.insert reading = .error error ↔
      ((store.timeline reading.source).at? reading.instant).isSome ∧
        error = .duplicate reading.source reading.instant := by
  unfold insert
  simp only
  split <;> grind

/-- A store takes a reading if its source has none at its instant. -/
theorem exists_insert_eq_ok (store : ReadingStore σ) {reading : Reading σ}
    (free : (store.timeline reading.source).at? reading.instant = none) :
    ∃ after, store.insert reading = .ok after := by
  unfold insert
  simp [free]

/-- What is stored after a reading was inserted. -/
theorem mem_timeline_of_insert {store after : ReadingStore σ} {reading : Reading σ}
    (inserted : store.insert reading = .ok after) (id : SourceId) (other : Reading σ) :
    other ∈ (after.timeline id).entries ↔
      other ∈ (store.timeline id).entries ∨ reading.source = id ∧ other = reading := by
  unfold insert at inserted
  simp only at inserted
  split at inserted
  · cases inserted
  · rename_i free
    injection inserted with inserted
    subst inserted
    have nowhere : ∀ entry ∈ (store.timeline reading.source).entries,
        entry.instant ≠ reading.instant := by
      refine (Timeline.at?_eq_none_iff _ reading.instant).1 ?_
      simpa using free
    by_cases same : reading.source = id
    · subst same
      have held : timeline ⟨store.timelines.insert reading.source
          ((store.timeline reading.source).insert reading)⟩ reading.source =
            (store.timeline reading.source).insert reading := by
        simp [timeline]
      rw [held, Timeline.mem_insert]
      exact ⟨fun found => found.elim (fun equal => Or.inr ⟨rfl, equal⟩) fun found => Or.inl found.1,
        fun found => found.elim (fun member => Or.inr ⟨member, nowhere other member⟩)
          fun equal => Or.inl equal.2⟩
    · simp [timeline, same]

/-- What carries a field after a reading was inserted. -/
theorem carries_of_insert {store after : ReadingStore σ} {reading : Reading σ}
    (inserted : store.insert reading = .ok after) (id : SourceId) (field : Field)
    (other : Reading σ) :
    after.Carries id field other ↔ store.Carries id field other ∨
      reading.source = id ∧ reading.carries field ∧ other = reading := by
  unfold Carries
  rw [mem_timeline_of_insert inserted]
  grind

/-! ## Brackets -/

/-- The tightest pair of readings around an instant. -/
structure Brackets (store : ReadingStore σ) (id : SourceId) (field : Field) (time : Instant)
    (before after : Reading σ) : Prop where
  /-- The newest reading up to the instant. -/
  lower : store.nearestBefore id time field = some before
  /-- The oldest reading from the instant on. -/
  upper : store.nearestAfter id time field = some after

section Brackets

variable {store : ReadingStore σ} {id : SourceId} {field : Field} {time : Instant}
  {before after : Reading σ}

/-- A pair of readings is the tightest one around an instant if it is one reading on the instant,
or nothing lies between the two. -/
theorem brackets_of_gap (first : store.Carries id field before)
    (second : store.Carries id field after)
    (around : before = after ∧ before.instant = time ∨
      before.instant < time ∧ time < after.instant)
    (gap : ∀ other, store.Carries id field other →
      other.instant ≤ before.instant ∨ after.instant ≤ other.instant) :
    store.Brackets id field time before after := by
  simp only [Instant.le_iff, Instant.lt_iff] at *
  constructor
  · rw [nearestBefore_eq_some_iff]
    simp only [Instant.le_iff]
    refine ⟨first, ?_, fun other held least => ?_⟩
    · rcases around with ⟨_, rfl⟩ | ⟨less, _⟩ <;> omega
    · have apart := gap other held
      rcases around with ⟨same, rfl⟩ | ⟨_, more⟩ <;> omega
  · rw [nearestAfter_eq_some_iff]
    simp only [Instant.le_iff]
    refine ⟨second, ?_, fun other held most => ?_⟩
    · rcases around with ⟨rfl, rfl⟩ | ⟨_, more⟩ <;> omega
    · have apart := gap other held
      rcases around with ⟨rfl, rfl⟩ | ⟨less, _⟩ <;> omega

/-- An instant with a reading on either side has a tightest pair. -/
theorem exists_brackets (first : store.Carries id field before)
    (second : store.Carries id field after) (low : before.instant ≤ time)
    (high : time ≤ after.instant) :
    ∃ newest oldest, store.Brackets id field time newest oldest := by
  cases lower : store.nearestBefore id time field with
  | none => exact absurd low ((nearestBefore_eq_none_iff ..).1 lower before first)
  | some newest =>
    cases upper : store.nearestAfter id time field with
    | none => exact absurd high ((nearestAfter_eq_none_iff ..).1 upper after second)
    | some oldest => exact ⟨newest, oldest, lower, upper⟩

/-- The pair around an instant is one reading on it, or has the instant strictly inside. -/
theorem Brackets.around (brackets : store.Brackets id field time before after) :
    before = after ∧ before.instant = time ∨ before.instant < time ∧ time < after.instant := by
  obtain ⟨first, low, newest⟩ := (nearestBefore_eq_some_iff ..).1 brackets.lower
  obtain ⟨second, high, oldest⟩ := (nearestAfter_eq_some_iff ..).1 brackets.upper
  by_cases same : before.instant = time
  · have least : after.instant ≤ before.instant := oldest before first (same ▸ Int.le_refl _)
    have equal : before.instant = after.instant :=
      Instant.ext (Int.le_antisymm (same ▸ high) least)
    exact Or.inl ⟨first.eq_of_instant_eq second equal, same⟩
  · refine Or.inr ⟨Int.lt_iff_le_and_ne.2 ⟨low, fun equal => same (Instant.ext equal)⟩, ?_⟩
    refine Int.lt_iff_le_and_ne.2 ⟨high, fun equal => ?_⟩
    have most : after.instant ≤ before.instant :=
      newest after second (Int.le_of_eq equal.symm)
    exact same (Instant.ext (Int.le_antisymm low (Int.le_trans (Int.le_of_eq equal) most)))

/-- Nothing lies between the two readings of the pair around an instant. -/
theorem Brackets.gap (brackets : store.Brackets id field time before after) (other : Reading σ)
    (held : store.Carries id field other) :
    other.instant ≤ before.instant ∨ after.instant ≤ other.instant := by
  rcases Int.le_total other.instant.nanos time.nanos with low | high
  · exact Or.inl (((nearestBefore_eq_some_iff ..).1 brackets.lower).2.2 other held low)
  · exact Or.inr (((nearestAfter_eq_some_iff ..).1 brackets.upper).2.2 other held high)

/-- The first reading of the pair around an instant is stored. -/
theorem Brackets.carries_before (brackets : store.Brackets id field time before after) :
    store.Carries id field before :=
  ((nearestBefore_eq_some_iff ..).1 brackets.lower).1

/-- The second reading of the pair around an instant is stored. -/
theorem Brackets.carries_after (brackets : store.Brackets id field time before after) :
    store.Carries id field after :=
  ((nearestAfter_eq_some_iff ..).1 brackets.upper).1

/-- The first reading of the pair around an instant is not after it. -/
theorem Brackets.before_le (brackets : store.Brackets id field time before after) :
    before.instant ≤ time :=
  ((nearestBefore_eq_some_iff ..).1 brackets.lower).2.1

/-- The second reading of the pair around an instant is not before it. -/
theorem Brackets.le_after (brackets : store.Brackets id field time before after) :
    time ≤ after.instant :=
  ((nearestAfter_eq_some_iff ..).1 brackets.upper).2.1

/-- A new reading leaves the pair around an instant alone unless it falls between the two. -/
theorem Brackets.insert {later : ReadingStore σ} {reading : Reading σ}
    (brackets : store.Brackets id field time before after)
    (inserted : store.insert reading = .ok later)
    (outside : reading.source = id → reading.carries field →
      ¬ (before.instant < reading.instant ∧ reading.instant < after.instant)) :
    later.Brackets id field time before after := by
  refine brackets_of_gap ?_ ?_ brackets.around fun other held => ?_
  · exact (carries_of_insert inserted ..).2 (Or.inl brackets.carries_before)
  · exact (carries_of_insert inserted ..).2 (Or.inl brackets.carries_after)
  · rcases (carries_of_insert inserted ..).1 held with held | ⟨same, carries, rfl⟩
    · exact brackets.gap other held
    · have apart := outside same carries
      simp only [Instant.le_iff, Instant.lt_iff] at *
      omega

/-- The pairs around an instant and a later one are the same, or the later one starts where the
earlier one ends or after that. -/
theorem Brackets.apart_or_same {later : Instant} {beforeLater afterLater : Reading σ}
    (pair : store.Brackets id field time before after)
    (pairLater : store.Brackets id field later beforeLater afterLater) (le : time ≤ later) :
    after.instant ≤ beforeLater.instant ∨ before = beforeLater ∧ after = afterLater := by
  have newest := ((nearestBefore_eq_some_iff ..).1 pairLater.lower).2.2 before
    pair.carries_before (Int.le_trans pair.before_le le)
  have oldest := ((nearestAfter_eq_some_iff ..).1 pair.upper).2.2 afterLater
    pairLater.carries_after (Int.le_trans le pairLater.le_after)
  rcases pairLater.gap after pair.carries_after with apart | joined
  · exact Or.inl apart
  · rcases pair.gap beforeLater pairLater.carries_before with early | late
    · exact Or.inr ⟨pair.carries_before.eq_of_instant_eq pairLater.carries_before
        (Instant.ext (Int.le_antisymm newest early)),
        pair.carries_after.eq_of_instant_eq pairLater.carries_after
          (Instant.ext (Int.le_antisymm oldest joined))⟩
    · exact Or.inl late

end Brackets

/-! ## Values -/

/-- The pair of readings around an instant, and the error if there is none. -/
def bracket (store : ReadingStore σ) (id : SourceId) (time : Instant) (field : Field) :
    Except QueryError (Bracket σ) :=
  match store.nearestBefore id time field, store.nearestAfter id time field with
  | some before, some after => .ok ⟨field, before, after, time⟩
  | none, none => .error (.noData id field)
  | _, _ => .error (.outOfRange id time)

/-- The value of a field at an instant, read off the line through the readings around it. -/
def valueAt [Scalar σ] (store : ReadingStore σ) (id : SourceId) (time : Instant)
    (field : Field) : Except QueryError σ :=
  store.bracket id time field >>= Bracket.interpolate

/-- Stores with the same readings of a source give the same values. -/
theorem valueAt_congr [Scalar σ] {store other : ReadingStore σ} {id : SourceId}
    (same : ∀ reading,
      reading ∈ (store.timeline id).entries ↔ reading ∈ (other.timeline id).entries)
    (time : Instant) (field : Field) :
    store.valueAt id time field = other.valueAt id time field := by
  have equal : store.timeline id = other.timeline id := Timeline.ext_of_mem_iff same
  unfold valueAt bracket nearestBefore nearestAfter
  rw [equal]

/-- The bracket that is found is the pair of readings around an instant. -/
theorem bracket_eq_ok_iff (store : ReadingStore σ) (id : SourceId) (time : Instant)
    (field : Field) (found : Bracket σ) :
    store.bracket id time field = .ok found ↔
      ∃ before after, store.Brackets id field time before after ∧
        found = ⟨field, before, after, time⟩ := by
  unfold bracket
  constructor
  · intro equal
    split at equal
    · rename_i before after lower upper
      injection equal with equal
      exact ⟨before, after, ⟨lower, upper⟩, equal.symm⟩
    all_goals cases equal
  · rintro ⟨before, after, ⟨lower, upper⟩, rfl⟩
    rw [lower, upper]

/-- The value at an instant with readings around it. -/
theorem Brackets.valueAt_eq [Scalar σ] {store : ReadingStore σ} {id : SourceId} {field : Field}
    {time : Instant} {before after : Reading σ}
    (brackets : store.Brackets id field time before after) :
    store.valueAt id time field = Bracket.interpolate ⟨field, before, after, time⟩ := by
  unfold valueAt
  rw [(bracket_eq_ok_iff ..).2 ⟨before, after, brackets, rfl⟩]
  rfl

/-- The value at an instant is the one of the pair of readings around it. -/
theorem valueAt_eq_ok_iff [Scalar σ] (store : ReadingStore σ) (id : SourceId) (time : Instant)
    (field : Field) (value : σ) :
    store.valueAt id time field = .ok value ↔
      ∃ before after, store.Brackets id field time before after ∧
        Bracket.interpolate ⟨field, before, after, time⟩ = .ok value := by
  constructor
  · intro found
    cases around : store.bracket id time field with
    | error error =>
      rw [valueAt, around] at found
      cases found
    | ok bracket =>
      rw [valueAt, around] at found
      obtain ⟨before, after, pair, rfl⟩ := (bracket_eq_ok_iff ..).1 around
      exact ⟨before, after, pair, found⟩
  · rintro ⟨before, after, pair, found⟩
    rw [pair.valueAt_eq, found]

end ReadingStore

namespace Bracket

variable {σ : Type}

/-- A lookup over a store in memory finds the pair of readings around its target. -/
theorem result_find (database : Database σ) (id : SourceId) (time : Instant) (field : Field) :
    (find id time field).result database = database.readings.bracket id time field := by
  have before : (Attempt.nearestBefore id time field).result database =
      .ok (database.readings.nearestBefore id time field) := rfl
  have after : (Attempt.nearestAfter id time field).result database =
      .ok (database.readings.nearestAfter id time field) := rfl
  unfold find ReadingStore.bracket
  rw [Attempt.result_bind, before, Except.ok_bind]
  cases lower : database.readings.nearestBefore id time field with
  | none =>
    simp only [Attempt.result_bind, after, Except.ok_bind]
    cases database.readings.nearestAfter id time field <;> rfl
  | some reading =>
    obtain ⟨held, least, _⟩ := (ReadingStore.nearestBefore_eq_some_iff ..).1 lower
    by_cases same : reading.instant = time
    · have upper : database.readings.nearestAfter id time field = some reading :=
        (ReadingStore.nearestAfter_eq_some_iff ..).2
          ⟨held, Int.le_of_eq (congrArg Instant.nanos same.symm), fun _ _ most => same ▸ most⟩
      simp only [upper, exact, same, if_true, Attempt.result_pure]
    · simp only [if_neg same, Attempt.result_bind, after, Except.ok_bind]
      cases upper : database.readings.nearestAfter id time field with
      | none => rfl
      | some next =>
        have most := ((ReadingStore.nearestAfter_eq_some_iff ..).1 upper).2.1
        have inside : ¬ (time < reading.instant ∨ next.instant < time) := by
          simp only [Instant.le_iff, Instant.lt_iff] at *
          omega
        simp only [Attempt.result_ofExcept, of?, if_neg inside]

/-- A value over a store in memory is read off the readings around its instant. -/
theorem result_valueAt [Scalar σ] (database : Database σ) (id : SourceId) (time : Instant)
    (field : Field) :
    (valueAt id time field).result database = database.readings.valueAt id time field := by
  unfold valueAt ReadingStore.valueAt
  rw [Attempt.result_bind, result_find]
  rfl

end Bracket

end Metering
