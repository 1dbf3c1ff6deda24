import Metering.Proofs.Line
import Metering.Proofs.StoreHistory
import Metering.Proofs.Sweep

/-!
# Reading a field between readings

A lookup finds the latest reading up to its target and the earliest one from it
on, among those that carry the field, and it fails only where one of the two is
missing (`Engine.find_tightest`). The line between them stays between their
values although its time differences are counted in whole milliseconds
(`Bracket.line_between`). So the counter of readings that never fall does not
fall either, and there is one at every instant between two that have one
(`Engine.counter_rises`).
-/

namespace Metering

namespace Reading

variable {σ : Type}

/-- A reading is the latest one up to an instant among those that are held. -/
def IsLatestUpTo (held : Reading σ → Prop) (time : Instant) (reading : Reading σ) : Prop :=
  held reading ∧ reading.instant ≤ time ∧
    ∀ other, held other → other.instant ≤ time → other.instant ≤ reading.instant

/-- A reading is the earliest one from an instant on among those that are held. -/
def IsEarliestFrom (held : Reading σ → Prop) (time : Instant) (reading : Reading σ) : Prop :=
  held reading ∧ time ≤ reading.instant ∧
    ∀ other, held other → time ≤ other.instant → reading.instant ≤ other.instant

end Reading

/-! ## The line between two values -/

namespace Bracket

/-- The line through negated values is the negated line. -/
theorem line_neg (start : Instant) (startValue : Rat) (stop : Instant) (stopValue : Rat)
    (target : Instant) :
    line start (-startValue) stop (-stopValue) target =
      -line start startValue stop stopValue target := by
  simp only [line_eq]
  split
  · rfl
  · ring

/-- Between two instants the line stays between the values there. -/
theorem line_between {start stop target : Instant} (startValue stopValue : Rat)
    (low : start ≤ target) (high : target ≤ stop) :
    min startValue stopValue ≤ line start startValue stop stopValue target ∧
      line start startValue stop stopValue target ≤ max startValue stopValue := by
  rcases le_total startValue stopValue with rises | falls
  · obtain ⟨above, _, below⟩ := line_mono rises low (Int.le_refl _) high
    exact ⟨min_le_of_left_le above, le_max_of_le_right below⟩
  · -- A line that falls is the negative of one that rises.
    obtain ⟨above, _, below⟩ := line_mono (neg_le_neg falls) low (Int.le_refl _) high
    rw [line_neg] at above below
    exact ⟨min_le_of_right_le (neg_le_neg_iff.1 below), le_max_of_le_left (neg_le_neg_iff.1 above)⟩

/-- The value of a bracket is between the values of its readings, and at a reading it is the
reading's own. -/
theorem exists_value_between {field : Field} {before after : Reading Rat} {time : Instant}
    {low high : Rat} (lower : before.value? field = some low)
    (upper : after.value? field = some high)
    (around : before = after ∧ before.instant = time ∨
      before.instant < time ∧ time < after.instant) :
    ∃ value, interpolate ⟨field, before, after, time⟩ = .ok value ∧
      min low high ≤ value ∧ value ≤ max low high ∧
      (time = before.instant → value = low) ∧ (time = after.instant → value = high) := by
  refine ⟨_, interpolate_eq_ok time lower upper, ?_⟩
  rcases around with ⟨rfl, rfl⟩ | ⟨start, stop⟩
  · obtain rfl : low = high := Option.some_inj.1 (lower.symm.trans upper)
    simp
  · have moves : ¬ (before.instant = after.instant ∨ time = before.instant) :=
      not_or.2 ⟨Instant.ne_of_lt (Int.lt_trans start stop), (Instant.ne_of_lt start).symm⟩
    have early : time ≠ after.instant := Instant.ne_of_lt stop
    rw [if_neg moves, if_neg early]
    obtain ⟨above, below⟩ := line_between low high (Int.le_of_lt start) (Int.le_of_lt stop)
    exact ⟨above, below, fun same => absurd (Or.inr same) moves, fun same => absurd same early⟩

end Bracket

/-! ## The bracket of an instant -/

namespace ReadingStore

section Bracket

variable {σ : Type} (store : ReadingStore σ) (id : SourceId) (time : Instant) (field : Field)

/-- The bracket of an instant is made of the latest reading up to it and the earliest from it on. -/
theorem bracket_eq_ok_iff_tightest (bracket : Bracket σ) :
    store.bracket id time field = .ok bracket ↔
      (bracket.field = field ∧ bracket.target = time) ∧
        bracket.before.IsLatestUpTo (store.Carries id field) time ∧
        bracket.after.IsEarliestFrom (store.Carries id field) time := by
  have lower := nearestBefore_eq_some_iff store id time field bracket.before
  have upper := nearestAfter_eq_some_iff store id time field bracket.after
  unfold Reading.IsLatestUpTo Reading.IsEarliestFrom
  rw [bracket_eq_ok_iff, ← lower, ← upper]
  constructor
  · rintro ⟨before, after, pair, rfl⟩
    exact ⟨⟨rfl, rfl⟩, pair.lower, pair.upper⟩
  · rintro ⟨⟨rfl, rfl⟩, first, second⟩
    exact ⟨bracket.before, bracket.after, ⟨first, second⟩, rfl⟩

variable {store id time field} in
/-- A reading on an instant is both of the pair around it. -/
theorem Brackets.eq_of_instant_eq {before after reading : Reading σ}
    (pair : store.Brackets id field time before after) (held : store.Carries id field reading)
    (sits : reading.instant = time) : before = reading ∧ after = reading := by
  have apart := pair.gap reading held
  rcases pair.around with ⟨rfl, same⟩ | ⟨low, high⟩
  · have one : before = reading := pair.carries_before.eq_of_instant_eq held (same.trans sits.symm)
    exact ⟨one, one⟩
  · rw [sits] at apart
    exact absurd apart (not_or.2 ⟨Int.not_le.2 low, Int.not_le.2 high⟩)

/-- There is no bracket where no reading carries the field, and the instant is out of range where
all that carry it are later or all are earlier. Otherwise there is a bracket. -/
theorem bracket_cases :
    (∀ reading, ¬ store.Carries id field reading) ∧
        store.bracket id time field = .error (.noData id field) ∨
      ((∃ reading, store.Carries id field reading) ∧
        ((∀ reading, store.Carries id field reading → time < reading.instant) ∨
          ∀ reading, store.Carries id field reading → reading.instant < time)) ∧
        store.bracket id time field = .error (.outOfRange id time) ∨
      ∃ before after, store.Brackets id field time before after ∧
        store.bracket id time field = .ok ⟨field, before, after, time⟩ := by
  cases lower : store.nearestBefore id time field with
  | none =>
    have later : ∀ reading, store.Carries id field reading → time < reading.instant :=
      fun reading held => Int.not_le.1 ((nearestBefore_eq_none_iff ..).1 lower reading held)
    have refused := store.bracket_eq_error_of_nearestBefore lower
    by_cases any : ∃ reading, store.Carries id field reading
    · obtain ⟨reading, held⟩ := any
      rw [if_pos (isSome_nearestAfter_first held)] at refused
      exact Or.inr (Or.inl ⟨⟨⟨reading, held⟩, Or.inl later⟩, refused⟩)
    · have nothing : ∀ reading, ¬ store.Carries id field reading := not_exists.1 any
      have oldest : store.nearestAfter id Instant.first field = none :=
        (nearestAfter_eq_none_iff ..).2 fun reading held => absurd held (nothing reading)
      rw [oldest] at refused
      exact Or.inl ⟨nothing, refused⟩
  | some before =>
    obtain ⟨held, low, _⟩ := (nearestBefore_eq_some_iff ..).1 lower
    cases upper : store.nearestAfter id time field with
    | none =>
      have earlier : ∀ reading, store.Carries id field reading → reading.instant < time :=
        fun reading there => Int.not_le.1 ((nearestAfter_eq_none_iff ..).1 upper reading there)
      have refused := bracket_eq_error_of_nearestAfter held low upper
      exact Or.inr (Or.inl ⟨⟨⟨before, held⟩, Or.inr earlier⟩, refused⟩)
    | some after =>
      have pair : store.Brackets id field time before after := ⟨lower, upper⟩
      have found := (bracket_eq_ok_iff ..).2 ⟨before, after, pair, rfl⟩
      exact Or.inr (Or.inr ⟨before, after, pair, found⟩)

/-- A bracket is refused only where no reading carries the field, or where all that carry it are on
one side of the instant. -/
theorem bracket_eq_error_iff (error : QueryError) :
    store.bracket id time field = .error error ↔
      (∀ reading, ¬ store.Carries id field reading) ∧ error = .noData id field ∨
      ((∃ reading, store.Carries id field reading) ∧
        ((∀ reading, store.Carries id field reading → time < reading.instant) ∨
          ∀ reading, store.Carries id field reading → reading.instant < time)) ∧
        error = .outOfRange id time := by
  rcases bracket_cases store id time field with
    ⟨nothing, same⟩ | ⟨⟨⟨reading, held⟩, apart⟩, same⟩ | ⟨before, after, pair, same⟩
  · rw [same]
    constructor
    · rintro ⟨⟩
      exact Or.inl ⟨nothing, rfl⟩
    · rintro (⟨_, rfl⟩ | ⟨⟨⟨reading, held⟩, _⟩, _⟩)
      · rfl
      · exact absurd held (nothing reading)
  · rw [same]
    constructor
    · rintro ⟨⟩
      exact Or.inr ⟨⟨⟨reading, held⟩, apart⟩, rfl⟩
    · rintro (⟨nothing, _⟩ | ⟨_, rfl⟩)
      · exact absurd held (nothing reading)
      · rfl
  · rw [same]
    refine iff_of_false nofun ?_
    rintro (⟨nothing, _⟩ | ⟨⟨_, later | earlier⟩, _⟩)
    · exact nothing before pair.carries_before
    · exact Int.not_lt.2 pair.before_le (later before pair.carries_before)
    · exact Int.not_lt.2 pair.le_after (earlier after pair.carries_after)

end Bracket

end ReadingStore

/-! ## Lookups of an engine -/

namespace Engine

/-- A lookup without limits finds the bracket that the stored readings give. -/
theorem perform_find {σ : Type} (engine : Engine σ (Database σ)) (id : SourceId) (time : Instant)
    (field : Field) :
    (engine.perform Database.serve .none (Bracket.find id time field)).1 =
      engine.progress.world.readings.bracket id time field := by
  have nothing : Limits.none.check engine.progress.elapsed = none := rfl
  rw [perform_eq nothing (Bracket.uses_find id time field), Bracket.result_find]

/-- A value without limits is the one that the stored readings give. -/
theorem perform_valueAt {σ : Type} [Scalar σ] (engine : Engine σ (Database σ)) (id : SourceId)
    (time : Instant) (field : Field) :
    (engine.perform Database.serve .none (Bracket.valueAt id time field)).1 =
      engine.progress.world.readings.valueAt id time field := by
  have nothing : Limits.none.check engine.progress.elapsed = none := rfl
  rw [perform_eq nothing (Bracket.uses_valueAt id time field), Bracket.result_valueAt]

/-- After any insertions and removals of readings, a lookup finds no data exactly if no reading that
is left carries the field, and is out of range exactly if there is one but all are later than the
target or all are earlier. Otherwise it finds the latest reading up to the target and the earliest
one from it on, which are one reading if there is one on the target. What it finds has a value. That
lies between the values of the two readings, and at one of them it is that reading's own. -/
theorem find_tightest (actions : List (StoreAction Rat)) (catalog : Catalog Rat) (config : Config)
    (now : Instant) (id : SourceId) (target : Instant) (field : Field) :
    let engine := new config ⟨ReadingStore.empty.afterAll actions, catalog⟩ now
    let found := (engine.perform Database.serve .none (Bracket.find id target field)).1
    let held := fun reading => reading ∈ StoreAction.leftBy actions ∧ reading.source = id ∧
      reading.carries field
    (found = .error (.noData id field) ↔ ∀ reading, ¬ held reading) ∧
    (found = .error (.outOfRange id target) ↔ (∃ reading, held reading) ∧
      ((∀ reading, held reading → target < reading.instant) ∨
        ∀ reading, held reading → reading.instant < target)) ∧
    (∀ error, found = .error error → error = .noData id field ∨ error = .outOfRange id target) ∧
    (∀ bracket, found = .ok bracket ↔ (bracket.field = field ∧ bracket.target = target) ∧
      bracket.before.IsLatestUpTo held target ∧ bracket.after.IsEarliestFrom held target) ∧
    (∀ bracket reading, found = .ok bracket → held reading → reading.instant = target →
      bracket.before = reading ∧ bracket.after = reading) ∧
    ∀ bracket, found = .ok bracket → ∃ low high value,
      bracket.before.value? field = some low ∧ bracket.after.value? field = some high ∧
      bracket.interpolate = .ok value ∧ min low high ≤ value ∧ value ≤ max low high ∧
      (target = bracket.before.instant → value = low) ∧
      (target = bracket.after.instant → value = high) := by
  intro engine found held
  let store := ReadingStore.empty.afterAll actions
  have looked : found = store.bracket id target field := perform_find engine id target field
  have carries : held = store.Carries id field := funext fun reading =>
    propext ((ReadingStore.holds_afterAll actions).carries_iff id field reading).symm
  have fails := store.bracket_eq_error_iff id target field
  rw [looked, carries]
  refine ⟨?_, ?_, ?_, store.bracket_eq_ok_iff_tightest id target field, ?_, ?_⟩
  · rw [fails]
    simp
  · rw [fails]
    simp
  · intro error failed
    exact ((fails error).1 failed).imp And.right And.right
  · intro bracket reading came there sits
    obtain ⟨before, after, pair, rfl⟩ := (ReadingStore.bracket_eq_ok_iff ..).1 came
    exact pair.eq_of_instant_eq there sits
  · intro bracket came
    obtain ⟨before, after, pair, rfl⟩ := (ReadingStore.bracket_eq_ok_iff ..).1 came
    obtain ⟨low, lower⟩ := Option.isSome_iff_exists.1 pair.carries_before.2
    obtain ⟨high, upper⟩ := Option.isSome_iff_exists.1 pair.carries_after.2
    obtain ⟨value, between⟩ := Bracket.exists_value_between lower upper pair.around
    exact ⟨low, high, value, lower, upper, between⟩

/-- If the energy readings of a source never fall, its counter at an instant is not above its
counter at a later one. Between two instants that have a counter every instant has one, which lies
between the two. -/
theorem counter_rises (engine : Engine Rat (Database Rat)) {id : SourceId}
    (steady : engine.progress.world.readings.NeverFalls id .cumulativeEnergy)
    {start stop : Instant} {first last : Rat} (le : start ≤ stop) :
    let counter := fun time =>
      (engine.perform Database.serve .none (Bracket.valueAt id time .cumulativeEnergy)).1
    counter start = .ok first → counter stop = .ok last →
      first ≤ last ∧ ∀ time, start ≤ time → time ≤ stop →
        ∃ value, counter time = .ok value ∧ first ≤ value ∧ value ≤ last := by
  intro counter
  have read (time : Instant) :
      counter time = engine.progress.world.readings.valueAt id time .cumulativeEnergy :=
    perform_valueAt engine id time .cumulativeEnergy
  simp only [read]
  intro atStart atStop
  refine ⟨ReadingStore.valueAt_mono steady le atStart atStop, fun time since until_ => ?_⟩
  -- The readings around the two ends are on either side of any instant between them.
  obtain ⟨before, _, pair, _⟩ := (ReadingStore.valueAt_eq_ok_iff ..).1 atStart
  obtain ⟨_, after, pairLater, _⟩ := (ReadingStore.valueAt_eq_ok_iff ..).1 atStop
  obtain ⟨newest, oldest, between⟩ := ReadingStore.exists_brackets pair.carries_before
    pairLater.carries_after (Int.le_trans pair.before_le since)
    (Int.le_trans until_ pairLater.le_after)
  obtain ⟨value, worth⟩ := Bracket.exists_interpolate_eq_ok time between.carries_before.2
    between.carries_after.2
  have came : engine.progress.world.readings.valueAt id time .cumulativeEnergy = .ok value :=
    between.valueAt_eq.trans worth
  exact ⟨value, came, ReadingStore.valueAt_mono steady since atStart came,
    ReadingStore.valueAt_mono steady until_ came atStop⟩

/-- The counter between readings that are half a millisecond apart is the one of the first, and the
counter shortly before a reading is its own already if the whole milliseconds up to it have passed.
Between the two every instant has a counter from nothing to two watt hours. -/
theorem counter_rises_quick :
    let engine := ofReadings [quickReading 0 0, quickReading 500 1, quickReading 2000 2]
    let counter := fun time =>
      (engine.perform Database.serve .none (Bracket.valueAt "meter" time .cumulativeEnergy)).1
    engine.progress.world.readings.NeverFalls "meter" .cumulativeEnergy ∧
      counter (atMicro 250) = .ok 0 ∧ counter (atMicro 1750) = .ok 2 ∧
      ∀ time, atMicro 250 ≤ time → time ≤ atMicro 1750 →
        ∃ value, counter time = .ok value ∧ 0 ≤ value ∧ value ≤ 2 := by
  intro engine counter
  have steady : engine.progress.world.readings.NeverFalls "meter" .cumulativeEnergy :=
    ReadingStore.neverFalls_of_getD (by decide +kernel)
  have atStart : counter (atMicro 250) = .ok 0 := by decide +kernel
  have atStop : counter (atMicro 1750) = .ok 2 := by decide +kernel
  have le : atMicro 250 ≤ atMicro 1750 := by decide
  exact ⟨steady, atStart, atStop, (counter_rises engine steady le atStart atStop).2⟩

end Engine

end Metering
