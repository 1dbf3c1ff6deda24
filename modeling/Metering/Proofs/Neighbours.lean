import Metering.Proofs.Readings

/-!
# The neighbours of a new reading

A new reading splits the gap between its neighbours. Inside the part of the gap
that has settled, the counter worked out from the reading and its neighbours is
the one that the store gives with the reading in it
(`exists_brackets_of_contains`). A pair of readings that the new one splits and
that had settled has its instant inside that part (`contains_of_split`), so no
other instant with a settled pair around it gets another counter.
-/

namespace Metering

/-- What is older than a window stays so later on, and so is what is earlier. -/
theorem Instant.lt_since_of_le {window : Span} {now later time earlier : Instant}
    (old : window < now.since time) (le : now ≤ later) (back : earlier ≤ time) :
    window < later.since earlier := by
  change window.nanos < now.nanos - time.nanos at old
  change window.nanos < later.nanos - earlier.nanos
  rw [Instant.le_iff] at le back
  omega

namespace Bracket

variable {σ : Type}

/-- A bracket of readings on their own sides of a target is not refused. -/
theorem of?_eq_ok {field : Field} {before after : Reading σ} {time : Instant}
    (low : before.instant ≤ time) (high : time ≤ after.instant) :
    of? field before after time = .ok ⟨field, before, after, time⟩ := by
  have inside : ¬ (time < before.instant ∨ after.instant < time) := by
    simp only [Instant.le_iff, Instant.lt_iff] at *
    omega
  exact if_neg inside

variable [Scalar σ]

/-- The value of a bracket of readings that carry its field. -/
theorem interpolate_eq_ok {field : Field} {before after : Reading σ} {low high : σ}
    (time : Instant) (lower : before.value? field = some low)
    (upper : after.value? field = some high) :
    interpolate ⟨field, before, after, time⟩ =
      .ok (if before.instant = after.instant ∨ time = before.instant then low
        else if time = after.instant then high
        else line before.instant low after.instant high time) := by
  unfold interpolate endpoint isExact
  simp only [lower, upper, decide_eq_true_eq]
  change (if _ then _ else _) = _
  split
  · rfl
  · change (if _ then _ else _) = _
    split <;> rfl

/-- A bracket of readings that carry its field has a value. -/
theorem exists_interpolate_eq_ok {field : Field} {before after : Reading σ} (time : Instant)
    (first : before.carries field) (second : after.carries field) :
    ∃ value, interpolate ⟨field, before, after, time⟩ = .ok value := by
  obtain ⟨low, lower⟩ := Option.isSome_iff_exists.1 first
  obtain ⟨high, upper⟩ := Option.isSome_iff_exists.1 second
  exact ⟨_, interpolate_eq_ok time lower upper⟩

end Bracket

namespace ReadingStore

variable {σ : Type}

/-- A reading with the energy readings of a source on either side of it. -/
def around (store : ReadingStore σ) (id : SourceId) (reading : Reading σ) : Neighbours σ where
  previous := reading.instant.justBefore?.bind fun time =>
    store.nearestBefore id time .cumulativeEnergy
  reading := reading
  following := reading.instant.justAfter?.bind fun time =>
    store.nearestAfter id time .cumulativeEnergy

variable {store later : ReadingStore σ} {id : SourceId} {reading : Reading σ}

/-- The reading between the neighbours is the one that they were looked for around. -/
@[simp] theorem around_reading : (store.around id reading).reading = reading := rfl

/-- The reading before another is the newest one of those before it. -/
theorem previous_around_eq_some_iff (previous : Reading σ) :
    (store.around id reading).previous = some previous ↔
      store.Carries id .cumulativeEnergy previous ∧ previous.instant < reading.instant ∧
        ∀ other, store.Carries id .cumulativeEnergy other → other.instant < reading.instant →
          other.instant ≤ previous.instant := by
  unfold around
  simp only [Option.bind_eq_some_iff, nearestBefore_eq_some_iff, Instant.justBefore?,
    Instant.shift?_eq_some_iff, Instant.le_iff, Instant.lt_iff]
  constructor
  · rintro ⟨time, just, held, least, newest⟩
    refine ⟨held, by omega, fun other found less => newest other found (by omega)⟩
  · rintro ⟨held, less, newest⟩
    have inside : Instant.firstNanos ≤ reading.instant.nanos - 1 := by
      have := previous.instant.first_le
      omega
    have upper := reading.instant.le_last
    refine ⟨⟨reading.instant.nanos - 1, inside, by omega⟩, ?_, held, ?_, ?_⟩
    · change reading.instant.nanos - 1 = reading.instant.nanos + -1
      omega
    · change previous.instant.nanos ≤ reading.instant.nanos - 1
      omega
    · intro other found least
      change other.instant.nanos ≤ reading.instant.nanos - 1 at least
      exact newest other found (by omega)

/-- The reading after another is the oldest one of those after it. -/
theorem following_around_eq_some_iff (following : Reading σ) :
    (store.around id reading).following = some following ↔
      store.Carries id .cumulativeEnergy following ∧ reading.instant < following.instant ∧
        ∀ other, store.Carries id .cumulativeEnergy other → reading.instant < other.instant →
          following.instant ≤ other.instant := by
  unfold around
  simp only [Option.bind_eq_some_iff, nearestAfter_eq_some_iff, Instant.justAfter?,
    Instant.shift?_eq_some_iff, Instant.le_iff, Instant.lt_iff]
  constructor
  · rintro ⟨time, just, held, most, oldest⟩
    refine ⟨held, by omega, fun other found more => oldest other found (by omega)⟩
  · rintro ⟨held, more, oldest⟩
    have inside : reading.instant.nanos + 1 ≤ Instant.lastNanos := by
      have := following.instant.le_last
      omega
    have lower := reading.instant.first_le
    refine ⟨⟨reading.instant.nanos + 1, by omega, inside⟩, rfl, held, ?_, ?_⟩
    · change reading.instant.nanos + 1 ≤ following.instant.nanos
      omega
    · intro other found most
      change reading.instant.nanos + 1 ≤ other.instant.nanos at most
      exact oldest other found (by omega)

/-- A reading without one before it is the oldest. -/
theorem le_of_previous_around_eq_none (nowhere : (store.around id reading).previous = none)
    {other : Reading σ} (held : store.Carries id .cumulativeEnergy other) :
    reading.instant ≤ other.instant := by
  unfold around at nowhere
  simp only [Option.bind_eq_none_iff, nearestBefore_eq_none_iff, Instant.justBefore?,
    Instant.shift?_eq_some_iff] at nowhere
  refine Int.not_lt.1 fun less => ?_
  have inside : Instant.firstNanos ≤ reading.instant.nanos - 1 := by
    have := other.instant.first_le
    omega
  have upper := reading.instant.le_last
  refine nowhere ⟨reading.instant.nanos - 1, inside, by omega⟩ rfl other held ?_
  change other.instant.nanos ≤ reading.instant.nanos - 1
  omega

/-- A reading without one after it is the newest. -/
theorem le_of_following_around_eq_none (nowhere : (store.around id reading).following = none)
    {other : Reading σ} (held : store.Carries id .cumulativeEnergy other) :
    other.instant ≤ reading.instant := by
  unfold around at nowhere
  simp only [Option.bind_eq_none_iff, nearestAfter_eq_none_iff, Instant.justAfter?,
    Instant.shift?_eq_some_iff] at nowhere
  refine Int.not_lt.1 fun more => ?_
  have inside : reading.instant.nanos + 1 ≤ Instant.lastNanos := by
    have := other.instant.le_last
    omega
  have lower := reading.instant.first_le
  refine nowhere ⟨reading.instant.nanos + 1, by omega, inside⟩ rfl other held ?_
  change reading.instant.nanos + 1 ≤ other.instant.nanos
  omega

/-- A reading has the same neighbours before and after it was stored. -/
theorem around_of_insert (inserted : store.insert reading = .ok later) :
    later.around id reading = store.around id reading := by
  have carries := carries_of_insert inserted id .cumulativeEnergy
  have before : (later.around id reading).previous = (store.around id reading).previous := by
    refine Option.ext fun previous => ?_
    rw [previous_around_eq_some_iff, previous_around_eq_some_iff]
    simp only [carries, Instant.lt_iff, Instant.le_iff]
    grind
  have after : (later.around id reading).following = (store.around id reading).following := by
    refine Option.ext fun following => ?_
    rw [following_around_eq_some_iff, following_around_eq_some_iff]
    simp only [carries, Instant.lt_iff, Instant.le_iff]
    grind
  unfold around at *
  simp only at before after
  rw [before, after]

end ReadingStore

namespace CheckpointCache

variable {σ : Type}

/-- A lookup over a store in memory finds the neighbours of a reading. -/
theorem result_neighboursOf (database : Database σ) (id : SourceId) (reading : Reading σ) :
    (neighboursOf id reading).result database = .ok (database.readings.around id reading) := by
  unfold neighboursOf ReadingStore.around
  cases reading.instant.justBefore? with
  | none => cases reading.instant.justAfter? <;> rfl
  | some before => cases reading.instant.justAfter? <;> rfl

/-- Looking up the neighbours of a reading counts nothing. -/
theorem events_neighboursOf (database : Database σ) (id : SourceId) (reading : Reading σ) :
    (neighboursOf id reading).events database = [] := by
  unfold neighboursOf
  cases reading.instant.justBefore? with
  | none => cases reading.instant.justAfter? <;> rfl
  | some before => cases reading.instant.justAfter? <;> rfl

end CheckpointCache

/-! ## The settled part of a gap -/

namespace Neighbours

variable {σ : Type} [Scalar σ] {neighbours : Neighbours σ} {time : Instant}

/-- The counter before a reading is on the line from the reading before it. -/
theorem counterAt_of_lt {previous : Reading σ} (found : neighbours.previous = some previous)
    (low : previous.instant < time) (high : time < neighbours.reading.instant) :
    neighbours.counterAt time =
      Bracket.interpolate ⟨.cumulativeEnergy, previous, neighbours.reading, time⟩ := by
  have different : time ≠ neighbours.reading.instant := Instant.ne_of_lt high
  unfold counterAt
  simp only [found, if_neg different, if_pos high]
  rw [Bracket.of?_eq_ok (Int.le_of_lt low) (Int.le_of_lt high)]
  rfl

/-- The counter after a reading is on the line to the reading after it. -/
theorem counterAt_of_gt {following : Reading σ} (found : neighbours.following = some following)
    (low : neighbours.reading.instant < time) (high : time < following.instant) :
    neighbours.counterAt time =
      Bracket.interpolate ⟨.cumulativeEnergy, neighbours.reading, following, time⟩ := by
  have different : time ≠ neighbours.reading.instant := (Instant.ne_of_lt low).symm
  have notLess : ¬ time < neighbours.reading.instant := Int.not_lt.2 (Int.le_of_lt low)
  unfold counterAt
  simp only [found, if_neg different, if_neg notLess]
  rw [Bracket.of?_eq_ok (Int.le_of_lt low) (Int.le_of_lt high)]
  rfl

/-- The counter at a reading is its own. -/
theorem counterAt_instant :
    neighbours.counterAt neighbours.reading.instant = Bracket.interpolate ⟨.cumulativeEnergy,
      neighbours.reading, neighbours.reading, neighbours.reading.instant⟩ := by
  unfold counterAt
  simp only [if_true]
  rfl

omit [Scalar σ] in
/-- An instant in the settled part of a gap is between the reading before and the new one, at the
new one, or between the new one and a reading after it that has settled. -/
theorem cases_of_contains {window : Span} {now : Instant}
    (inside : (neighbours.settledWindow window now).contains time) :
    (∃ previous, neighbours.previous = some previous ∧
        previous.instant < time ∧ time < neighbours.reading.instant) ∨
      time = neighbours.reading.instant ∨
      ∃ following, neighbours.following = some following ∧
        neighbours.reading.instant < time ∧ time < following.instant ∧
        window < now.since following.instant := by
  simp only [Window.contains, Bool.and_eq_true, settledWindow] at inside
  obtain ⟨start, stop⟩ := inside
  rcases Int.lt_trichotomy time.nanos neighbours.reading.instant.nanos with low | equal | high
  · cases before : neighbours.previous with
    | none =>
      simp only [before, Window.admitsStart, decide_eq_true_eq] at start
      exact absurd low (Int.not_lt.2 start)
    | some previous =>
      simp only [before, Window.admitsStart, decide_eq_true_eq] at start
      exact Or.inl ⟨previous, rfl, start, low⟩
  · exact Or.inr (Or.inl (Instant.ext equal))
  · cases after : neighbours.following with
    | none =>
      simp only [after, Window.admitsStop, decide_eq_true_eq] at stop
      exact absurd high (Int.not_lt.2 stop)
    | some following =>
      by_cases old : window < now.since following.instant
      · simp only [after, if_pos old, Window.admitsStop, decide_eq_true_eq] at stop
        exact Or.inr (Or.inr ⟨following, rfl, high, stop, old⟩)
      · simp only [after, if_neg old, Window.admitsStop, decide_eq_true_eq] at stop
        exact absurd high (Int.not_lt.2 stop)

end Neighbours

namespace ReadingStore

variable {σ : Type} [Scalar σ] {store later : ReadingStore σ} {id : SourceId}
  {reading : Reading σ} {window : Span} {now time : Instant}

/-- Where the gap that a reading splits has settled, the counter worked out from its neighbours is
the one read off the pair of readings around the instant once the reading is stored, and the second
of the pair is older than the window. -/
theorem exists_brackets_of_contains (inserted : store.insert reading = .ok later)
    (own : reading.source = id) (carries : reading.carries .cumulativeEnergy)
    (settled : window < now.since reading.instant)
    (inside : ((store.around id reading).settledWindow window now).contains time) :
    ∃ before after, later.Brackets id .cumulativeEnergy time before after ∧
      (store.around id reading).counterAt time =
        Bracket.interpolate ⟨.cumulativeEnergy, before, after, time⟩ ∧
      window < now.since after.instant := by
  have held : later.Carries id .cumulativeEnergy reading :=
    (carries_of_insert inserted ..).2 (Or.inr ⟨own, carries, rfl⟩)
  rw [← around_of_insert inserted] at inside ⊢
  rcases Neighbours.cases_of_contains inside with
    ⟨previous, found, low, high⟩ | sits | ⟨following, found, low, high, old⟩
  · obtain ⟨first, less, newest⟩ := (previous_around_eq_some_iff previous).1 found
    refine ⟨previous, reading, brackets_of_gap first held (Or.inr ⟨low, high⟩) ?_,
      Neighbours.counterAt_of_lt found low high, settled⟩
    intro other carried
    have bound := newest other carried
    simp only [Instant.le_iff, Instant.lt_iff] at *
    omega
  · subst sits
    exact ⟨reading, reading, brackets_of_gap held held (Or.inl ⟨rfl, rfl⟩) fun other _ =>
      Int.le_total other.instant.nanos reading.instant.nanos, Neighbours.counterAt_instant, settled⟩
  · obtain ⟨second, more, oldest⟩ := (following_around_eq_some_iff following).1 found
    refine ⟨reading, following, brackets_of_gap held second (Or.inr ⟨low, high⟩) ?_,
      Neighbours.counterAt_of_gt found low high, old⟩
    intro other carried
    have bound := oldest other carried
    simp only [Instant.le_iff, Instant.lt_iff] at *
    omega

omit [Scalar σ] in
/-- A pair of readings that a new reading falls between is the pair of its neighbours. -/
theorem around_of_split {before after : Reading σ}
    (brackets : store.Brackets id .cumulativeEnergy time before after)
    (low : before.instant < reading.instant) (high : reading.instant < after.instant) :
    (store.around id reading).previous = some before ∧
      (store.around id reading).following = some after := by
  have gap := brackets.gap
  rw [previous_around_eq_some_iff, following_around_eq_some_iff]
  simp only [Instant.le_iff, Instant.lt_iff] at *
  refine ⟨⟨brackets.carries_before, low, fun other held less => ?_⟩,
    brackets.carries_after, high, fun other held more => ?_⟩
  · have apart := gap other held
    omega
  · have apart := gap other held
    omega

omit [Scalar σ] in
/-- An instant whose pair of readings has settled and is split by a new reading lies in the settled
part of the gap. -/
theorem contains_of_split {before after : Reading σ}
    (brackets : store.Brackets id .cumulativeEnergy time before after)
    (settled : window < now.since after.instant)
    (low : before.instant < reading.instant) (high : reading.instant < after.instant) :
    ((store.around id reading).settledWindow window now).contains time := by
  obtain ⟨previous, following⟩ := around_of_split brackets low high
  have strict : before.instant < time ∧ time < after.instant := by
    rcases brackets.around with ⟨rfl, _⟩ | inside
    · exact absurd (Int.lt_trans low high) (Int.lt_irrefl _)
    · exact inside
  simp only [Window.contains, Neighbours.settledWindow, previous, following, if_pos settled,
    Window.admitsStart, Window.admitsStop, Bool.and_eq_true, decide_eq_true_eq]
  exact strict

omit [Scalar σ] in
/-- An instant lies in the settled part of the gap that a stored reading splits if the reading is
one of the pair around it and the pair has settled. -/
theorem contains_of_end {before after : Reading σ}
    (brackets : store.Brackets id .cumulativeEnergy time before after)
    (settled : window < now.since after.instant) (ends : reading = before ∨ reading = after) :
    ((store.around id reading).settledWindow window now).contains time := by
  have sits : reading.instant.nanos = before.instant.nanos ∨
      reading.instant.nanos = after.instant.nanos := by
    rcases ends with rfl | rfl
    · exact Or.inl rfl
    · exact Or.inr rfl
  have inside : before.instant.nanos = time.nanos ∧ after.instant.nanos = time.nanos ∨
      before.instant.nanos < time.nanos ∧ time.nanos < after.instant.nanos := by
    rcases brackets.around with ⟨rfl, rfl⟩ | strict
    · exact Or.inl ⟨rfl, rfl⟩
    · exact Or.inr strict
  simp only [Window.contains, Neighbours.settledWindow, Bool.and_eq_true]
  constructor
  · cases found : (store.around id reading).previous with
    | none =>
      have first := le_of_previous_around_eq_none found brackets.carries_before
      simp only [Window.admitsStart, around_reading, decide_eq_true_eq, Instant.le_iff] at *
      omega
    | some previous =>
      obtain ⟨held, less, _⟩ := (previous_around_eq_some_iff previous).1 found
      have apart := brackets.gap previous held
      simp only [Window.admitsStart, decide_eq_true_eq, Instant.le_iff, Instant.lt_iff] at *
      omega
  · cases found : (store.around id reading).following with
    | none =>
      have last := le_of_following_around_eq_none found brackets.carries_after
      simp only [Window.admitsStop, around_reading, decide_eq_true_eq, Instant.le_iff] at *
      omega
    | some following =>
      obtain ⟨held, more, oldest⟩ := (following_around_eq_some_iff following).1 found
      have apart := brackets.gap following held
      by_cases old : window < now.since following.instant
      · simp only [if_pos old, Window.admitsStop, decide_eq_true_eq, Instant.le_iff,
          Instant.lt_iff] at *
        omega
      · have least := oldest after brackets.carries_after
        have beyond : ¬ following.instant ≤ after.instant := fun le =>
          old (Instant.lt_since_of_le settled (Int.le_refl _) le)
        simp only [if_neg old, Window.admitsStop, around_reading, decide_eq_true_eq,
          Instant.le_iff, Instant.lt_iff] at *
        omega

omit [Scalar σ] in
/-- The pair around an instant was the same before a reading was stored unless the instant lies in
the settled part of the gap that the reading splits. -/
theorem Brackets.of_insert {before after : Reading σ}
    (brackets : later.Brackets id .cumulativeEnergy time before after)
    (inserted : store.insert reading = .ok later) (settled : window < now.since after.instant)
    (outside : ¬ ((store.around id reading).settledWindow window now).contains time) :
    store.Brackets id .cumulativeEnergy time before after := by
  have stored : ∀ other, later.Carries id .cumulativeEnergy other →
      other = before ∨ other = after → store.Carries id .cumulativeEnergy other := by
    intro other held ends
    rcases (carries_of_insert inserted ..).1 held with there | ⟨_, _, rfl⟩
    · exact there
    · rw [← around_of_insert inserted] at outside
      exact absurd (contains_of_end brackets settled ends) outside
  refine brackets_of_gap (stored _ brackets.carries_before (Or.inl rfl))
    (stored _ brackets.carries_after (Or.inr rfl)) brackets.around fun other held => ?_
  exact brackets.gap other ((carries_of_insert inserted ..).2 (Or.inl held))

end ReadingStore

end Metering
