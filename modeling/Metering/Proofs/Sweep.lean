import Metering.Proofs.Inquiries

/-!
# One scan for many targets

A scan holds the readings from the newest one at or before its target up to the
last one that it asked for, oldest first (`ReadingStore.Spans`). Moving on to a
later target keeps that, and leaves the bracket of the target at the front
(`Spans.advance`, `Spans.atFront_eq_bracket`). So one scan finds what a lookup for
each target finds (`Bracket.findAll_answers_like_find`). The two differ in one
error only: a list is refused at its last target if the readings begin in time
but do not reach that far, whichever target they fail first.
-/

namespace Metering

variable {σ : Type}

namespace ReadingStore

/-- The readings that carry a field from one of them up to another, oldest first. -/
structure Spans (store : ReadingStore σ) (id : SourceId) (field : Field)
    (lower upper : Reading σ) (readings : List (Reading σ)) : Prop where
  /-- Instants strictly increase. -/
  oldestFirst : readings.Pairwise fun older newer => older.instant < newer.instant
  /-- Every reading in between is there, and no other. -/
  mem_iff : ∀ reading, reading ∈ readings ↔
    store.Carries id field reading ∧ lower.instant ≤ reading.instant ∧
      reading.instant ≤ upper.instant

variable {store : ReadingStore σ} {id : SourceId} {field : Field} {lower upper : Reading σ}
  {readings : List (Reading σ)} {target : Instant}

/-- The readings in a closed window between two of them span it. -/
theorem spans_range :
    store.Spans id field lower upper
      (store.range id (.closed lower.instant upper.instant) field) where
  oldestFirst := Timeline.pairwise_within ..
  mem_iff reading := by
    unfold range
    simp only [Timeline.mem_within_iff, Window.closed, Window.contains, Window.admitsStart,
      Window.admitsStop, Bool.and_eq_true, decide_eq_true_eq, Carries, Stamped.instant]
    constructor
    · rintro ⟨member, inside, carries⟩
      exact ⟨⟨member, carries⟩, inside⟩
    · rintro ⟨⟨member, carries⟩, inside⟩
      exact ⟨member, inside, carries⟩

namespace Spans

/-- The first of some readings up to an upper one is the lower one. -/
theorem exists_cons (spans : store.Spans id field lower upper readings)
    (held : store.Carries id field lower) (forwards : lower.instant ≤ upper.instant) :
    ∃ rest, readings = lower :: rest := by
  have member : lower ∈ readings := (spans.mem_iff lower).2 ⟨held, Int.le_refl _, forwards⟩
  cases readings with
  | nil => cases member
  | cons first rest =>
    obtain ⟨carries, least, _⟩ := (spans.mem_iff first).1 List.mem_cons_self
    obtain ⟨ahead, _⟩ := List.pairwise_cons.1 spans.oldestFirst
    rcases List.mem_cons.1 member with same | later
    · exact ⟨rest, by rw [same]⟩
    · exact absurd least (Int.not_le.2 (ahead lower later))

/-- The readings after the lower one start from the next. -/
theorem tail {second : Reading σ} {rest : List (Reading σ)}
    (spans : store.Spans id field lower upper (lower :: second :: rest)) :
    store.Spans id field second upper (second :: rest) := by
  obtain ⟨ahead, ordered⟩ := List.pairwise_cons.1 spans.oldestFirst
  obtain ⟨aheadOfRest, _⟩ := List.pairwise_cons.1 ordered
  have after : lower.instant < second.instant := ahead second List.mem_cons_self
  refine ⟨ordered, fun reading => ⟨fun member => ?_, fun ⟨held, least, most⟩ => ?_⟩⟩
  · obtain ⟨held, _, most⟩ := (spans.mem_iff reading).1 (List.mem_cons_of_mem lower member)
    have least : second.instant ≤ reading.instant := by
      rcases List.mem_cons.1 member with rfl | later
      · exact Int.le_refl _
      · exact Int.le_of_lt (aheadOfRest reading later)
    exact ⟨held, least, most⟩
  · have beyond : lower.instant ≤ reading.instant := by
      simp only [Instant.le_iff, Instant.lt_iff] at *
      omega
    rcases List.mem_cons.1 ((spans.mem_iff reading).2 ⟨held, beyond, most⟩) with rfl | member
    · exact absurd least (Int.not_le.2 after)
    · exact member

/-- The lower reading is the newest one up to a target that all others are past. -/
theorem nearestBefore_eq {rest : List (Reading σ)}
    (spans : store.Spans id field lower upper (lower :: rest)) (low : lower.instant ≤ target)
    (high : target ≤ upper.instant) (past : ∀ reading ∈ rest, target < reading.instant) :
    store.nearestBefore id target field = some lower := by
  obtain ⟨held, _⟩ := (spans.mem_iff lower).1 List.mem_cons_self
  refine (nearestBefore_eq_some_iff ..).2 ⟨held, low, fun other carries le => ?_⟩
  refine Int.not_lt.1 fun newer => ?_
  have inside : other ∈ lower :: rest := (spans.mem_iff other).2
    ⟨carries, Int.le_of_lt newer, Int.le_trans le high⟩
  rcases List.mem_cons.1 inside with rfl | member
  · exact Int.lt_irrefl _ newer
  · exact Int.not_le.2 (past other member) le

/-- Moving on to a target leaves the readings from the newest one up to it. -/
theorem advance (spans : store.Spans id field lower upper readings)
    (held : store.Carries id field lower) (low : lower.instant ≤ target)
    (high : target ≤ upper.instant) :
    ∃ newest, store.nearestBefore id target field = some newest ∧
      store.Spans id field newest upper (Bracket.advance target readings) := by
  induction readings generalizing lower with
  | nil =>
    obtain ⟨_, impossible⟩ := spans.exists_cons held (Int.le_trans low high)
    cases impossible
  | cons first rest ih =>
    obtain ⟨others, same⟩ := spans.exists_cons held (Int.le_trans low high)
    injection same with first_eq rest_eq
    subst first_eq rest_eq
    cases rest with
    | nil =>
      have alone := spans.nearestBefore_eq low high fun reading member => nomatch member
      exact ⟨first, alone, spans⟩
    | cons second rest =>
      by_cases reached : second.instant ≤ target
      · have onward := spans.tail
        obtain ⟨carries, _⟩ := (onward.mem_iff second).1 List.mem_cons_self
        have moved : Bracket.advance target (first :: second :: rest) =
            Bracket.advance target (second :: rest) := if_pos reached
        rw [moved]
        exact ih onward carries reached
      · have stays : Bracket.advance target (first :: second :: rest) = first :: second :: rest :=
          if_neg reached
        obtain ⟨_, ordered⟩ := List.pairwise_cons.1 spans.oldestFirst
        obtain ⟨ahead, _⟩ := List.pairwise_cons.1 ordered
        have past : ∀ reading ∈ second :: rest, target < reading.instant := by
          intro reading member
          rcases List.mem_cons.1 member with rfl | later
          · exact Int.not_le.1 reached
          · exact Int.lt_trans (Int.not_le.1 reached) (ahead reading later)
        rw [stays]
        exact ⟨first, spans.nearestBefore_eq low high past, spans⟩

/-- The bracket of a target is found at the front of the readings from the newest one up to it. -/
theorem atFront_eq_bracket {newest : Reading σ} (spans : store.Spans id field newest upper readings)
    (found : store.nearestBefore id target field = some newest)
    (heldUpper : store.Carries id field upper) (high : target ≤ upper.instant) :
    ∃ bracket, Bracket.atFront id field target readings = .ok bracket ∧
      store.bracket id target field = .ok bracket := by
  obtain ⟨held, low, most⟩ := (nearestBefore_eq_some_iff ..).1 found
  obtain ⟨rest, rfl⟩ := spans.exists_cons held (Int.le_trans low high)
  by_cases sits : newest.instant = target
  · have pair : store.Brackets id field target newest newest :=
      brackets_of_gap held held (Or.inl ⟨rfl, sits⟩) fun other _ => Int.le_total _ _
    refine ⟨.exact field newest, if_pos sits, ?_⟩
    rw [(bracket_eq_ok_iff ..).2 ⟨newest, newest, pair, rfl⟩, Bracket.exact, sits]
  · have before : newest.instant < target :=
      Int.lt_iff_le_and_ne.2 ⟨low, fun equal => sits (Instant.ext equal)⟩
    have ends : upper ∈ newest :: rest := (spans.mem_iff upper).2
      ⟨heldUpper, Int.le_trans low high, Int.le_refl _⟩
    cases rest with
    | nil =>
      obtain rfl := List.mem_singleton.1 ends
      exact absurd high (Int.not_le.2 before)
    | cons after rest =>
      obtain ⟨ahead, ordered⟩ := List.pairwise_cons.1 spans.oldestFirst
      obtain ⟨aheadOfRest, _⟩ := List.pairwise_cons.1 ordered
      have heldAfter := ((spans.mem_iff after).1 (List.mem_cons_of_mem newest List.mem_cons_self)).1
      have past : target < after.instant := by
        refine Int.not_le.1 fun reached => ?_
        exact Int.not_le.2 (ahead after List.mem_cons_self) (most after heldAfter reached)
      have gap : ∀ other, store.Carries id field other →
          other.instant ≤ newest.instant ∨ after.instant ≤ other.instant := by
        intro other carries
        by_cases inside : newest.instant ≤ other.instant ∧ other.instant ≤ upper.instant
        · rcases List.mem_cons.1 ((spans.mem_iff other).2 ⟨carries, inside⟩) with rfl | later
          · exact Or.inl (Int.le_refl _)
          · rcases List.mem_cons.1 later with rfl | later
            · exact Or.inr (Int.le_refl _)
            · exact Or.inr (Int.le_of_lt (aheadOfRest other later))
        · have within := ((spans.mem_iff after).1
            (List.mem_cons_of_mem newest List.mem_cons_self)).2.2
          simp only [Instant.le_iff] at *
          omega
      have pair := brackets_of_gap held heldAfter (Or.inr ⟨before, past⟩) gap
      have front : Bracket.atFront id field target (newest :: after :: rest) =
          .ok ⟨field, newest, after, target⟩ := by
        simp only [Bracket.atFront, if_neg sits]
        exact Bracket.of?_eq_ok low (Int.le_of_lt past)
      exact ⟨_, front, (bracket_eq_ok_iff ..).2 ⟨newest, after, pair, rfl⟩⟩

/-- A scan along targets in order finds the bracket of each of them. -/
theorem sweep_eq (spans : store.Spans id field lower upper readings)
    (held : store.Carries id field lower) (heldUpper : store.Carries id field upper)
    {targets : List Instant} (ordered : targets.Pairwise (· ≤ ·))
    (inside : ∀ target ∈ targets, lower.instant ≤ target ∧ target ≤ upper.instant)
    (found : List (Bracket σ)) :
    ∃ brackets, Bracket.sweep id field found readings targets = .ok (found.reverse ++ brackets) ∧
      targets.mapM (fun target => store.bracket id target field) = .ok brackets := by
  induction targets generalizing lower readings found with
  | nil => exact ⟨[], by rw [List.append_nil]; rfl, rfl⟩
  | cons target rest ih =>
    obtain ⟨later, orderedRest⟩ := List.pairwise_cons.1 ordered
    obtain ⟨low, high⟩ := inside target List.mem_cons_self
    obtain ⟨newest, near, onward⟩ := spans.advance held low high
    obtain ⟨bracket, front, around⟩ := onward.atFront_eq_bracket near heldUpper high
    obtain ⟨carries, reached, _⟩ := (nearestBefore_eq_some_iff ..).1 near
    have insideRest : ∀ next ∈ rest, newest.instant ≤ next ∧ next ≤ upper.instant :=
      fun next member => ⟨Int.le_trans reached (later next member),
        (inside next (List.mem_cons_of_mem target member)).2⟩
    obtain ⟨brackets, swept, each⟩ :=
      ih onward carries orderedRest insideRest (bracket :: found)
    refine ⟨bracket :: brackets, ?_, ?_⟩
    · simp only [Bracket.sweep, front, swept, List.reverse_cons, List.append_assoc,
        List.singleton_append]
    · rw [List.mapM_cons, around, Except.ok_bind, each]
      rfl

end Spans

/-- A store that holds a reading has an oldest one. -/
theorem isSome_nearestAfter_first {reading : Reading σ} (held : store.Carries id field reading) :
    (store.nearestAfter id Instant.first field).isSome := by
  cases oldest : store.nearestAfter id Instant.first field with
  | some found => rfl
  | none =>
    have nowhere := (nearestAfter_eq_none_iff ..).1 oldest reading held
    exact absurd reading.instant.first_le nowhere

/-- A target that no reading is before has no bracket, and its error tells whether there is any
reading at all. -/
theorem bracket_eq_error_of_nearestBefore (early : store.nearestBefore id target field = none) :
    store.bracket id target field =
      .error (if (store.nearestAfter id Instant.first field).isSome then .outOfRange id target
        else .noData id field) := by
  unfold bracket
  rw [early]
  cases upper : store.nearestAfter id target field with
  | some after =>
    have held := ((nearestAfter_eq_some_iff ..).1 upper).1
    rw [if_pos (isSome_nearestAfter_first held)]
  | none =>
    have nothing : store.nearestAfter id Instant.first field = none := by
      refine (nearestAfter_eq_none_iff ..).2 fun other held _ => ?_
      rcases Int.le_total other.instant.nanos target.nanos with low | high
      · exact (nearestBefore_eq_none_iff ..).1 early other held low
      · exact (nearestAfter_eq_none_iff ..).1 upper other held high
    rw [nothing]
    rfl

/-- A target that a reading is before and none is after is out of range. -/
theorem bracket_eq_error_of_nearestAfter {reading : Reading σ}
    (held : store.Carries id field reading) (low : reading.instant ≤ target)
    (late : store.nearestAfter id target field = none) :
    store.bracket id target field = .error (.outOfRange id target) := by
  unfold bracket
  rw [late]
  cases lower : store.nearestBefore id target field with
  | some before => rfl
  | none => exact absurd low ((nearestBefore_eq_none_iff ..).1 lower reading held)

end ReadingStore

/-- An engine over some readings of the hourly meter. -/
def Engine.ofReadings (readings : List (Reading Rat)) : Engine Rat (Database Rat) :=
  .new .standard ⟨⟨Registry.empty.insert "meter" (.ofList readings)⟩, hourlyCatalog⟩ (atMinute 1440)

namespace Bracket

/-- Instants that never decrease are in order. -/
theorem pairwise_of_inOrder {targets : List Instant} (ordered : inOrder targets) :
    targets.Pairwise (· ≤ ·) := by
  induction targets with
  | nil => exact .nil
  | cons first rest ih =>
    cases rest with
    | nil => exact List.pairwise_singleton ..
    | cons second rest =>
      simp only [inOrder, Bool.and_eq_true, decide_eq_true_eq] at ordered
      obtain ⟨le, orderedRest⟩ := ordered
      have pairs := ih orderedRest
      refine List.pairwise_cons.2 ⟨fun later member => ?_, pairs⟩
      rcases List.mem_cons.1 member with rfl | member
      · exact le
      · exact Int.le_trans le ((List.pairwise_cons.1 pairs).1 later member)

/-- The last of some instants that never decrease is the latest one. -/
theorem le_of_getLast? {targets : List Instant} {last : Instant}
    (ordered : targets.Pairwise (· ≤ ·)) (ends : targets.getLast? = some last) :
    ∀ target ∈ targets, target ≤ last := by
  obtain ⟨earlier, rfl⟩ := List.getLast?_eq_some_iff.1 ends
  obtain ⟨_, _, before⟩ := List.pairwise_append.1 ordered
  intro target member
  rcases List.mem_append.1 member with early | sole
  · exact before target early last (List.mem_singleton.2 rfl)
  · rw [List.mem_singleton.1 sole]
    exact Int.le_refl _

/-- Targets have a first and a last one if there are any. -/
theorem exists_ends {targets : List Instant} (any : targets ≠ []) :
    ∃ first last, targets.head? = some first ∧ targets.getLast? = some last :=
  ⟨targets.head any, targets.getLast any, List.head?_eq_some_head any,
    List.getLast?_eq_some_getLast any⟩

variable (database : Database σ) (id : SourceId) (field : Field)

/-- A target on a side of which there is no reading is out of range, unless there are no readings
at all. -/
theorem result_missing (target : Instant) :
    (missing id target field).result database =
      .ok (if (database.readings.nearestAfter id Instant.first field).isSome then
        .outOfRange id target else .noData id field) := by
  have oldest : (Attempt.nearestAfter id Instant.first field).result database =
      .ok (database.readings.nearestAfter id Instant.first field) := rfl
  unfold missing
  rw [Attempt.result_bind, oldest, Except.ok_bind]
  cases database.readings.nearestAfter id Instant.first field <;> rfl

/-- What a list of targets in order comes to. It fails with its first target if no reading is at or
before that, fails with its last target if the readings begin in time but do not reach that, and
finds the bracket of each target if they do. -/
theorem findAll_cases {first last : Instant} {targets : List Instant}
    (ordered : inOrder targets) (begins : targets.head? = some first)
    (ends : targets.getLast? = some last) :
    (database.readings.nearestBefore id first field = none ∧
        ∃ error, database.readings.bracket id first field = .error error ∧
          (findAll id targets field).result database = .error error) ∨
      ((∃ lowest, database.readings.nearestBefore id first field = some lowest) ∧
        database.readings.nearestAfter id last field = none ∧
        database.readings.bracket id last field = .error (.outOfRange id last) ∧
          (findAll id targets field).result database = .error (.outOfRange id last)) ∨
      ∃ brackets, (findAll id targets field).result database = .ok brackets ∧
        targets.mapM (fun target => database.readings.bracket id target field) = .ok brackets := by
  have pairs := pairwise_of_inOrder ordered
  have before : (Attempt.nearestBefore id first field).result database =
      .ok (database.readings.nearestBefore id first field) := rfl
  have after : (Attempt.nearestAfter id last field).result database =
      .ok (database.readings.nearestAfter id last field) := rfl
  have scan (window : Window) : (Attempt.range id window field).result database =
      .ok (database.readings.range id window field) := rfl
  obtain ⟨rest, rfl⟩ : ∃ rest, targets = first :: rest := List.head?_eq_some_iff.1 begins
  obtain ⟨later, _⟩ := List.pairwise_cons.1 pairs
  unfold findAll
  simp only [begins, ends, ordered, Bool.not_true, Bool.false_eq_true, if_false,
    Attempt.result_bind, before, Except.ok_bind]
  cases lower : database.readings.nearestBefore id first field with
  | none =>
    have refused := ReadingStore.bracket_eq_error_of_nearestBefore lower
    refine Or.inl ⟨rfl, _, refused, ?_⟩
    rw [Attempt.result_bind, result_missing, Except.ok_bind, Attempt.result_throw]
  | some lowest =>
    obtain ⟨held, low, _⟩ := (ReadingStore.nearestBefore_eq_some_iff ..).1 lower
    simp only [Attempt.result_bind, after, Except.ok_bind]
    cases upper : database.readings.nearestAfter id last field with
    | none =>
      have oldest := ReadingStore.isSome_nearestAfter_first held
      have reached : first ≤ last := le_of_getLast? pairs ends first List.mem_cons_self
      have refused := ReadingStore.bracket_eq_error_of_nearestAfter held
        (Int.le_trans low reached) upper
      refine Or.inr (Or.inl ⟨⟨lowest, rfl⟩, rfl, refused, ?_⟩)
      rw [Attempt.result_bind, result_missing, Except.ok_bind, if_pos oldest,
        Attempt.result_throw]
    | some highest =>
      obtain ⟨heldUpper, high, _⟩ := (ReadingStore.nearestAfter_eq_some_iff ..).1 upper
      have inside : ∀ target ∈ first :: rest,
          lowest.instant ≤ target ∧ target ≤ highest.instant := by
        intro target member
        have least : first ≤ target := by
          rcases List.mem_cons.1 member with rfl | member
          · exact Int.le_refl _
          · exact later target member
        have most : target ≤ last := le_of_getLast? pairs ends target member
        exact ⟨Int.le_trans low least, Int.le_trans most high⟩
      have forwards : lowest.instant ≤ highest.instant :=
        Int.le_trans (inside first List.mem_cons_self).1 (inside first List.mem_cons_self).2
      have spans : database.readings.Spans id field lowest highest
          (database.readings.range id (.closed lowest.instant highest.instant) field) :=
        ReadingStore.spans_range
      obtain ⟨others, same⟩ := spans.exists_cons held forwards
      obtain ⟨brackets, swept, each⟩ := spans.sweep_eq held heldUpper pairs inside []
      refine Or.inr (Or.inr ⟨brackets, ?_, each⟩)
      rw [Attempt.result_bind, scan, Except.ok_bind]
      simp only [same, List.isEmpty_cons, Bool.false_eq_true, if_false] at swept ⊢
      rw [Attempt.result_ofExcept, swept, List.reverse_nil, List.nil_append]

/-- A list of targets in order has the brackets that lookups for its targets find. -/
theorem result_findAll_eq_ok_iff {targets : List Instant} (ordered : inOrder targets)
    (brackets : List (Bracket σ)) :
    (findAll id targets field).result database = .ok brackets ↔
      targets.map (fun target => database.readings.bracket id target field) =
        brackets.map .ok := by
  rw [← Except.mapM_eq_ok_iff]
  have fails : ∀ target ∈ targets, ∀ error,
      database.readings.bracket id target field = .error error →
        targets.mapM (fun target => database.readings.bracket id target field) ≠
          .ok brackets := by
    intro target member error refused came
    obtain ⟨bracket, found⟩ := Except.exists_mapM_eq_ok_iff.1 ⟨brackets, came⟩ target member
    rw [refused] at found
    cases found
  by_cases nothing : targets = []
  · rw [nothing]
    exact Iff.rfl
  · obtain ⟨first, last, begins, ends⟩ := exists_ends nothing
    rcases findAll_cases database id field ordered begins ends with
      ⟨_, refusal, refused, failed⟩ | ⟨_, _, refused, failed⟩ | ⟨others, found, each⟩
    · have impossible := fails first (List.mem_of_head? begins) refusal refused
      simp only [failed, impossible, reduceCtorEq]
    · have impossible := fails last (List.mem_of_getLast? ends) _ refused
      simp only [failed, impossible, reduceCtorEq]
    · rw [found, each]

/-- A list of targets in order that comes to an error comes to the one of its first target if no
reading is at or before that, and to the one of its last target if there is such a reading. -/
theorem bracket_eq_error_of_findAll {targets : List Instant} (ordered : inOrder targets)
    {error : QueryError} (failed : (findAll id targets field).result database = .error error) :
    ∃ first last, targets.head? = some first ∧ targets.getLast? = some last ∧
      ((∀ reading, database.readings.Carries id field reading → first < reading.instant) ∧
          database.readings.bracket id first field = .error error ∨
        (∃ reading, database.readings.Carries id field reading ∧ reading.instant ≤ first) ∧
          database.readings.bracket id last field = .error error) := by
  by_cases nothing : targets = []
  · subst nothing
    cases failed
  · obtain ⟨first, last, begins, ends⟩ := exists_ends nothing
    refine ⟨first, last, begins, ends, ?_⟩
    rcases findAll_cases database id field ordered begins ends with
      ⟨early, refusal, refused, came⟩ | ⟨⟨lowest, lower⟩, _, refused, came⟩ | ⟨others, found, _⟩
    · have late := (ReadingStore.nearestBefore_eq_none_iff ..).1 early
      obtain rfl : refusal = error := Except.error.inj (came.symm.trans failed)
      exact Or.inl ⟨fun reading held => Int.not_le.1 (late reading held), refused⟩
    · obtain ⟨held, low, _⟩ := (ReadingStore.nearestBefore_eq_some_iff ..).1 lower
      obtain rfl : QueryError.outOfRange id last = error :=
        Except.error.inj (came.symm.trans failed)
      exact Or.inr ⟨⟨lowest, held, low⟩, refused⟩
    · rw [found] at failed
      cases failed

/-- One scan for targets in order finds the brackets that lookups for the targets find, and it
finds them exactly if every lookup finds one. If it fails, its error is the one of the lookup for
the first target if no reading is at or before that, and the one of the lookup for the last target
if there is such a reading. -/
theorem findAll_answers_like_find (engine : Engine σ (Database σ)) (id : SourceId) (field : Field)
    {targets : List Instant} (ordered : inOrder targets) :
    let each := fun target => (engine.perform Database.serve .none (find id target field)).1
    let list := (engine.perform Database.serve .none (findAll id targets field)).1
    ((∃ brackets, list = .ok brackets) ↔ ∀ target ∈ targets, ∃ bracket, each target = .ok bracket) ∧
      (∀ brackets, list = .ok brackets → targets.map each = brackets.map .ok) ∧
      ∀ error, list = .error error → ∃ first last,
        targets.head? = some first ∧ targets.getLast? = some last ∧
          ((∀ reading, engine.progress.world.readings.Carries id field reading →
              first < reading.instant) ∧ each first = .error error ∨
            (∃ reading, engine.progress.world.readings.Carries id field reading ∧
              reading.instant ≤ first) ∧ each last = .error error) := by
  have nothing : Limits.none.check engine.progress.elapsed = none := rfl
  have lookup (target : Instant) :
      (engine.perform Database.serve .none (find id target field)).1 =
        engine.progress.world.readings.bracket id target field := by
    rw [Engine.perform_eq nothing (uses_find id target field), result_find]
  have scan : (engine.perform Database.serve .none (findAll id targets field)).1 =
      (findAll id targets field).result engine.progress.world := by
    rw [Engine.perform_eq nothing (uses_findAll id targets field)]
  simp only [lookup, scan]
  have found := result_findAll_eq_ok_iff engine.progress.world id field ordered
  refine ⟨?_, fun brackets => (found brackets).1, fun error failed =>
    bracket_eq_error_of_findAll engine.progress.world id field ordered failed⟩
  simp only [found, ← Except.mapM_eq_ok_iff]
  exact Except.exists_mapM_eq_ok_iff

/-- Targets on readings, twice in one gap and on the last reading are found by one scan, so each of
them is found by a lookup. -/
theorem findAll_answers_like_find_hourly :
    let engine := Engine.ofReadings [hourlyReading 0 0, hourlyReading 60 3, hourlyReading 180 6]
    let targets := [atMinute 0, atMinute 75, atMinute 75, atMinute 180]
    let found := (engine.perform Database.serve .none
      (findAll "meter" targets .cumulativeEnergy)).1
    inOrder targets ∧
      found.map (List.map fun bracket => (bracket.before.instant, bracket.after.instant)) =
        .ok [(atMinute 0, atMinute 0), (atMinute 60, atMinute 180), (atMinute 60, atMinute 180),
          (atMinute 180, atMinute 180)] ∧
      ∀ target ∈ targets, ∃ bracket, (engine.perform Database.serve .none
        (find "meter" target .cumulativeEnergy)).1 = .ok bracket := by
  intro engine targets found
  have ordered : inOrder targets := by decide
  have outcome : found.map (List.map fun bracket =>
      (bracket.before.instant, bracket.after.instant)) =
        .ok [(atMinute 0, atMinute 0), (atMinute 60, atMinute 180), (atMinute 60, atMinute 180),
          (atMinute 180, atMinute 180)] := by decide +kernel
  have succeeds : ∃ brackets, found = .ok brackets := by
    cases came : found with
    | ok brackets => exact ⟨brackets, rfl⟩
    | error error =>
      rw [came] at outcome
      cases outcome
  exact ⟨ordered, outcome,
    (findAll_answers_like_find engine "meter" .cumulativeEnergy ordered).1.1 succeeds⟩

/-- With a single reading before both of two targets, the lookup for the first target is out of
range there, but the scan is out of range at the last. -/
theorem findAll_fails_at_last :
    let engine := Engine.ofReadings [hourlyReading 0 0]
    inOrder [atMinute 5, atMinute 10] ∧
      (engine.perform Database.serve .none (find "meter" (atMinute 5) .cumulativeEnergy)).1 =
        .error (.outOfRange "meter" (atMinute 5)) ∧
      (engine.perform Database.serve .none
        (findAll "meter" [atMinute 5, atMinute 10] .cumulativeEnergy)).1 =
          .error (.outOfRange "meter" (atMinute 10)) ∧
      QueryError.outOfRange "meter" (atMinute 10) ≠ .outOfRange "meter" (atMinute 5) :=
  ⟨by decide, rfl, rfl, by decide⟩

end Bracket

end Metering
