import Metering.Proofs.Readings

/-!
# What a store holds after a history

Readings are inserted one by one and removed a source at a time. A list of
readings tells what that leaves: an inserted reading goes on the list unless one
of its source and instant is there, and a removal takes the readings of its
source off. A store holds exactly what is on the list, source by source
(`ReadingStore.holds_afterAll`).
-/

namespace Metering

variable {σ : Type}

/-- What changes the readings that are stored. -/
inductive StoreAction (σ : Type) where
  /-- Adds a reading. -/
  | insert (reading : Reading σ)
  /-- Removes every reading of a source. -/
  | removeSource (id : SourceId)

namespace StoreAction

/-- The readings that are left when an action is done. -/
def leaves (kept : List (Reading σ)) : StoreAction σ → List (Reading σ)
  | insert reading =>
    if ∃ other ∈ kept, other.source = reading.source ∧ other.instant = reading.instant then kept
    else reading :: kept
  | removeSource id => kept.filter fun reading => reading.source ≠ id

/-- The readings that are left when actions are done one after another, beginning with none. -/
def leftBy (actions : List (StoreAction σ)) : List (Reading σ) := actions.foldl leaves []

end StoreAction

namespace ReadingStore

/-- The store after an action, which is the store as it was if the action is refused. -/
def after (store : ReadingStore σ) : StoreAction σ → ReadingStore σ
  | .insert reading =>
    match store.insert reading with
    | .ok later => later
    | .error _ => store
  | .removeSource id => store.removeSource id

/-- The store after actions one after another. -/
def afterAll (store : ReadingStore σ) (actions : List (StoreAction σ)) : ReadingStore σ :=
  actions.foldl after store

/-- A store holds the readings of a list, each under its own source. -/
def Holds (store : ReadingStore σ) (readings : List (Reading σ)) : Prop :=
  ∀ id reading, reading ∈ (store.timeline id).entries ↔ reading ∈ readings ∧ reading.source = id

variable {store : ReadingStore σ} {readings : List (Reading σ)}

/-- What carries a field in a store is what carries it on the list. -/
theorem Holds.carries_iff (holds : store.Holds readings) (id : SourceId) (field : Field)
    (reading : Reading σ) :
    store.Carries id field reading ↔
      reading ∈ readings ∧ reading.source = id ∧ reading.carries field := by
  unfold Carries
  rw [holds, and_assoc]

/-- A store has a reading of a source at an instant exactly if there is one on the list. -/
theorem Holds.isSome_at?_iff (holds : store.Holds readings) (id : SourceId) (time : Instant) :
    ((store.timeline id).at? time).isSome ↔
      ∃ other ∈ readings, other.source = id ∧ other.instant = time := by
  rw [Option.isSome_iff_exists]
  simp only [Timeline.at?_eq_some_iff, holds id, and_assoc]
  rfl

/-- No reading of a source is left after its removal, and the others stay. -/
theorem mem_timeline_removeSource (store : ReadingStore σ) (removed id : SourceId)
    (reading : Reading σ) :
    reading ∈ ((store.removeSource removed).timeline id).entries ↔
      reading ∈ (store.timeline id).entries ∧ removed ≠ id := by
  unfold removeSource timeline
  rw [Registry.get?_erase]
  by_cases same : removed = id
  · simp [same, Timeline.empty]
  · simp [same]

/-- The store of no readings holds none. -/
theorem holds_empty : (empty : ReadingStore σ).Holds [] := fun _ _ => by
  simp only [List.not_mem_nil, false_and, iff_false]
  exact List.not_mem_nil

/-- An action leaves a store with what it leaves of the list. -/
theorem Holds.after (holds : store.Holds readings) (action : StoreAction σ) :
    (store.after action).Holds (action.leaves readings) := by
  cases action with
  | insert reading =>
    have taken := holds.isSome_at?_iff reading.source reading.instant
    unfold ReadingStore.after StoreAction.leaves
    dsimp only
    cases inserted : store.insert reading with
    | error error =>
      have there := ((insert_eq_error_iff ..).1 inserted).1
      rw [if_pos (taken.1 there)]
      exact holds
    | ok later =>
      have free : ¬ ∃ other ∈ readings,
          other.source = reading.source ∧ other.instant = reading.instant := by
        intro there
        have refused := (insert_eq_error_iff ..).2 ⟨taken.2 there, rfl⟩
        rw [inserted] at refused
        cases refused
      rw [if_neg free]
      intro id other
      rw [mem_timeline_of_insert inserted, holds id, List.mem_cons]
      constructor
      · rintro (⟨member, own⟩ | ⟨own, rfl⟩)
        · exact ⟨Or.inr member, own⟩
        · exact ⟨Or.inl rfl, own⟩
      · rintro ⟨rfl | member, own⟩
        · exact Or.inr ⟨own, rfl⟩
        · exact Or.inl ⟨member, own⟩
  | removeSource removed =>
    intro id reading
    change reading ∈ ((store.removeSource removed).timeline id).entries ↔
      reading ∈ readings.filter (fun reading => reading.source ≠ removed) ∧ reading.source = id
    rw [mem_timeline_removeSource, holds id, List.mem_filter, decide_eq_true_eq]
    constructor
    · rintro ⟨⟨member, rfl⟩, apart⟩
      exact ⟨⟨member, Ne.symm apart⟩, rfl⟩
    · rintro ⟨⟨member, apart⟩, rfl⟩
      exact ⟨⟨member, rfl⟩, Ne.symm apart⟩

/-- Actions one after another leave a store with what they leave of the list. -/
theorem Holds.afterAll (holds : store.Holds readings) (actions : List (StoreAction σ)) :
    (store.afterAll actions).Holds (actions.foldl StoreAction.leaves readings) := by
  induction actions generalizing store readings with
  | nil => exact holds
  | cons action rest ih => exact ih (holds.after action)

/-- After any history a store holds what the history leaves. -/
theorem holds_afterAll (actions : List (StoreAction σ)) :
    (afterAll empty actions).Holds (StoreAction.leftBy actions) :=
  holds_empty.afterAll actions

end ReadingStore

end Metering
