import Metering.Field
import Metering.KeyOrder

/-!
# Registries

A registry keeps one entry per source, in the order of the ids. Ids compare
character by character, which for text is also the order of its encoding.
-/

namespace Metering

/-- Entries by source, in the order of the ids. -/
structure Registry (β : Type) where
  /-- Ids with their entries. -/
  entries : List (SourceId × β)
  /-- Ids strictly increase. -/
  ordered : entries.Pairwise fun earlier later => earlier.1 < later.1

namespace Registry

variable {β : Type}

/-- The order in which a registry keeps its entries. -/
def byId : KeyOrder (SourceId × β) SourceId where
  key := Prod.fst
  before earlier later := earlier < later
  decidable := inferInstance
  irrefl := String.lt_irrefl
  trans := String.lt_trans
  connected {left right} differ := by
    by_cases less : left < right
    · exact Or.inl less
    · exact Or.inr (Std.lt_of_le_of_ne (Std.not_lt.1 less) differ.symm)

/-- The registry without entries. -/
def empty : Registry β := ⟨[], List.Pairwise.nil⟩

instance : Inhabited (Registry β) := ⟨empty⟩

/-- The number of entries. -/
def size (registry : Registry β) : Nat := registry.entries.length

/-- The entry of a source. -/
def get? (registry : Registry β) (id : SourceId) : Option β :=
  (registry.entries.find? fun pair => pair.1 = id).map Prod.snd

/-- Gives a source an entry, in the place of the one it has. -/
def insert (registry : Registry β) (id : SourceId) (entry : β) : Registry β :=
  ⟨byId.place (id, entry) registry.entries, byId.isOrdered_place (id, entry) registry.ordered⟩

/-- Removes the entry of a source, if it has one. -/
def erase (registry : Registry β) (id : SourceId) : Registry β :=
  ⟨registry.entries.filter fun pair => pair.1 ≠ id, registry.ordered.filter _⟩

/-- The entries in the order of their ids. -/
def values (registry : Registry β) : List β := registry.entries.map Prod.snd

/-! ## What operations do to lookups -/

/-- What a registry holds is what is found under its id. -/
theorem mem_entries_iff (registry : Registry β) (id : SourceId) (entry : β) :
    (id, entry) ∈ registry.entries ↔ registry.get? id = some entry := by
  have found : ∀ pair : SourceId × β,
      (registry.entries.find? fun pair => pair.1 = id) = some pair ↔
        pair ∈ registry.entries ∧ pair.1 = id :=
    fun _ => byId.find?_eq_some_iff registry.ordered id
  unfold get?
  simp only [Option.map_eq_some_iff, found]
  constructor
  · exact fun member => ⟨(id, entry), ⟨member, rfl⟩, rfl⟩
  · rintro ⟨⟨_, _⟩, ⟨member, rfl⟩, rfl⟩
    exact member

/-- An insertion changes what is found for its own id and nothing else. -/
@[simp] theorem get?_insert (registry : Registry β) (id other : SourceId) (entry : β) :
    (registry.insert id entry).get? other =
      if id = other then some entry else registry.get? other := by
  have placed : ((byId.place (id, entry) registry.entries).find? fun pair => pair.1 = other) =
      if id = other then some (id, entry) else registry.entries.find? fun pair => pair.1 = other :=
    byId.find?_place (id, entry) other registry.entries
  unfold get? insert
  rw [placed]
  by_cases same : id = other <;> simp [same]

/-- An erasure removes what is found for its own id and nothing else. -/
@[simp] theorem get?_erase (registry : Registry β) (id other : SourceId) :
    (registry.erase id).get? other = if id = other then none else registry.get? other := by
  by_cases same : id = other
  · subst same
    simp [get?, erase, List.find?_filter]
  · simp only [get?, erase, List.find?_filter, same, if_false]
    congr 2
    funext pair
    by_cases found : pair.1 = other
    · simp [found, Ne.symm same]
    · simp [found]

end Registry

end Metering
