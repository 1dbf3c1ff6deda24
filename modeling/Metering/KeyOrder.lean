/-!
# Lists in the order of a key

Items are kept in a list in the order of their keys, at most one for each key.
An item is added in its place, which is that of the one with its key if there is
one. Which order it is, and what of an item is its key, is a parameter, so that
entries by source and entries by time are kept in one way.
-/

namespace Metering

/-- An order in which items are kept by a key. -/
structure KeyOrder (α κ : Type) where
  /-- The key of an item. -/
  key : α → κ
  /-- Whether a key comes before another. -/
  before : κ → κ → Prop
  /-- Whether a key comes before another can be decided. -/
  decidable : DecidableRel before
  /-- No key comes before itself. -/
  irrefl : ∀ key, ¬ before key key
  /-- What comes before a key comes before what that one comes before. -/
  trans : ∀ {first second third}, before first second → before second third → before first third
  /-- Of two keys one comes before the other. -/
  connected : ∀ {left right}, left ≠ right → before left right ∨ before right left

namespace KeyOrder

variable {α κ : Type}

instance (order : KeyOrder α κ) : DecidableRel order.before := order.decidable

/-- Items each of which has a key before those of the items after it. -/
def IsOrdered (order : KeyOrder α κ) (items : List α) : Prop :=
  items.Pairwise fun earlier later => order.before (order.key earlier) (order.key later)

/-- Adds an item to a list in order, in the place of one with its key. -/
@[specialize] def place [DecidableEq κ] (order : KeyOrder α κ) (item : α) : List α → List α
  | [] => [item]
  | first :: rest =>
    if order.before (order.key item) (order.key first) then
      item :: first :: rest
    else if order.key first = order.key item then
      item :: rest
    else
      first :: place order item rest

variable (order : KeyOrder α κ) {item other : α} {items : List α}

/-! ## Keys in order -/

/-- What comes before a key is not that key. -/
theorem ne_of_before {left right : κ} (before : order.before left right) : left ≠ right := by
  rintro rfl
  exact order.irrefl left before

/-- Items in order with one key are one item. -/
theorem eq_of_key_eq (ordered : order.IsOrdered items) (member : item ∈ items)
    (memberOther : other ∈ items) (same : order.key item = order.key other) : item = other := by
  induction items with
  | nil => cases member
  | cons first rest ih =>
    obtain ⟨ahead, orderedRest⟩ := List.pairwise_cons.1 ordered
    rcases List.mem_cons.1 member with rfl | later <;>
      rcases List.mem_cons.1 memberOther with rfl | laterOther
    · rfl
    · exact absurd same (order.ne_of_before (ahead other laterOther))
    · exact absurd same.symm (order.ne_of_before (ahead item later))
    · exact ih orderedRest later laterOther

variable [DecidableEq κ]

/-- A key is before another, the same or after it. -/
theorem before_or_eq_or_after (left right : κ) :
    order.before left right ∨ left = right ∨ order.before right left := by
  by_cases same : left = right
  · exact Or.inr (Or.inl same)
  · exact (order.connected same).imp_right Or.inr

/-! ## What placing an item does -/

/-- An item that is placed in a list comes first in it if it comes before the first one there. -/
theorem place_cons_of_before {first : α} {rest : List α}
    (before : order.before (order.key item) (order.key first)) :
    order.place item (first :: rest) = item :: first :: rest := if_pos before

/-- An item that is placed in a list takes the place of the first one there if that has its key. -/
theorem place_cons_of_eq {first : α} {rest : List α} (same : order.key first = order.key item) :
    order.place item (first :: rest) = item :: rest := by
  have notBefore : ¬ order.before (order.key item) (order.key first) :=
    same ▸ order.irrefl (order.key first)
  unfold place
  rw [if_neg notBefore, if_pos same]

/-- An item that is placed in a list is placed in the rest of it if the first one there comes before
it. -/
theorem place_cons_of_after {first : α} {rest : List α}
    (after : order.before (order.key first) (order.key item)) :
    order.place item (first :: rest) = first :: order.place item rest := by
  have notBefore : ¬ order.before (order.key item) (order.key first) := fun before =>
    order.irrefl _ (order.trans after before)
  rw [place, if_neg notBefore, if_neg (order.ne_of_before after)]

/-- Placing an item in a list in order keeps every item but one with its key. -/
theorem mem_place_iff (ordered : order.IsOrdered items) :
    other ∈ order.place item items ↔
      other = item ∨ other ∈ items ∧ order.key other ≠ order.key item := by
  induction items with
  | nil => simp [place]
  | cons first rest ih =>
    obtain ⟨ahead, orderedRest⟩ := List.pairwise_cons.1 ordered
    rcases order.before_or_eq_or_after (order.key item) (order.key first) with
      before | same | after
    · rw [order.place_cons_of_before before, List.mem_cons]
      refine or_congr_right ⟨fun member => ⟨member, ?_⟩, And.left⟩
      rcases List.mem_cons.1 member with rfl | later
      · exact (order.ne_of_before before).symm
      · exact (order.ne_of_before (order.trans before (ahead other later))).symm
    · rw [order.place_cons_of_eq same.symm, List.mem_cons, List.mem_cons]
      refine or_congr_right ⟨fun later => ⟨Or.inr later, ?_⟩, ?_⟩
      · exact same ▸ (order.ne_of_before (ahead other later)).symm
      · rintro ⟨rfl | later, apart⟩
        · exact absurd same.symm apart
        · exact later
    · rw [order.place_cons_of_after after, List.mem_cons, ih orderedRest, List.mem_cons]
      constructor
      · rintro (rfl | rfl | ⟨later, apart⟩)
        · exact Or.inr ⟨Or.inl rfl, order.ne_of_before after⟩
        · exact Or.inl rfl
        · exact Or.inr ⟨Or.inr later, apart⟩
      · rintro (rfl | ⟨rfl | later, apart⟩)
        · exact Or.inr (Or.inl rfl)
        · exact Or.inl rfl
        · exact Or.inr (Or.inr ⟨later, apart⟩)

/-- Placing an item keeps a list in order. -/
theorem isOrdered_place (item : α) (ordered : order.IsOrdered items) :
    order.IsOrdered (order.place item items) := by
  induction items with
  | nil => exact List.pairwise_singleton ..
  | cons first rest ih =>
    obtain ⟨ahead, orderedRest⟩ := List.pairwise_cons.1 ordered
    rcases order.before_or_eq_or_after (order.key item) (order.key first) with
      before | same | after
    · rw [order.place_cons_of_before before]
      refine List.pairwise_cons.2 ⟨fun later member => ?_, ordered⟩
      rcases List.mem_cons.1 member with rfl | member
      · exact before
      · exact order.trans before (ahead later member)
    · rw [order.place_cons_of_eq same.symm]
      exact List.pairwise_cons.2 ⟨fun later member => same ▸ ahead later member, orderedRest⟩
    · rw [order.place_cons_of_after after]
      refine List.pairwise_cons.2 ⟨fun later member => ?_, ih orderedRest⟩
      rcases (order.mem_place_iff orderedRest).1 member with rfl | ⟨member, _⟩
      · exact after
      · exact ahead later member

/-- An item that comes after all others is placed at the end. -/
theorem place_of_after
    (last : ∀ earlier ∈ items, order.before (order.key earlier) (order.key item)) :
    order.place item items = items ++ [item] := by
  induction items with
  | nil => rfl
  | cons first rest ih =>
    obtain ⟨after, lastOfRest⟩ := List.forall_mem_cons.1 last
    rw [order.place_cons_of_after after, ih lastOfRest]
    rfl

/-- What comes before all items of a list is the key of none of them. -/
theorem filter_ne_of_before {key : κ}
    (ahead : ∀ later ∈ items, order.before key (order.key later)) :
    (items.filter fun other => order.key other ≠ key) = items :=
  List.filter_eq_self.2 fun later member =>
    decide_eq_true (order.ne_of_before (ahead later member)).symm

/-- An item that is placed in a list in order is there beside those with other keys. -/
theorem perm_place (item : α) (ordered : order.IsOrdered items) :
    (order.place item items).Perm
      (item :: items.filter fun other => order.key other ≠ order.key item) := by
  induction items with
  | nil => exact List.Perm.refl _
  | cons first rest ih =>
    obtain ⟨ahead, orderedRest⟩ := List.pairwise_cons.1 ordered
    rcases order.before_or_eq_or_after (order.key item) (order.key first) with
      before | same | after
    · rw [order.place_cons_of_before before, order.filter_ne_of_before fun later member => ?_]
      rcases List.mem_cons.1 member with rfl | member
      · exact before
      · exact order.trans before (ahead later member)
    · rw [order.place_cons_of_eq same.symm, same, List.filter_cons_of_neg (by simp),
        order.filter_ne_of_before ahead]
    · rw [order.place_cons_of_after after,
        List.filter_cons_of_pos (by simpa using order.ne_of_before after)]
      exact ((ih orderedRest).cons first).trans (List.Perm.swap ..)

/-! ## What is found under a key -/

/-- The item that is found under a key is the one with that key. -/
theorem find?_eq_some_iff (ordered : order.IsOrdered items) (key : κ) :
    (items.find? fun found => order.key found = key) = some item ↔
      item ∈ items ∧ order.key item = key := by
  constructor
  · intro found
    exact ⟨List.mem_of_find?_eq_some found, by simpa using List.find?_some found⟩
  · rintro ⟨member, rfl⟩
    cases found : items.find? fun found => order.key found = order.key item with
    | none => exact absurd (List.find?_eq_none.1 found item member) (by simp)
    | some other =>
      have same : order.key other = order.key item := by simpa using List.find?_some found
      rw [order.eq_of_key_eq ordered (List.mem_of_find?_eq_some found) member same]

/-- What is found under a key in a list in which an item was placed. -/
theorem find?_place (item : α) (key : κ) (items : List α) :
    ((order.place item items).find? fun found => order.key found = key) =
      if order.key item = key then some item
      else items.find? fun found => order.key found = key := by
  induction items with
  | nil => by_cases same : order.key item = key <;> simp [place, same]
  | cons first rest ih =>
    rcases order.before_or_eq_or_after (order.key item) (order.key first) with
      before | replaced | after
    · rw [order.place_cons_of_before before]
      by_cases same : order.key item = key <;> simp [same]
    · rw [order.place_cons_of_eq replaced.symm]
      by_cases same : order.key item = key <;> simp [← replaced, same]
    · rw [order.place_cons_of_after after]
      by_cases same : order.key item = key
      · have apart : order.key first ≠ key := same ▸ order.ne_of_before after
        simpa [apart, same] using ih
      · by_cases found : order.key first = key <;> simp [ih, same, found]

end KeyOrder

end Metering
