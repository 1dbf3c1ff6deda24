import Metering.Timeline

/-!
# Timelines taken together

Two timelines are put together, or one is taken out of the other, by one walk
along both, and the entries at many instants are found by one walk as well.
Each operation is told by the entries it leaves (`mem_between`, `mem_union`,
`mem_difference`) or by what it finds (`atEach_eq_map`).
-/

namespace Metering

open Stamped (instant)

instance : Stamped Instant := ⟨id⟩

namespace Timeline

/-! ## Walking along entries in order -/

section Walk

variable {α : Type}

/-- Walking along a list as long as a condition holds is filtering, if the condition holds before
wherever it holds. -/
theorem takeWhile_eq_filter {keep : α → Bool} {entries : List α}
    (closed : entries.Pairwise fun first second => keep second → keep first) :
    entries.takeWhile keep = entries.filter keep := by
  induction entries with
  | nil => rfl
  | cons first rest ih =>
    obtain ⟨before, closed⟩ := List.pairwise_cons.1 closed
    cases kept : keep first with
    | true => simp [kept, ih closed]
    | false =>
      have none : rest.filter keep = [] := by
        refine List.filter_eq_nil_iff.2 fun found member holds => ?_
        simp [before found member holds] at kept
      simp [kept, none]

/-- Dropping from a list as long as a condition holds is filtering by its contrary, if the condition
holds before wherever it holds. -/
theorem dropWhile_eq_filter {drop : α → Bool} {entries : List α}
    (closed : entries.Pairwise fun first second => drop second → drop first) :
    entries.dropWhile drop = entries.filter fun entry => !drop entry := by
  induction entries with
  | nil => rfl
  | cons first rest ih =>
    obtain ⟨before, closed⟩ := List.pairwise_cons.1 closed
    cases dropped : drop first with
    | true => simp [dropped, ih closed]
    | false =>
      have all : (rest.filter fun entry => !drop entry) = rest := by
        refine List.filter_eq_self.2 fun found member => ?_
        cases holds : drop found with
        | true => simp [before found member holds] at dropped
        | false => rfl
      simp [dropped, all]

end Walk

variable {α β : Type} [Stamped α] [Stamped β]

/-- The entries after an instant are the first ones of a list that is newest first. -/
theorem mem_takeWhile_after {entries : List α} (sorted : NewestFirst entries) (time : Instant)
    (entry : α) :
    (entry ∈ entries.takeWhile fun entry => decide (time < instant entry)) ↔
      entry ∈ entries ∧ time < instant entry := by
  rw [takeWhile_eq_filter (sorted.imp fun {newer older} apart => ?_)]
  · simp
  · simp only [decide_eq_true_eq]
    exact fun after => Int.lt_trans after apart

/-- The entries from an instant on are the first ones of a list that is newest first. -/
theorem mem_takeWhile_from {entries : List α} (sorted : NewestFirst entries) (time : Instant)
    (entry : α) :
    (entry ∈ entries.takeWhile fun entry => decide (time ≤ instant entry)) ↔
      entry ∈ entries ∧ time ≤ instant entry := by
  rw [takeWhile_eq_filter (sorted.imp fun {newer older} apart => ?_)]
  · simp
  · simp only [decide_eq_true_eq]
    exact fun after => Int.le_trans after (Int.le_of_lt apart)

/-- The entries up to an instant are what is left of a list that is newest first. -/
theorem mem_dropWhile_after {entries : List α} (sorted : NewestFirst entries) (time : Instant)
    (entry : α) :
    (entry ∈ entries.dropWhile fun entry => decide (time < instant entry)) ↔
      entry ∈ entries ∧ instant entry ≤ time := by
  rw [dropWhile_eq_filter (sorted.imp fun {newer older} apart => ?_)]
  · simp only [List.mem_filter, Bool.not_eq_true', decide_eq_false_iff_not]
    exact and_congr_right fun _ => Int.not_lt
  · simp only [decide_eq_true_eq]
    exact fun after => Int.lt_trans after apart

/-- The entries before an instant are what is left of a list that is newest first. -/
theorem mem_dropWhile_from {entries : List α} (sorted : NewestFirst entries) (time : Instant)
    (entry : α) :
    (entry ∈ entries.dropWhile fun entry => decide (time ≤ instant entry)) ↔
      entry ∈ entries ∧ instant entry < time := by
  rw [dropWhile_eq_filter (sorted.imp fun {newer older} apart => ?_)]
  · simp only [List.mem_filter, Bool.not_eq_true', decide_eq_false_iff_not]
    exact and_congr_right fun _ => Int.not_le
  · simp only [decide_eq_true_eq]
    exact fun after => Int.le_trans after (Int.le_of_lt apart)

/-! ## Stretches -/

/-- The entries from one instant to another. -/
def between (timeline : Timeline α) (low high : Instant) : Timeline α :=
  ⟨(timeline.entries.dropWhile fun entry => high < instant entry).takeWhile
      fun entry => low ≤ instant entry,
    timeline.newestFirst.sublist
      ((List.takeWhile_sublist _).trans (List.dropWhile_sublist _))⟩

/-- What lies between two instants. -/
theorem mem_between (timeline : Timeline α) (low high : Instant) (entry : α) :
    entry ∈ (timeline.between low high).entries ↔
      entry ∈ timeline.entries ∧ low ≤ instant entry ∧ instant entry ≤ high := by
  have sorted := timeline.newestFirst.sublist
    (List.dropWhile_sublist fun entry => decide (high < instant entry))
  rw [between, mem_takeWhile_from sorted, mem_dropWhile_after timeline.newestFirst, and_assoc,
    and_comm (a := instant entry ≤ high)]

/-! ## Putting together -/

/-- The entries of two lists that are newest first, those of the first in the place of those of the
second at their instants. -/
def combine : List α → List α → List α
  | [], base => base
  | first :: rest, base =>
    (base.takeWhile fun entry => instant first < instant entry) ++
      first :: combine rest (base.dropWhile fun entry => instant first ≤ instant entry)

/-- What two lists hold together. -/
theorem mem_combine {entries base : List α} (sorted : NewestFirst entries)
    (baseSorted : NewestFirst base) (entry : α) :
    entry ∈ combine entries base ↔
      entry ∈ entries ∨ entry ∈ base ∧ ∀ other ∈ entries, instant other ≠ instant entry := by
  induction entries generalizing base with
  | nil => simp [combine]
  | cons first rest ih =>
    obtain ⟨above, below⟩ := List.pairwise_cons.1 sorted
    have restSorted := baseSorted.sublist
      (List.dropWhile_sublist fun entry => decide (instant first ≤ instant entry))
    simp only [combine, List.mem_append, List.mem_cons, ih below restSorted,
      mem_takeWhile_after baseSorted, mem_dropWhile_from baseSorted, forall_eq_or_imp]
    constructor
    · rintro (⟨member, later⟩ | same | member | ⟨⟨member, earlier⟩, apart⟩)
      · refine Or.inr ⟨member, fun equal => ?_, fun other found equal => ?_⟩
        · exact Int.ne_of_lt later (congrArg Instant.nanos equal)
        · exact Int.ne_of_lt (Int.lt_trans (above other found) later)
            (congrArg Instant.nanos equal)
      · exact Or.inl (Or.inl same)
      · exact Or.inl (Or.inr member)
      · exact Or.inr ⟨member,
          fun equal => Int.ne_of_lt earlier (congrArg Instant.nanos equal).symm, apart⟩
    · rintro ((same | member) | ⟨member, different, apart⟩)
      · exact Or.inr (Or.inl same)
      · exact Or.inr (Or.inr (Or.inl member))
      · rcases Int.lt_trichotomy (instant first).nanos (instant entry).nanos with
          later | equal | earlier
        · exact Or.inl ⟨member, later⟩
        · exact absurd (Instant.ext equal) different
        · exact Or.inr (Or.inr (Or.inr ⟨⟨member, earlier⟩, apart⟩))

/-- Two lists that are newest first are so together. -/
theorem newestFirst_combine {entries base : List α} (sorted : NewestFirst entries)
    (baseSorted : NewestFirst base) : NewestFirst (combine entries base) := by
  induction entries generalizing base with
  | nil => exact baseSorted
  | cons first rest ih =>
    obtain ⟨above, below⟩ := List.pairwise_cons.1 sorted
    have restSorted := baseSorted.sublist
      (List.dropWhile_sublist fun entry => decide (instant first ≤ instant entry))
    have under : ∀ entry ∈ combine rest
        (base.dropWhile fun entry => decide (instant first ≤ instant entry)),
        instant entry < instant first := by
      intro entry member
      rcases (mem_combine below restSorted entry).1 member with member | ⟨member, _⟩
      · exact above entry member
      · exact ((mem_dropWhile_from baseSorted _ entry).1 member).2
    refine List.pairwise_append.2 ⟨baseSorted.sublist (List.takeWhile_sublist _),
      List.pairwise_cons.2 ⟨under, ih below restSorted⟩, fun newer found older member => ?_⟩
    have later := ((mem_takeWhile_after baseSorted _ newer).1 found).2
    rcases List.mem_cons.1 member with rfl | member
    · exact later
    · exact Int.lt_trans (under older member) later

/-- The entries of two timelines, those of the first in the place of those of the second at their
instants. -/
def union (timeline base : Timeline α) : Timeline α :=
  ⟨combine timeline.entries base.entries,
    newestFirst_combine timeline.newestFirst base.newestFirst⟩

/-- What two timelines hold together. -/
theorem mem_union (timeline base : Timeline α) (entry : α) :
    entry ∈ (timeline.union base).entries ↔ entry ∈ timeline.entries ∨
      entry ∈ base.entries ∧ ∀ other ∈ timeline.entries, instant other ≠ instant entry :=
  mem_combine timeline.newestFirst base.newestFirst entry

/-! ## Taking out -/

/-- The entries of a list at whose instants another has none, both newest first. -/
def subtract : List α → List β → List α
  | entries, [] => entries
  | [], _ :: _ => []
  | newest :: older, first :: rest =>
    let others := (first :: rest).dropWhile fun other => instant newest < instant other
    if others.head?.any fun other => instant other = instant newest then
      subtract older others
    else
      newest :: subtract older others

/-- Taking out leaves entries in their order. -/
theorem subtract_sublist (entries : List α) (others : List β) :
    (subtract entries others).Sublist entries := by
  induction entries generalizing others with
  | nil => cases others <;> exact List.Sublist.refl _
  | cons newest older ih =>
    cases others with
    | nil => exact List.Sublist.refl _
    | cons first rest =>
      simp only [subtract]
      split
      · exact (ih _).cons _
      · exact (ih _).cons_cons _

/-- What taking out leaves. -/
theorem mem_subtract {entries : List α} {others : List β} (sorted : NewestFirst entries)
    (othersSorted : NewestFirst others) (entry : α) :
    entry ∈ subtract entries others ↔
      entry ∈ entries ∧ ∀ other ∈ others, instant other ≠ instant entry := by
  induction entries generalizing others with
  | nil => cases others <;> simp [subtract]
  | cons newest older ih =>
    cases others with
    | nil => simp [subtract]
    | cons first rest =>
      obtain ⟨above, below⟩ := List.pairwise_cons.1 sorted
      have aheadSorted := othersSorted.sublist
        (List.dropWhile_sublist fun other => decide (instant newest < instant other))
      have ahead := mem_dropWhile_after othersSorted (instant newest)
      have reaches : ∀ entry : α, (instant entry).nanos ≤ (instant newest).nanos →
          ((∀ other ∈ (first :: rest).dropWhile fun other : β =>
              decide (instant newest < instant other), instant other ≠ instant entry) ↔
            ∀ other ∈ first :: rest, instant other ≠ instant entry) := by
        intro entry least
        constructor
        · intro apart other member equal
          have least : instant other ≤ instant newest := equal ▸ least
          exact apart other ((ahead other).2 ⟨member, least⟩) equal
        · exact fun apart other member => apart other ((ahead other).1 member).1
      simp only [subtract]
      generalize (first :: rest).dropWhile (fun other =>
        decide (instant newest < instant other)) = others at *
      have met : (others.head?.any fun other => decide (instant other = instant newest)) = true ↔
          ¬ ∀ other ∈ others, instant other ≠ instant newest := by
        cases others with
        | nil => simp
        | cons next further =>
          obtain ⟨nextAbove, _⟩ := List.pairwise_cons.1 aheadSorted
          simp only [List.head?_cons, Option.any_some, decide_eq_true_eq, List.forall_mem_cons]
          constructor
          · exact fun equal apart => apart.1 equal
          · intro some
            refine Classical.byContradiction fun different => some ⟨different, ?_⟩
            intro other member equal
            have high := ((ahead next).1 List.mem_cons_self).2
            have low := nextAbove other member
            rw [equal] at low
            exact absurd (Int.lt_of_lt_of_le low high) (Int.lt_irrefl _)
      split
      · rename_i found
        rw [ih below aheadSorted, List.mem_cons]
        constructor
        · rintro ⟨member, apart⟩
          exact ⟨Or.inr member, (reaches entry (Int.le_of_lt (above entry member))).1 apart⟩
        · rintro ⟨rfl | member, apart⟩
          · exact absurd ((reaches entry (Int.le_refl _)).2 apart) (met.1 found)
          · exact ⟨member, (reaches entry (Int.le_of_lt (above entry member))).2 apart⟩
      · rename_i missed
        rw [List.mem_cons, ih below aheadSorted, List.mem_cons]
        constructor
        · rintro (rfl | ⟨member, apart⟩)
          · exact ⟨Or.inl rfl, (reaches entry (Int.le_refl _)).1
              (Classical.byContradiction fun apart => missed (met.2 apart))⟩
          · exact ⟨Or.inr member, (reaches entry (Int.le_of_lt (above entry member))).1 apart⟩
        · rintro ⟨rfl | member, apart⟩
          · exact Or.inl rfl
          · exact Or.inr ⟨member, (reaches entry (Int.le_of_lt (above entry member))).2 apart⟩

/-- The entries at whose instants another timeline has none. -/
def difference (timeline : Timeline α) (others : Timeline β) : Timeline α :=
  ⟨subtract timeline.entries others.entries,
    timeline.newestFirst.sublist (subtract_sublist _ _)⟩

/-- What is left where another timeline has no entry. -/
theorem mem_difference (timeline : Timeline α) (others : Timeline β) (entry : α) :
    entry ∈ (timeline.difference others).entries ↔
      entry ∈ timeline.entries ∧ ∀ other ∈ others.entries, instant other ≠ instant entry :=
  mem_subtract timeline.newestFirst others.newestFirst entry

/-! ## Looking up many instants -/

/-- The entries at instants that never decrease, along entries that are oldest first. -/
def pickUp : List α → List Instant → List (Option α)
  | _, [] => []
  | entries, time :: rest =>
    let ahead := entries.dropWhile fun entry => instant entry < time
    (ahead.head?.filter fun entry => instant entry = time) :: pickUp ahead rest

/-- The entries at instants that never decrease. -/
def atEach (timeline : Timeline α) (times : List Instant) : List (Option α) :=
  match times with
  | [] => []
  | first :: _ =>
    pickUp (timeline.entries.takeWhile fun entry => first ≤ instant entry).reverse times

/-- Nothing at an instant is lost with the entries before an instant that is no later. -/
theorem find?_dropWhile_before (entries : List α) {time later : Instant} (le : time ≤ later) :
    (entries.dropWhile fun entry => decide (instant entry < time)).find?
        (fun entry => decide (instant entry = later)) =
      entries.find? fun entry => decide (instant entry = later) := by
  induction entries with
  | nil => rfl
  | cons first rest ih =>
    by_cases before : instant first < time
    · have different : instant first ≠ later :=
        Instant.ne_of_lt (Int.lt_of_lt_of_le before le)
      simp [before, different, ih]
    · simp [before]

/-- The first entry that is not before an instant is the one at it, if there is one. -/
theorem filter_head?_dropWhile {entries : List α}
    (sorted : entries.Pairwise fun older newer => instant older < instant newer)
    (time : Instant) :
    ((entries.dropWhile fun entry => decide (instant entry < time)).head?.filter
        fun entry => decide (instant entry = time)) =
      entries.find? fun entry => decide (instant entry = time) := by
  induction entries with
  | nil => rfl
  | cons first rest ih =>
    obtain ⟨above, sorted⟩ := List.pairwise_cons.1 sorted
    by_cases before : instant first < time
    · have different : instant first ≠ time := Instant.ne_of_lt before
      simp [before, different, ih sorted]
    · by_cases same : instant first = time
      · rw [List.dropWhile_cons_of_neg (by simpa using before)]
        simp [same]
      · have none : rest.find? (fun entry => decide (instant entry = time)) = none := by
          refine List.find?_eq_none.2 fun found member => ?_
          simp only [decide_eq_true_eq]
          rintro rfl
          exact before (above found member)
        simp [before, same, none]

/-- Picking up instants that never decrease is looking up each of them. -/
theorem pickUp_eq_map {entries : List α}
    (sorted : entries.Pairwise fun older newer => instant older < instant newer)
    {times : List Instant} (ordered : times.Pairwise (· ≤ ·)) :
    pickUp entries times =
      times.map fun time => entries.find? fun entry => decide (instant entry = time) := by
  induction times generalizing entries with
  | nil => rfl
  | cons time rest ih =>
    obtain ⟨least, ordered⟩ := List.pairwise_cons.1 ordered
    simp only [pickUp, List.map_cons, filter_head?_dropWhile sorted,
      ih (sorted.sublist (List.dropWhile_sublist _)) ordered, List.cons.injEq, true_and]
    exact List.map_congr_left fun later member =>
      find?_dropWhile_before entries (least later member)

/-- Which end the search starts from makes no difference to the entry at an instant. -/
theorem find?_reverse_entries (timeline : Timeline α) (time : Instant) :
    (timeline.entries.reverse.find? fun entry => decide (instant entry = time)) =
      timeline.at? time := by
  cases found : timeline.entries.reverse.find? fun entry => decide (instant entry = time) with
  | some entry =>
    refine ((timeline.at?_eq_some_iff time entry).2 ⟨?_, ?_⟩).symm
    · exact List.mem_reverse.1 (List.mem_of_find?_eq_some found)
    · simpa using List.find?_some found
  | none =>
    refine (List.find?_eq_none.2 fun entry member => ?_).symm
    exact List.find?_eq_none.1 found entry (List.mem_reverse.2 member)

/-- An entry from an instant on is found among the entries from there on. -/
theorem find?_takeWhile_from (timeline : Timeline α) {first time : Instant} (le : first ≤ time) :
    ((timeline.entries.takeWhile fun entry => decide (first ≤ instant entry)).find?
        fun entry => decide (instant entry = time)) = timeline.at? time := by
  cases found : timeline.at? time with
  | some entry =>
    obtain ⟨member, same⟩ := (timeline.at?_eq_some_iff time entry).1 found
    let part : Timeline α := ⟨_, timeline.newestFirst.sublist
      (List.takeWhile_sublist fun entry => decide (first ≤ instant entry))⟩
    refine (part.at?_eq_some_iff time entry).2 ⟨?_, same⟩
    exact (mem_takeWhile_from timeline.newestFirst first entry).2 ⟨member, same ▸ le⟩
  | none =>
    refine List.find?_eq_none.2 fun entry member => ?_
    exact List.find?_eq_none.1 found entry
      ((mem_takeWhile_from timeline.newestFirst first entry).1 member).1

/-- Looking up instants that never decrease is looking up each of them. -/
theorem atEach_eq_map (timeline : Timeline α) {times : List Instant}
    (ordered : times.Pairwise (· ≤ ·)) : timeline.atEach times = times.map timeline.at? := by
  cases times with
  | nil => rfl
  | cons first rest =>
    let part : Timeline α := ⟨_, timeline.newestFirst.sublist
      (List.takeWhile_sublist fun entry => decide (first ≤ instant entry))⟩
    rw [atEach, pickUp_eq_map (List.pairwise_reverse.2 part.newestFirst) ordered]
    refine List.map_congr_left fun time member => ?_
    rw [find?_reverse_entries part]
    refine timeline.find?_takeWhile_from ?_
    rcases List.mem_cons.1 member with rfl | member
    · exact Int.le_refl _
    · exact (List.pairwise_cons.1 ordered).1 time member

end Timeline

end Metering
