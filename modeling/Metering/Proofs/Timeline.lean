import Metering.Timeline.Merge

/-!
# Searching timelines

Every search of a timeline is told by the entry it finds: the newest or the
oldest one on a side of an instant among those that meet a condition. The
entries are in order, so the first one found along them is the nearest one
(`find?_eq_some_iff_of_pairwise`), whichever end the search starts from. A window
finds the entries that it admits, in order (`within_eq_filter`).
-/

namespace Metering

open Stamped (instant)

namespace Timeline

/-- The first entry found along a list in order is the one that comes before all others that meet
the condition. -/
theorem find?_eq_some_iff_of_pairwise {α : Type} {before : α → α → Prop} {keep : α → Bool}
    {entries : List α} (sorted : entries.Pairwise before)
    (asymmetric : ∀ first second, before first second → ¬ before second first) (entry : α) :
    entries.find? keep = some entry ↔
      entry ∈ entries ∧ keep entry ∧
        ∀ other ∈ entries, keep other → other = entry ∨ before entry other := by
  induction entries with
  | nil => simp
  | cons first rest ih =>
    obtain ⟨ahead, sorted⟩ := List.pairwise_cons.1 sorted
    cases kept : keep first with
    | true =>
      rw [List.find?_cons_of_pos kept, Option.some_inj]
      constructor
      · rintro rfl
        refine ⟨List.mem_cons_self, kept, fun other member _ => ?_⟩
        exact (List.mem_cons.1 member).imp_right (ahead other)
      · rintro ⟨member, _, least⟩
        rcases List.mem_cons.1 member with same | member
        · exact same.symm
        · rcases least first List.mem_cons_self kept with same | later
          · exact same
          · exact absurd (ahead entry member) (asymmetric _ _ later)
    | false =>
      rw [List.find?_cons_of_neg (by simp [kept]), ih sorted]
      constructor
      · rintro ⟨member, holds, least⟩
        refine ⟨List.mem_cons_of_mem first member, holds, fun other found keeps => ?_⟩
        rcases List.mem_cons.1 found with rfl | found
        · simp [kept] at keeps
        · exact least other found keeps
      · rintro ⟨member, holds, least⟩
        rcases List.mem_cons.1 member with rfl | member
        · simp [kept] at holds
        · exact ⟨member, holds, fun other found =>
            least other (List.mem_cons_of_mem first found)⟩

/-- Lists in order with the same members are the same. -/
theorem eq_of_mem_iff_of_pairwise {α : Type} {before : α → α → Prop} {first second : List α}
    (sorted : first.Pairwise before) (sortedSecond : second.Pairwise before)
    (asymmetric : ∀ left right, before left right → ¬ before right left)
    (same : ∀ entry, entry ∈ first ↔ entry ∈ second) : first = second := by
  have differ : ∀ left right, before left right → left ≠ right := by
    rintro left _ ahead rfl
    exact asymmetric left left ahead ahead
  have permuted : first.Perm second :=
    (List.perm_ext_iff_of_nodup (sorted.imp (differ _ _)) (sortedSecond.imp (differ _ _))).2 same
  exact permuted.eq_of_pairwise
    (fun left right _ _ ahead behind => absurd behind (asymmetric left right ahead)) sorted
    sortedSecond

variable {α : Type} [Stamped α]

/-- Timelines with the same entries are the same. -/
theorem ext_of_mem_iff {first second : Timeline α}
    (same : ∀ entry, entry ∈ first.entries ↔ entry ∈ second.entries) : first = second := by
  obtain ⟨entries, sorted⟩ := first
  obtain ⟨others, sortedSecond⟩ := second
  have equal : entries = others := eq_of_mem_iff_of_pairwise sorted sortedSecond
    (fun left right less more => Int.lt_asymm less more) same
  subst equal
  rfl

/-- Instants that are not the same are in one order or the other. -/
theorem instant_ne_iff {left right : α} :
    instant left ≠ instant right ↔ (instant left).nanos ≠ (instant right).nanos :=
  not_congr ⟨congrArg Instant.nanos, Instant.ext⟩

/-- The entry that a search from the newest on finds is the newest one that meets the condition. -/
theorem find?_entries_eq_some_iff (timeline : Timeline α) (keep : α → Bool) (entry : α) :
    timeline.entries.find? keep = some entry ↔
      entry ∈ timeline.entries ∧ keep entry ∧
        ∀ other ∈ timeline.entries, keep other → instant other ≤ instant entry := by
  rw [find?_eq_some_iff_of_pairwise timeline.newestFirst fun first second less more =>
    Int.lt_irrefl _ (Int.lt_trans less more)]
  refine and_congr_right fun member => and_congr_right fun _ => ?_
  refine forall₂_congr fun other found => imp_congr_right fun _ => ?_
  constructor
  · rintro (rfl | earlier)
    · exact Int.le_refl _
    · exact Int.le_of_lt earlier
  · intro least
    by_cases same : instant other = instant entry
    · exact Or.inl (timeline.eq_of_instant_eq found member same)
    · exact Or.inr (Int.lt_iff_le_and_ne.2 ⟨least, instant_ne_iff.1 same⟩)

/-- The entry that a search from the oldest on finds is the oldest one that meets the condition. -/
theorem find?_reverse_eq_some_iff (timeline : Timeline α) (keep : α → Bool) (entry : α) :
    timeline.entries.reverse.find? keep = some entry ↔
      entry ∈ timeline.entries ∧ keep entry ∧
        ∀ other ∈ timeline.entries, keep other → instant entry ≤ instant other := by
  rw [find?_eq_some_iff_of_pairwise (List.pairwise_reverse.2 timeline.newestFirst)
    fun first second less more => Int.lt_irrefl _ (Int.lt_trans less more), List.mem_reverse]
  refine and_congr_right fun member => and_congr_right fun _ => ?_
  simp only [List.mem_reverse]
  refine forall₂_congr fun other found => imp_congr_right fun _ => ?_
  constructor
  · rintro (rfl | later)
    · exact Int.le_refl _
    · exact Int.le_of_lt later
  · intro least
    by_cases same : instant entry = instant other
    · exact Or.inl (timeline.eq_of_instant_eq found member same.symm)
    · exact Or.inr (Int.lt_iff_le_and_ne.2 ⟨least, instant_ne_iff.1 same⟩)

/-- The entries from an instant on, as a timeline. -/
def startingAt (timeline : Timeline α) (time : Instant) : Timeline α :=
  ⟨timeline.entries.takeWhile fun entry => decide (time ≤ instant entry),
    timeline.newestFirst.sublist (List.takeWhile_sublist _)⟩

/-- The entries after an instant, as a timeline. -/
def following (timeline : Timeline α) (time : Instant) : Timeline α :=
  ⟨timeline.entries.takeWhile fun entry => decide (time < instant entry),
    timeline.newestFirst.sublist (List.takeWhile_sublist _)⟩

/-- What the newest entry up to an instant is. -/
theorem latestUpTo?_eq_some_iff (timeline : Timeline α) (time : Instant) (keep : α → Bool)
    (entry : α) :
    timeline.latestUpTo? time keep = some entry ↔
      (entry ∈ timeline.entries ∧ keep entry) ∧ instant entry ≤ time ∧
        ∀ other ∈ timeline.entries, keep other → instant other ≤ time →
          instant other ≤ instant entry := by
  unfold latestUpTo?
  rw [find?_entries_eq_some_iff]
  simp only [Bool.and_eq_true, decide_eq_true_eq]
  grind

/-- There is no newest entry up to an instant if there is none. -/
theorem latestUpTo?_eq_none_iff (timeline : Timeline α) (time : Instant) (keep : α → Bool) :
    timeline.latestUpTo? time keep = none ↔
      ∀ entry ∈ timeline.entries, keep entry → ¬ instant entry ≤ time := by
  unfold latestUpTo?
  rw [List.find?_eq_none]
  simp only [Bool.and_eq_true, decide_eq_true_eq]
  grind

/-- What the oldest entry from an instant on is. -/
theorem earliestFrom?_eq_some_iff (timeline : Timeline α) (time : Instant) (keep : α → Bool)
    (entry : α) :
    timeline.earliestFrom? time keep = some entry ↔
      (entry ∈ timeline.entries ∧ keep entry) ∧ time ≤ instant entry ∧
        ∀ other ∈ timeline.entries, keep other → time ≤ instant other →
          instant entry ≤ instant other := by
  have ahead := mem_takeWhile_from timeline.newestFirst time
  rw [show timeline.earliestFrom? time keep =
    (timeline.startingAt time).entries.reverse.find? keep from rfl, find?_reverse_eq_some_iff]
  simp only [startingAt, ahead]
  grind

/-- There is no oldest entry from an instant on if there is none. -/
theorem earliestFrom?_eq_none_iff (timeline : Timeline α) (time : Instant) (keep : α → Bool) :
    timeline.earliestFrom? time keep = none ↔
      ∀ entry ∈ timeline.entries, keep entry → ¬ time ≤ instant entry := by
  have ahead := mem_takeWhile_from timeline.newestFirst time
  unfold earliestFrom?
  rw [List.find?_eq_none]
  simp only [List.mem_reverse, ahead]
  grind

/-- What the newest entry before an instant is. -/
theorem below?_eq_some_iff (timeline : Timeline α) (time : Instant) (entry : α) :
    timeline.below? time = some entry ↔
      entry ∈ timeline.entries ∧ instant entry < time ∧
        ∀ other ∈ timeline.entries, instant other < time → instant other ≤ instant entry := by
  unfold below?
  rw [find?_entries_eq_some_iff]
  simp only [decide_eq_true_eq]

/-- What the oldest entry after an instant is. -/
theorem above?_eq_some_iff (timeline : Timeline α) (time : Instant) (entry : α) :
    timeline.above? time = some entry ↔
      entry ∈ timeline.entries ∧ time < instant entry ∧
        ∀ other ∈ timeline.entries, time < instant other → instant entry ≤ instant other := by
  have ahead := mem_takeWhile_after timeline.newestFirst time
  have last : timeline.above? time =
      (timeline.following time).entries.reverse.find? fun _ => true := by
    unfold above?
    rw [List.getLast?_eq_head?_reverse]
    change ((timeline.following time).entries.reverse).head? = _
    cases (timeline.following time).entries.reverse with
    | nil => rfl
    | cons first rest => rfl
  rw [last, find?_reverse_eq_some_iff]
  simp only [following, ahead]
  grind

/-- Nothing is found at an instant where there is no entry. -/
theorem at?_eq_none_iff (timeline : Timeline α) (time : Instant) :
    timeline.at? time = none ↔ ∀ entry ∈ timeline.entries, instant entry ≠ time := by
  unfold at?
  rw [List.find?_eq_none]
  simp only [decide_eq_true_eq, ne_eq]

/-! ## Windows of a timeline -/

section Within

variable (timeline : Timeline α) (window : Window) (keep : α → Bool)

/-- What is cut out of a timeline are the entries in the window. -/
theorem slice?_eq (ordered : window.isMisordered = false) :
    timeline.slice? window =
      some (timeline.entries.filter fun entry => window.contains (instant entry)).reverse := by
  have passed : (timeline.entries.dropWhile fun entry =>
      !Window.admitsStop (instant entry) window.stop) =
        timeline.entries.filter fun entry => Window.admitsStop (instant entry) window.stop := by
    rw [dropWhile_eq_filter (timeline.newestFirst.imp fun {newer older} less beyond => ?_)]
    · simp only [Bool.not_not]
    · cases inside : Window.admitsStop (instant newer) window.stop with
      | false => rfl
      | true =>
        rw [Window.admitsStop_anti (Int.le_of_lt less) inside] at beyond
        cases beyond
  have sorted : NewestFirst (timeline.entries.filter fun entry =>
      Window.admitsStop (instant entry) window.stop) := timeline.newestFirst.filter _
  unfold slice?
  rw [if_neg (Bool.eq_false_iff.1 ordered), passed,
    takeWhile_eq_filter (sorted.imp fun less => Window.admitsStart_mono (Int.le_of_lt less)),
    List.filter_filter]
  rfl

/-- What lies in a window are the entries that it admits, also if it is taken for empty. -/
theorem within_eq_filter :
    timeline.within window keep = (timeline.entries.filter fun entry =>
      window.contains (instant entry) && keep entry).reverse := by
  unfold within
  split
  · rename_i empty
    have none : (timeline.entries.filter fun entry =>
        window.contains (instant entry) && keep entry) = [] :=
      List.filter_eq_nil_iff.2 fun entry _ meets =>
        Window.not_contains_of_isEmpty empty _ (Bool.and_eq_true_iff.1 meets).1
    rw [none, List.reverse_nil]
  · rename_i room
    have ordered : window.isMisordered = false :=
      Bool.eq_false_iff.2 (mt Window.isEmpty_of_isMisordered room)
    simp only [timeline.slice?_eq window ordered, Option.get_some, List.filter_reverse,
      List.filter_filter, Bool.and_comm]

/-- What lies in a window is in the order of its instants. -/
theorem pairwise_within : (timeline.within window keep).Pairwise fun earlier later =>
    instant earlier < instant later := by
  rw [within_eq_filter]
  exact List.pairwise_reverse.2 (timeline.newestFirst.filter _)

/-- What lies in a window. -/
theorem mem_within_iff (entry : α) : entry ∈ timeline.within window keep ↔
    entry ∈ timeline.entries ∧ window.contains (instant entry) ∧ keep entry := by
  rw [within_eq_filter, List.mem_reverse, List.mem_filter, Bool.and_eq_true]

end Within

/-! ## Timelines of lists -/

/-- Each entry inserted one after another is in a timeline, unless it was there before or a later
one took its place. -/
theorem mem_foldl_insert (entries : List α) (timeline : Timeline α) {entry : α}
    (member : entry ∈ (entries.foldl insert timeline).entries) :
    entry ∈ entries ∨ entry ∈ timeline.entries := by
  induction entries generalizing timeline with
  | nil => exact Or.inr member
  | cons first rest ih =>
    rcases ih (timeline.insert first) member with found | found
    · exact Or.inl (List.mem_cons_of_mem first found)
    · rcases (timeline.mem_insert first entry).1 found with rfl | ⟨found, _⟩
      · exact Or.inl List.mem_cons_self
      · exact Or.inr found

/-- Insertions never leave an instant without an entry. -/
theorem exists_mem_foldl_insert (entries : List α) (timeline : Timeline α) {entry : α}
    (member : entry ∈ entries ∨ entry ∈ timeline.entries) :
    ∃ other ∈ (entries.foldl insert timeline).entries, instant other = instant entry := by
  induction entries generalizing timeline entry with
  | nil =>
    rcases member with member | member
    · cases member
    · exact ⟨entry, member, rfl⟩
  | cons first rest ih =>
    rcases member with member | member
    · rcases List.mem_cons.1 member with rfl | member
      · exact ih (timeline.insert entry) (Or.inr ((timeline.mem_insert entry entry).2 (Or.inl rfl)))
      · exact ih (timeline.insert first) (Or.inl member)
    · by_cases same : instant entry = instant first
      · rw [same]
        exact ih (timeline.insert first)
          (Or.inr ((timeline.mem_insert first first).2 (Or.inl rfl)))
      · exact ih (timeline.insert first)
          (Or.inr ((timeline.mem_insert first entry).2 (Or.inr ⟨member, same⟩)))

/-- What a timeline of a list holds comes from the list. -/
theorem mem_of_mem_ofList {entries : List α} {entry : α}
    (member : entry ∈ (ofList entries).entries) : entry ∈ entries := by
  rcases mem_foldl_insert entries empty member with found | found
  · exact found
  · cases found

/-- A timeline of a list has an entry at the instant of each one of the list. -/
theorem exists_mem_ofList {entries : List α} {entry : α} (member : entry ∈ entries) :
    ∃ other ∈ (ofList entries).entries, instant other = instant entry :=
  exists_mem_foldl_insert entries empty (Or.inl member)

end Timeline

end Metering
