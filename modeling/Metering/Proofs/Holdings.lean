import Mathlib.Data.Finset.Card
import Metering.Proofs.Backing

/-!
# How many checkpoints there are

What an operation does to the number of checkpoints is told by the instants
that it adds and the instants that it takes away (`Timeline.size_add_beyond`). A
review adds the instants at which it accepts something new and takes away the
ones that it drops (`Review.beyond_apply`, `Review.beyond_of_apply`). A cache
holds as many checkpoints as its series do together, so that replacing one series
changes the number by as much as the sizes of the two differ
(`CheckpointCache.held_withSeries`).
-/

namespace Metering

open Stamped (instant)

/-! ## Timelines -/

namespace Timeline

variable {α : Type} [Stamped α]

/-- How many entries of a timeline are at instants at which another one has none. -/
def beyond (timeline other : Timeline α) : Nat :=
  timeline.entries.countP fun entry => (other.at? (instant entry)).isNone

/-- The instants of the entries of a timeline. -/
def instants (timeline : Timeline α) : Finset Instant :=
  (timeline.entries.map instant).toFinset

/-- The instants are those of the entries. -/
theorem mem_instants_iff (timeline : Timeline α) (time : Instant) :
    time ∈ timeline.instants ↔ ∃ entry ∈ timeline.entries, instant entry = time := by
  unfold instants
  rw [List.mem_toFinset, List.mem_map]

/-- There is nothing at an instant that is not one of a timeline's. -/
theorem isNone_at?_iff (timeline : Timeline α) (time : Instant) :
    (timeline.at? time).isNone ↔ time ∉ timeline.instants := by
  rw [Option.isNone_iff_eq_none, at?_eq_none_iff, mem_instants_iff]
  push Not
  rfl

/-- The entries of a timeline are at different instants. -/
theorem nodup_instants (timeline : Timeline α) : (timeline.entries.map instant).Nodup :=
  List.pairwise_map.2 <| timeline.newestFirst.imp fun {_ _} later => (Instant.ne_of_lt later).symm

/-- There are as many instants as entries. -/
theorem card_instants (timeline : Timeline α) : timeline.instants.card = timeline.size := by
  unfold instants size
  rw [List.toFinset_card_of_nodup timeline.nodup_instants, List.length_map]

/-- The instants that a timeline has and another has not are counted. -/
theorem beyond_eq (timeline other : Timeline α) :
    timeline.beyond other = (timeline.instants \ other.instants).card := by
  have kept : timeline.instants \ other.instants =
      ((timeline.entries.filter fun entry => (other.at? (instant entry)).isNone).map
        instant).toFinset := by
    ext time
    simp only [Finset.mem_sdiff, mem_instants_iff timeline, List.mem_toFinset, List.mem_map,
      List.mem_filter, isNone_at?_iff]
    constructor
    · rintro ⟨⟨entry, member, rfl⟩, outside⟩
      exact ⟨entry, ⟨member, outside⟩, rfl⟩
    · rintro ⟨entry, ⟨member, outside⟩, rfl⟩
      exact ⟨⟨entry, member, rfl⟩, outside⟩
  have apart := timeline.nodup_instants.sublist
    ((timeline.entries.filter_sublist (p := fun entry =>
      (other.at? (instant entry)).isNone)).map instant)
  rw [kept, List.toFinset_card_of_nodup apart, List.length_map]
  exact List.countP_eq_length_filter

/-- Two timelines differ in size by what one has beyond the other. -/
theorem size_add_beyond (timeline other : Timeline α) :
    other.size + timeline.beyond other = timeline.size + other.beyond timeline := by
  have left := Finset.card_sdiff_add_card_inter timeline.instants other.instants
  have right := Finset.card_sdiff_add_card_inter other.instants timeline.instants
  rw [Finset.inter_comm] at right
  rw [beyond_eq, beyond_eq, ← card_instants, ← card_instants]
  omega

/-- A timeline has nothing beyond itself. -/
theorem beyond_self (timeline : Timeline α) : timeline.beyond timeline = 0 := by
  rw [beyond_eq, Finset.sdiff_self, Finset.card_empty]

/-- An entry at an instant of its own is one entry more. -/
theorem size_insert (timeline : Timeline α) {entry : α}
    (free : timeline.at? (instant entry) = none) :
    (timeline.insert entry).size = timeline.size + 1 := by
  have outside : instant entry ∉ timeline.instants :=
    (isNone_at?_iff ..).1 (Option.isNone_iff_eq_none.2 free)
  have added : (timeline.insert entry).instants =
      Insert.insert (instant entry) timeline.instants := by
    ext time
    rw [mem_instants_iff, Finset.mem_insert, mem_instants_iff]
    constructor
    · rintro ⟨other, member, rfl⟩
      rcases (mem_insert ..).1 member with rfl | ⟨there, _⟩
      · exact Or.inl rfl
      · exact Or.inr ⟨other, there, rfl⟩
    · rintro (rfl | ⟨other, there, rfl⟩)
      · exact ⟨entry, (mem_insert ..).2 (Or.inl rfl), rfl⟩
      · refine ⟨other, (mem_insert ..).2 (Or.inr ⟨there, fun same => outside ?_⟩), rfl⟩
        exact (mem_instants_iff ..).2 ⟨other, there, same⟩
  rw [← card_instants, ← card_instants, added, Finset.card_insert_of_notMem outside]

end Timeline

/-! ## Reviews -/

namespace Review

variable {σ : Type} [Scalar σ] {series : Series σ} {candidates : List (Candidate σ)}

/-- What a review has counted of a number of candidates for a series. -/
structure Counts (review : Review σ) (series : Series σ) (judged : Nat) : Prop where
  /-- Each candidate is counted once. -/
  judged : review.events.count .created + review.events.count .refreshed +
    review.events.count .rejected = judged
  /-- What is accepted is counted as added or as worked out again. -/
  accepted : review.accepted.length =
    review.events.count .created + review.events.count .refreshed
  /-- What is accepted where the series has nothing is counted as added. -/
  created : (review.accepted.countP fun checkpoint => (series.at? checkpoint.instant).isNone) =
    review.events.count .created
  /-- What is dropped is counted as refused. -/
  dropped : review.dropped.length ≤ review.events.count .rejected
  /-- Nothing is counted as left alone. -/
  frozen : review.events.count .frozenSkip = 0

/-- One more candidate is counted once. -/
theorem Counts.judge {review : Review σ} {judged : Nat} (counts : review.Counts series judged)
    {candidate : Candidate σ}
    (marked : candidate.replaces = (series.at? candidate.checkpoint.instant).isSome) :
    (judge review candidate).Counts series (judged + 1) := by
  obtain ⟨each, accepted, created, dropped, frozen⟩ := counts
  by_cases fits : review.view.fits candidate.checkpoint
  · rw [judge_of_fits fits]
    cases replaces : candidate.replaces with
    | true =>
      have taken : ¬ (series.at? candidate.checkpoint.instant).isNone := by
        rw [← Option.not_isSome, ← marked, replaces]
        decide
      exact
        { judged := by simp; omega
          accepted := by simp; omega
          created := by simpa [taken] using created
          dropped := by simpa using dropped
          frozen := by simpa using frozen }
    | false =>
      have free : (series.at? candidate.checkpoint.instant).isNone := by
        rw [← Option.not_isSome, ← marked, replaces]
        decide
      exact
        { judged := by simp; omega
          accepted := by simp; omega
          created := by simpa [free] using created
          dropped := by simpa using dropped
          frozen := by simpa using frozen }
  · rw [judge_of_not_fits fits]
    have lost : (if candidate.replaces then candidate.checkpoint.instant :: review.dropped
        else review.dropped).length ≤ review.dropped.length + 1 := by
      split
      · exact Nat.le_refl _
      · exact Nat.le_succ _
    exact
      { judged := by simp; omega
        accepted := by simpa using accepted
        created := by simpa using created
        dropped := by simp; omega
        frozen := by simpa using frozen }

/-- Candidates one after another are counted once each. -/
theorem Counts.foldl_judge {review : Review σ} {judged : Nat}
    (counts : review.Counts series judged)
    (marked : ∀ candidate ∈ candidates,
      candidate.replaces = (series.at? candidate.checkpoint.instant).isSome) :
    (candidates.foldl Review.judge review).Counts series (judged + candidates.length) := by
  induction candidates generalizing review judged with
  | nil => exact counts
  | cons first rest ih =>
    rw [List.length_cons, Nat.add_comm rest.length, ← Nat.add_assoc]
    exact ih (counts.judge (marked first List.mem_cons_self))
      fun candidate member => marked candidate (List.mem_cons_of_mem first member)

/-- A review counts each of its candidates once. -/
theorem counts_of (view : Series σ) (marked : ∀ candidate ∈ candidates,
      candidate.replaces = (series.at? candidate.checkpoint.instant).isSome) :
    (of view candidates).Counts series candidates.length := by
  have start : (⟨view, [], [], []⟩ : Review σ).Counts series 0 :=
    ⟨rfl, rfl, rfl, Nat.le_refl 0, rfl⟩
  have counts := start.foldl_judge marked
  rw [Nat.zero_add] at counts
  exact counts

/-- Candidates one after another are accepted or dropped once each at most. -/
theorem subperm_foldl_judge (candidates : List (Candidate σ)) (review : Review σ) :
    ((candidates.foldl judge review).accepted.map Checkpoint.instant ++
        (candidates.foldl judge review).dropped).Subperm
      ((candidates.map fun candidate => candidate.checkpoint.instant) ++
        (review.accepted.map Checkpoint.instant ++ review.dropped)) := by
  induction candidates generalizing review with
  | nil => exact List.Subperm.refl _
  | cons first rest ih =>
    let time := first.checkpoint.instant
    let sofar := review.accepted.map Checkpoint.instant ++ review.dropped
    have judged : ((judge review first).accepted.map Checkpoint.instant ++
        (judge review first).dropped).Subperm (time :: sofar) := by
      by_cases fits : review.view.fits first.checkpoint
      · rw [judge_of_fits fits]
        exact List.Subperm.refl _
      · rw [judge_of_not_fits fits]
        dsimp only
        split
        · exact List.perm_middle.subperm
        · exact (List.sublist_cons_self ..).subperm
    let onward := rest.map fun candidate => candidate.checkpoint.instant
    have moved : (onward ++ time :: sofar).Subperm (time :: (onward ++ sofar)) :=
      List.perm_middle.subperm
    exact (ih _).trans (((List.subperm_append_left _).2 judged).trans moved)

/-- Of candidates for different instants each is accepted or dropped at most. -/
theorem nodup_of (view : Series σ) (ordered : candidates.Pairwise fun earlier later =>
      earlier.checkpoint.instant < later.checkpoint.instant) :
    ((of view candidates).accepted.map Checkpoint.instant ++
      (of view candidates).dropped).Nodup := by
  have apart : (candidates.map fun candidate => candidate.checkpoint.instant).Nodup :=
    List.pairwise_map.2 (ordered.imp Instant.ne_of_lt)
  obtain ⟨kept, same, sublist⟩ := subperm_foldl_judge candidates ⟨view, [], [], []⟩
  rw [List.map_nil, List.append_nil, List.append_nil] at sublist
  exact same.nodup_iff.1 (apart.sublist sublist)

omit [Scalar σ] in
/-- The instants of a series after a review. -/
theorem instants_apply (review : Review σ) (series : Series σ) :
    (review.apply series).instants = (review.accepted.map Checkpoint.instant).toFinset ∪
      (series.instants \ review.dropped.toFinset) := by
  ext time
  simp only [Finset.mem_union, Finset.mem_sdiff, List.mem_toFinset, List.mem_map]
  rw [Timeline.mem_instants_iff, Timeline.mem_instants_iff]
  constructor
  · rintro ⟨checkpoint, member, rfl⟩
    rcases (mem_apply_iff ..).1 member with added | ⟨there, stays, _⟩
    · exact Or.inl ⟨checkpoint, List.mem_reverse.1 (Timeline.mem_of_mem_ofList added), rfl⟩
    · exact Or.inr ⟨⟨checkpoint, there, rfl⟩, stays⟩
  · intro left
    by_cases taken : ∃ checkpoint ∈ review.accepted, checkpoint.instant = time
    · obtain ⟨checkpoint, accepted, same⟩ := taken
      obtain ⟨other, added, equal⟩ := Timeline.exists_mem_ofList (List.mem_reverse.2 accepted)
      exact ⟨other, (mem_apply_iff ..).2 (Or.inl added), equal.trans same⟩
    · obtain ⟨⟨checkpoint, there, rfl⟩, stays⟩ := left.resolve_left taken
      exact ⟨checkpoint, (mem_apply_iff ..).2 (Or.inr ⟨there, stays, fun other accepted same =>
        taken ⟨other, accepted, same⟩⟩), rfl⟩

section Distinct

variable (view : Series σ)
  (ordered : candidates.Pairwise fun earlier later =>
    earlier.checkpoint.instant < later.checkpoint.instant)
include ordered

/-- The instants that a review adds to a series are those at which something was accepted and the
series had nothing. -/
theorem beyond_apply :
    ((of view candidates).apply series).beyond series =
      (of view candidates).accepted.countP fun checkpoint =>
        (series.at? checkpoint.instant).isNone := by
  have once := (List.nodup_append.1 (nodup_of view ordered)).1
  generalize of view candidates = review at once ⊢
  let fresh := review.accepted.filter fun checkpoint => (series.at? checkpoint.instant).isNone
  have added : (review.apply series).instants \ series.instants =
      (fresh.map Checkpoint.instant).toFinset := by
    rw [instants_apply]
    ext time
    simp only [fresh, Finset.mem_sdiff, Finset.mem_union, List.mem_toFinset, List.mem_map,
      List.mem_filter, Timeline.isNone_at?_iff]
    constructor
    · rintro ⟨⟨checkpoint, accepted, rfl⟩ | ⟨there, _⟩, outside⟩
      · exact ⟨checkpoint, ⟨accepted, outside⟩, rfl⟩
      · exact absurd there outside
    · rintro ⟨checkpoint, ⟨accepted, outside⟩, rfl⟩
      exact ⟨Or.inl ⟨checkpoint, accepted, rfl⟩, outside⟩
  have apart : (fresh.map Checkpoint.instant).Nodup :=
    once.sublist (List.filter_sublist.map Checkpoint.instant)
  rw [Timeline.beyond_eq, added, List.toFinset_card_of_nodup apart, List.length_map,
    List.countP_eq_length_filter]

/-- The instants that a review takes away from a series are those that it drops. -/
theorem beyond_of_apply (marked : ∀ candidate ∈ candidates,
      candidate.replaces = (series.at? candidate.checkpoint.instant).isSome) :
    series.beyond ((of view candidates).apply series) = (of view candidates).dropped.length := by
  obtain ⟨_, once, apart⟩ := List.nodup_append.1 (nodup_of view ordered)
  have there : ∀ time ∈ (of view candidates).dropped, time ∈ series.instants := by
    intro time dropped
    rcases mem_dropped_foldl_judge _ _ dropped with nothing | ⟨candidate, member, replaces, rfl⟩
    · cases nothing
    · rw [marked candidate member] at replaces
      by_contra outside
      rw [← Timeline.isNone_at?_iff, ← Option.not_isSome, replaces] at outside
      cases outside
  have gone : series.instants \ ((of view candidates).apply series).instants =
      (of view candidates).dropped.toFinset := by
    rw [instants_apply]
    ext time
    simp only [Finset.mem_sdiff, Finset.mem_union, List.mem_toFinset, not_or, not_and, not_not]
    constructor
    · exact fun ⟨held, _, goes⟩ => goes held
    · exact fun dropped => ⟨there time dropped, fun accepted => apart _ accepted _ dropped rfl,
        fun _ => dropped⟩
  rw [Timeline.beyond_eq, gone, List.toFinset_card_of_nodup once]

end Distinct

end Review

/-! ## Registries -/

namespace Registry

variable {β : Type} (size : β → Nat)

/-- The size of the entry of a source, zero if it has none. -/
def sizeAt (registry : Registry β) (id : SourceId) : Nat := ((registry.get? id).map size).getD 0

/-- The sizes of all entries together. -/
def total (registry : Registry β) : Nat := (registry.values.map size).sum

/-- An insertion puts an entry beside those of the other sources. -/
theorem total_insert (registry : Registry β) (id : SourceId) (entry : β) :
    (registry.insert id entry).total size = (registry.erase id).total size + size entry := by
  have placed := ((byId.perm_place (id, entry) registry.ordered).map Prod.snd).map size
  rw [Nat.add_comm]
  exact placed.sum_eq

/-- An erasure takes away the entry of its source. -/
theorem total_erase (registry : Registry β) (id : SourceId) :
    (registry.erase id).total size + registry.sizeAt size id = registry.total size := by
  obtain ⟨entries, ordered⟩ := registry
  unfold total values erase sizeAt get?
  dsimp only
  induction entries with
  | nil => rfl
  | cons first rest ih =>
    obtain ⟨above, ordered'⟩ := List.pairwise_cons.1 ordered
    by_cases same : first.1 = id
    · subst same
      have others : (rest.filter fun pair => pair.1 ≠ first.1) = rest :=
        byId.filter_ne_of_before above
      rw [List.filter_cons_of_neg (by simp), others,
        List.find?_cons_of_pos (by simp), List.map_cons, List.map_cons, List.sum_cons, Nat.add_comm]
      rfl
    · have rest := ih ordered'
      rw [List.filter_cons_of_pos (by simpa using same),
        List.find?_cons_of_neg (by simpa using same)]
      simp only [List.map_cons, List.sum_cons]
      omega

end Registry

/-! ## Caches -/

namespace CheckpointCache

variable {σ : Type}

/-- How many checkpoints a cache holds. -/
def held (cache : CheckpointCache σ) : Nat := cache.series.total Timeline.size

/-- What is counted of a source is its series. -/
theorem sizeAt_series (cache : CheckpointCache σ) (id : SourceId) :
    cache.series.sizeAt Timeline.size id = (cache.seriesOf id).size := by
  unfold Registry.sizeAt seriesOf
  cases cache.series.get? id <;> rfl

/-- A cache begins with no checkpoints. -/
theorem held_new (config : Config) : (new config : CheckpointCache σ).held = 0 := rfl

/-- Forgetting the checkpoints of a source leaves those of the others. -/
theorem held_evict (cache : CheckpointCache σ) (id : SourceId) :
    (cache.evict id).held + (cache.seriesOf id).size = cache.held := by
  rw [← sizeAt_series]
  exact cache.series.total_erase Timeline.size id

/-- A new series of a source takes the place of the one that it has. -/
theorem held_withSeries (cache : CheckpointCache σ) (id : SourceId) (series : Series σ) :
    (cache.withSeries id series).held + (cache.seriesOf id).size = cache.held + series.size := by
  have placed : (cache.withSeries id series).held = (cache.evict id).held + series.size :=
    cache.series.total_insert Timeline.size id series
  have erased := cache.held_evict id
  omega

end CheckpointCache

end Metering
