import Metering.Cache.Maintenance
import Metering.Proofs.Timeline

/-!
# What a review does to a series

A review goes through the candidates in order and either accepts each one or,
if it was to take the place of a checkpoint, drops that one. So at the instant
of every candidate the series is left with the new checkpoint or with none, and
elsewhere it is as it was (`mem_apply_iff`). Candidates whose counters fit all
checkpoints they can meet are all accepted (`foldl_judge_of_fitting`).
-/

namespace Metering

open Stamped (instant)

variable {σ : Type} [Scalar σ]

/-- A checkpoint fits a series if it fits each checkpoint of the series. -/
theorem Timeline.fits_of_forall {series : Series σ} {checkpoint : Checkpoint σ}
    (below : ∀ other ∈ series.entries, other.instant < checkpoint.instant →
      Scalar.atMost other.energy checkpoint.energy)
    (above : ∀ other ∈ series.entries, checkpoint.instant < other.instant →
      Scalar.atMost checkpoint.energy other.energy) :
    series.fits checkpoint := by
  unfold fits
  rw [Bool.and_eq_true, Option.all_eq_true, Option.all_eq_true]
  constructor
  · intro other found
    obtain ⟨member, less, _⟩ := (series.below?_eq_some_iff checkpoint.instant other).1 found
    exact below other member less
  · intro other found
    obtain ⟨member, more, _⟩ := (series.above?_eq_some_iff checkpoint.instant other).1 found
    exact above other member more

omit [Scalar σ] in
/-- The checkpoints that candidates are tried against are checkpoints of the series, none of them
at the instant of a candidate. -/
theorem Timeline.mem_of_mem_neighbourhood {series : Series σ} {candidates : List (Candidate σ)}
    {checkpoint : Checkpoint σ}
    (member : checkpoint ∈ (series.neighbourhood candidates).entries) :
    checkpoint ∈ series.entries ∧
      ∀ candidate ∈ candidates, candidate.checkpoint.instant ≠ checkpoint.instant := by
  unfold neighbourhood at member
  split at member
  · obtain ⟨stays, apart⟩ := (mem_difference _ _ checkpoint).1 member
    refine ⟨((mem_between _ _ _ checkpoint).1 stays).1, fun candidate found same => ?_⟩
    obtain ⟨other, held, equal⟩ :=
      exists_mem_ofList (List.mem_map_of_mem (f := Candidate.checkpoint) found)
    exact apart other held (equal.trans same)
  · cases member

namespace Review

/-- A candidate that fits is accepted. -/
theorem judge_of_fits {review : Review σ} {candidate : Candidate σ}
    (fits : review.view.fits candidate.checkpoint) :
    judge review candidate = ⟨review.view.insert candidate.checkpoint,
      candidate.checkpoint :: review.accepted, review.dropped,
      (if candidate.replaces then .refreshed else .created) :: review.events⟩ := if_pos fits

/-- A candidate that does not fit costs the checkpoint that it was to replace. -/
theorem judge_of_not_fits {review : Review σ} {candidate : Candidate σ}
    (misses : ¬ review.view.fits candidate.checkpoint) :
    judge review candidate = ⟨review.view, review.accepted,
      if candidate.replaces then candidate.checkpoint.instant :: review.dropped
        else review.dropped,
      .rejected :: review.events⟩ := if_neg misses

/-- What is accepted was accepted before or is a candidate. -/
theorem mem_accepted_foldl_judge (candidates : List (Candidate σ)) (review : Review σ)
    {checkpoint : Checkpoint σ}
    (member : checkpoint ∈ (candidates.foldl judge review).accepted) :
    checkpoint ∈ review.accepted ∨ ∃ candidate ∈ candidates, candidate.checkpoint = checkpoint := by
  induction candidates generalizing review with
  | nil => exact Or.inl member
  | cons first rest ih =>
    rcases ih (judge review first) member with found | ⟨candidate, found, same⟩
    · by_cases fits : review.view.fits first.checkpoint
      · rw [judge_of_fits fits] at found
        rcases List.mem_cons.1 found with rfl | found
        · exact Or.inr ⟨first, List.mem_cons_self, rfl⟩
        · exact Or.inl found
      · rw [judge_of_not_fits fits] at found
        exact Or.inl found
    · exact Or.inr ⟨candidate, List.mem_cons_of_mem first found, same⟩

/-- What is dropped was dropped before or is the instant of a candidate that was to replace a
checkpoint. -/
theorem mem_dropped_foldl_judge (candidates : List (Candidate σ)) (review : Review σ)
    {time : Instant} (member : time ∈ (candidates.foldl judge review).dropped) :
    time ∈ review.dropped ∨
      ∃ candidate ∈ candidates, candidate.replaces ∧ candidate.checkpoint.instant = time := by
  induction candidates generalizing review with
  | nil => exact Or.inl member
  | cons first rest ih =>
    rcases ih (judge review first) member with found | ⟨candidate, found, same⟩
    · by_cases fits : review.view.fits first.checkpoint
      · rw [judge_of_fits fits] at found
        exact Or.inl found
      · rw [judge_of_not_fits fits] at found
        by_cases replaces : first.replaces
        · simp only [if_pos replaces] at found
          rcases List.mem_cons.1 found with rfl | found
          · exact Or.inr ⟨first, List.mem_cons_self, replaces, rfl⟩
          · exact Or.inl found
        · simp only [if_neg replaces] at found
          exact Or.inl found
    · exact Or.inr ⟨candidate, List.mem_cons_of_mem first found, same⟩

/-- A candidate that replaces nothing is added or refused. -/
theorem mem_events_foldl_judge (candidates : List (Candidate σ)) (review : Review σ)
    (fresh : ∀ candidate ∈ candidates, candidate.replaces = false) {event : CacheEvent}
    (member : event ∈ (candidates.foldl judge review).events) :
    event ∈ review.events ∨ event = .created ∨ event = .rejected := by
  induction candidates generalizing review with
  | nil => exact Or.inl member
  | cons first rest ih =>
    have freshRest := fun candidate found => fresh candidate (List.mem_cons_of_mem first found)
    rcases ih (judge review first) freshRest member with found | outcome
    · by_cases fits : review.view.fits first.checkpoint
      · rw [judge_of_fits fits] at found
        rcases List.mem_cons.1 found with rfl | found
        · rw [fresh first List.mem_cons_self]
          exact Or.inr (Or.inl rfl)
        · exact Or.inl found
      · rw [judge_of_not_fits fits] at found
        rcases List.mem_cons.1 found with rfl | found
        · exact Or.inr (Or.inr rfl)
        · exact Or.inl found
    · exact Or.inr outcome

/-- What has been accepted or dropped stays so. -/
theorem subset_foldl_judge (candidates : List (Candidate σ)) (review : Review σ) :
    review.accepted ⊆ (candidates.foldl judge review).accepted ∧
      review.dropped ⊆ (candidates.foldl judge review).dropped := by
  induction candidates generalizing review with
  | nil => exact ⟨List.Subset.refl _, List.Subset.refl _⟩
  | cons first rest ih =>
    obtain ⟨accepted, dropped⟩ := ih (judge review first)
    have step : review.accepted ⊆ (judge review first).accepted ∧
        review.dropped ⊆ (judge review first).dropped := by
      by_cases fits : review.view.fits first.checkpoint
      · rw [judge_of_fits fits]
        exact ⟨List.subset_cons_self _ _, List.Subset.refl _⟩
      · rw [judge_of_not_fits fits]
        refine ⟨List.Subset.refl _, ?_⟩
        dsimp only
        split
        · exact List.subset_cons_self _ _
        · exact List.Subset.refl _
    exact ⟨List.Subset.trans step.1 accepted, List.Subset.trans step.2 dropped⟩

/-- Each candidate is accepted, or the checkpoint it was to replace is dropped. -/
theorem accepted_or_dropped (candidates : List (Candidate σ)) (review : Review σ)
    {candidate : Candidate σ} (member : candidate ∈ candidates) :
    candidate.checkpoint ∈ (candidates.foldl judge review).accepted ∨
      (candidate.replaces →
        candidate.checkpoint.instant ∈ (candidates.foldl judge review).dropped) := by
  induction candidates generalizing review with
  | nil => cases member
  | cons first rest ih =>
    rcases List.mem_cons.1 member with rfl | member
    · obtain ⟨accepted, dropped⟩ := subset_foldl_judge rest (judge review candidate)
      by_cases fits : review.view.fits candidate.checkpoint
      · refine Or.inl (accepted ?_)
        rw [judge_of_fits fits]
        exact List.mem_cons_self
      · refine Or.inr fun replaces => dropped ?_
        rw [judge_of_not_fits fits]
        simp only [if_pos replaces]
        exact List.mem_cons_self
    · exact ih (judge review first) member

/-- Candidates are all accepted if their counters and those of the series never run backwards. -/
theorem foldl_judge_of_fitting {steady : Checkpoint σ → Prop}
    (ordered : ∀ earlier later, steady earlier → steady later →
      earlier.instant < later.instant → Scalar.atMost earlier.energy later.energy)
    {candidates : List (Candidate σ)} (proposed : ∀ candidate ∈ candidates,
      steady candidate.checkpoint) (review : Review σ)
    (there : ∀ checkpoint ∈ review.view.entries, steady checkpoint) :
    (candidates.foldl judge review).accepted =
        (candidates.map Candidate.checkpoint).reverse ++ review.accepted ∧
      (candidates.foldl judge review).dropped = review.dropped ∧
      (candidates.foldl judge review).events =
        (candidates.map fun candidate =>
          if candidate.replaces then CacheEvent.refreshed else .created).reverse ++
            review.events := by
  induction candidates generalizing review with
  | nil => exact ⟨rfl, rfl, rfl⟩
  | cons first rest ih =>
    have firstSteady := proposed first List.mem_cons_self
    have fits : review.view.fits first.checkpoint := Timeline.fits_of_forall
      (fun other member less => ordered _ _ (there other member) firstSteady less)
      (fun other member more => ordered _ _ firstSteady (there other member) more)
    rw [List.foldl_cons, judge_of_fits fits]
    obtain ⟨accepted, dropped, events⟩ := ih
      (fun candidate member => proposed candidate (List.mem_cons_of_mem first member))
      ⟨review.view.insert first.checkpoint, first.checkpoint :: review.accepted, review.dropped,
        (if first.replaces then .refreshed else .created) :: review.events⟩
      (fun checkpoint member => by
        rcases (Timeline.mem_insert _ _ checkpoint).1 member with rfl | ⟨member, _⟩
        · exact firstSteady
        · exact there checkpoint member)
    refine ⟨?_, dropped, ?_⟩
    · rw [accepted, List.map_cons, List.reverse_cons, List.append_assoc]
      rfl
    · rw [events, List.map_cons, List.reverse_cons, List.append_assoc]
      rfl

omit [Scalar σ] in
/-- What a series holds after a review: what was accepted, and elsewhere what was there and was not
dropped. -/
theorem mem_apply_iff (review : Review σ) (series : Series σ) (checkpoint : Checkpoint σ) :
    checkpoint ∈ (review.apply series).entries ↔
      checkpoint ∈ (Timeline.ofList review.accepted.reverse).entries ∨
        checkpoint ∈ series.entries ∧ checkpoint.instant ∉ review.dropped ∧
          ∀ other ∈ review.accepted, other.instant ≠ checkpoint.instant := by
  unfold apply
  rw [Timeline.mem_union, Timeline.mem_difference]
  refine or_congr_right ⟨fun found => ?_, fun found => ?_⟩
  · obtain ⟨⟨member, stays⟩, apart⟩ := found
    refine ⟨member, fun gone => ?_, fun other accepted same => ?_⟩
    · obtain ⟨time, held, equal⟩ := Timeline.exists_mem_ofList (List.mem_reverse.2 gone)
      exact stays time held equal
    · obtain ⟨held, there, equal⟩ := Timeline.exists_mem_ofList (List.mem_reverse.2 accepted)
      exact apart held there (equal.trans same)
  · obtain ⟨member, stays, apart⟩ := found
    refine ⟨⟨member, fun time held equal => ?_⟩, fun other held equal => ?_⟩
    · have same : time = checkpoint.instant := equal
      exact stays (List.mem_reverse.1 (same ▸ Timeline.mem_of_mem_ofList held))
    · exact apart other (List.mem_reverse.1 (Timeline.mem_of_mem_ofList held)) equal

variable {view series : Series σ} {candidates : List (Candidate σ)} {checkpoint : Checkpoint σ}

/-- If the candidates tell which of them replace a checkpoint, a series holds candidates and what
nothing was proposed for. -/
theorem proposed_or_untouched (marked : ∀ candidate ∈ candidates,
      candidate.replaces = (series.at? candidate.checkpoint.instant).isSome)
    (member : checkpoint ∈ ((of view candidates).apply series).entries) :
    (∃ candidate ∈ candidates, candidate.checkpoint = checkpoint) ∨
      checkpoint ∈ series.entries ∧
        ∀ candidate ∈ candidates, candidate.checkpoint.instant ≠ checkpoint.instant := by
  rcases (mem_apply_iff ..).1 member with added | ⟨there, stays, apart⟩
  · have accepted := List.mem_reverse.1 (Timeline.mem_of_mem_ofList added)
    rcases mem_accepted_foldl_judge _ _ accepted with nothing | found
    · cases nothing
    · exact Or.inl found
  · refine Or.inr ⟨there, fun candidate proposed same => ?_⟩
    rcases accepted_or_dropped _ _ proposed with accepted | dropped
    · exact apart candidate.checkpoint accepted same
    · -- A candidate at the instant of a checkpoint of the series is to take its place.
      have found : series.at? candidate.checkpoint.instant = some checkpoint :=
        (Timeline.at?_eq_some_iff ..).2 ⟨there, same.symm⟩
      have replaces : candidate.replaces := by rw [marked candidate proposed, found]; rfl
      exact stays (same ▸ dropped replaces)

/-- A checkpoint that nothing was proposed for stays. -/
theorem mem_apply_of_untouched (there : checkpoint ∈ series.entries)
    (apart : ∀ candidate ∈ candidates, candidate.checkpoint.instant ≠ checkpoint.instant) :
    checkpoint ∈ ((of view candidates).apply series).entries := by
  refine (mem_apply_iff ..).2 (Or.inr ⟨there, fun gone => ?_, fun other taken same => ?_⟩)
  · rcases mem_dropped_foldl_judge _ _ gone with nothing | ⟨candidate, proposed, _, same⟩
    · cases nothing
    · exact apart candidate proposed same
  · rcases mem_accepted_foldl_judge _ _ taken with nothing | ⟨candidate, proposed, rfl⟩
    · cases nothing
    · exact apart candidate proposed same

end Review

end Metering
