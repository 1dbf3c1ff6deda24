import Metering.Proofs.Splice
import Metering.Proofs.Catalog

/-!
# One review, near and far

A review sees only the part of a series around the candidates, and what it comes
to is carried out entry by entry: dropped checkpoints are taken out, then
accepted ones put in (`carriedOut_eq_apply`). At every candidate it decides as a
review of the whole series without the checkpoints at the candidates' instants,
and it leaves the series that such a review leaves (`review_as_of_whole`).
-/

namespace Metering

open Stamped (instant)

namespace Timeline

variable {α : Type} [Stamped α]

/-- Takes out the entry at an instant. -/
def remove (timeline : Timeline α) (time : Instant) : Timeline α :=
  ⟨timeline.entries.filter fun entry => instant entry ≠ time, timeline.newestFirst.filter _⟩

/-- A removal keeps every entry but the one at the instant. -/
@[simp]
theorem mem_remove (timeline : Timeline α) (time : Instant) (entry : α) :
    entry ∈ (timeline.remove time).entries ↔ entry ∈ timeline.entries ∧ instant entry ≠ time := by
  simp [remove]

/-- Removals one after another keep the entries at none of the instants. -/
theorem mem_foldl_remove_iff (times : List Instant) (timeline : Timeline α) (entry : α) :
    entry ∈ (times.foldl remove timeline).entries ↔
      entry ∈ timeline.entries ∧ instant entry ∉ times := by
  induction times generalizing timeline with
  | nil => simp
  | cons first rest ih =>
    rw [List.foldl_cons, ih, mem_remove, List.mem_cons, not_or, and_assoc]

end Timeline

namespace Review

variable {σ : Type} [Scalar σ]

/-- What a review comes to carried out on a series one by one: first what is dropped is taken out,
then what is accepted is put in. -/
def carriedOut (review : Review σ) (series : Series σ) : Series σ :=
  review.accepted.reverse.foldl Timeline.insert
    (review.dropped.reverse.foldl Timeline.remove series)

omit [Scalar σ] in
/-- Carried out one by one or all at once, a review leaves the same series. -/
theorem carriedOut_eq_apply (review : Review σ) (series : Series σ) :
    review.carriedOut series = review.apply series := by
  refine Timeline.ext_of_mem_iff fun checkpoint => ?_
  unfold carriedOut
  rw [Timeline.mem_foldl_insert_iff, Timeline.mem_foldl_remove_iff, mem_apply_iff, and_assoc]
  simp only [List.mem_reverse]
  rfl

variable {series : Series σ} {candidates : List (Candidate σ)}

/-- After any number of candidates, the next one fits the part of a series around all of them if it
fits the whole series without the checkpoints at their instants. -/
theorem fits_eq_of_split (ordered : candidates.Pairwise fun earlier later =>
      earlier.checkpoint.instant ≤ later.checkpoint.instant)
    {front rest : List (Candidate σ)} {candidate : Candidate σ}
    (split : candidates = front ++ candidate :: rest) :
    (of (series.neighbourhood candidates) front).view.fits candidate.checkpoint =
      (of (series.without candidates) front).view.fits candidate.checkpoint := by
  have some : candidates ≠ [] := by simp [split]
  obtain ⟨low, high, mirrors, between⟩ := exists_mirrors series ordered some
  have tried : ∀ other ∈ front, other ∈ candidates := fun other member =>
    split ▸ List.mem_append_left _ member
  have next : candidate ∈ candidates := by simp [split]
  have alike : (of (series.neighbourhood candidates) front).Alike
      (of (series.without candidates) front) low high :=
    Alike.foldl_judge ⟨mirrors, rfl, rfl, rfl⟩
      (fun other member => (between other (tried other member)).1)
      fun other member => (between other (tried other member)).2
  exact alike.fits_eq (between candidate next).1 (between candidate next).2

/-- Candidates in the order of their instants that tell which of them replace a checkpoint are each
decided, against the part of the series around them, as they would be against the whole series
without the checkpoints at their instants; what is then taken out of the series and put into it
leaves what the review of the whole has come to see. -/
theorem review_as_of_whole (series : Series σ) (candidates : List (Candidate σ))
    (increasing : candidates.Pairwise fun earlier later =>
      earlier.checkpoint.instant < later.checkpoint.instant)
    (marked : ∀ candidate ∈ candidates,
      candidate.replaces = (series.at? candidate.checkpoint.instant).isSome) :
    let near := of (series.neighbourhood candidates)
    let far := of (series.without candidates)
    (∀ front candidate rest, candidates = front ++ candidate :: rest →
      (near front).view.fits candidate.checkpoint = (far front).view.fits candidate.checkpoint) ∧
    (near candidates).accepted = (far candidates).accepted ∧
    (near candidates).dropped = (far candidates).dropped ∧
    (near candidates).events = (far candidates).events ∧
    (near candidates).carriedOut series = (far candidates).view ∧
    (near candidates).apply series = (far candidates).view := by
  intro near far
  have ordered : candidates.Pairwise fun earlier later =>
      earlier.checkpoint.instant ≤ later.checkpoint.instant :=
    increasing.imp fun less => Int.le_of_lt less
  obtain ⟨accepted, dropped, events⟩ := judged_alike series ordered
  have applied : (near candidates).apply series = (far candidates).view :=
    apply_review ordered marked
  exact ⟨fun front candidate rest => fits_eq_of_split ordered, accepted, dropped, events,
    (carriedOut_eq_apply ..).trans applied, applied⟩

/-- A series with a checkpoint every hour but one. -/
def gappySeries : Series Rat :=
  .ofList [⟨"meter", atMinute 0, 0, .epoch⟩, ⟨"meter", atMinute 60, 10, .epoch⟩,
    ⟨"meter", atMinute 120, 20, .epoch⟩, ⟨"meter", atMinute 180, 30, .epoch⟩,
    ⟨"meter", atMinute 300, 100, .epoch⟩]

/-- Candidates with a checkpoint that stays between them: one for its place before, one that runs
backwards after it, and one for the hour without a checkpoint. -/
def straddlingCandidates : List (Candidate Rat) :=
  [⟨⟨"meter", atMinute 60, 15, atMinute 1440⟩, true⟩,
    ⟨⟨"meter", atMinute 180, 18, atMinute 1440⟩, true⟩,
    ⟨⟨"meter", atMinute 240, 40, atMinute 1440⟩, false⟩]

/-- The one that runs backwards is refused because of the checkpoint that stays, and costs the one
that it was to replace. -/
theorem review_as_of_whole_straddlingCandidates :
    let near := of (gappySeries.neighbourhood straddlingCandidates) straddlingCandidates
    let far := of (gappySeries.without straddlingCandidates) straddlingCandidates
    near.events = [.created, .rejected, .refreshed] ∧ near.dropped = [atMinute 180] ∧
      (near.carriedOut gappySeries).entries.map Checkpoint.energy = [100, 40, 20, 15, 0] ∧
      near.carriedOut gappySeries = far.view := by
  have increasing : straddlingCandidates.Pairwise fun earlier later =>
      earlier.checkpoint.instant < later.checkpoint.instant := by decide +kernel
  have marked : ∀ candidate ∈ straddlingCandidates,
      candidate.replaces = (gappySeries.at? candidate.checkpoint.instant).isSome := by
    decide +kernel
  obtain ⟨_, _, _, _, same, _⟩ :=
    review_as_of_whole gappySeries straddlingCandidates increasing marked
  exact ⟨by decide +kernel, by decide +kernel, by decide +kernel, same⟩

end Review

end Metering
