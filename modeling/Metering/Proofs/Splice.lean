import Mathlib.Data.List.Induction
import Metering.Proofs.Review
import Metering.Proofs.Scalar

/-!
# Judging against a part of a series

Candidates are tried against the part of a series around them, and what comes
of it is then carried over to the whole. The part mirrors the series without
the checkpoints to be replaced (`mirrors_neighbourhood`): between the first and
the last candidate it has the same entries, and beyond them the same nearest
one. So every candidate is judged as it would be against the whole
(`judged_alike`), and the series ends up as if the accepted ones had been
added to it one after another (`apply_review`). A series in which the counter
never runs backwards therefore stays one (`Rises.apply_review`).
-/

namespace Metering

open Stamped (instant)

namespace Timeline

section Mirrors

variable {α : Type} [Stamped α]

/-- Between two instants a timeline has the entries of another one, and the nearest entry below and
above them. -/
structure Mirrors (view whole : Timeline α) (low high : Instant) : Prop where
  /-- It has no other entries. -/
  subset : ∀ entry ∈ view.entries, entry ∈ whole.entries
  /-- It has the entries between the instants. -/
  inside : ∀ entry ∈ whole.entries, low ≤ instant entry → instant entry ≤ high →
    entry ∈ view.entries
  /-- It has the nearest entry below. -/
  below : view.below? low = whole.below? low
  /-- It has the nearest entry above. -/
  above : view.above? high = whole.above? high

/-- There is nothing before an instant if no entry is. -/
theorem below?_eq_none_iff (timeline : Timeline α) (time : Instant) :
    timeline.below? time = none ↔ ∀ entry ∈ timeline.entries, ¬ instant entry < time := by
  unfold below?
  rw [List.find?_eq_none]
  simp only [decide_eq_true_eq]

/-- There is nothing after an instant if no entry is. -/
theorem above?_eq_none_iff (timeline : Timeline α) (time : Instant) :
    timeline.above? time = none ↔ ∀ entry ∈ timeline.entries, ¬ time < instant entry := by
  have ahead := mem_takeWhile_after timeline.newestFirst time
  unfold above?
  rw [List.getLast?_eq_none_iff, List.eq_nil_iff_forall_not_mem]
  simp only [ahead, not_and]

variable {view whole : Timeline α} {low high time : Instant}

/-- A part of a timeline has the nearest entry below an instant if that one is in the part. -/
theorem below?_eq_of_subset (subset : ∀ entry ∈ view.entries, entry ∈ whole.entries)
    (kept : ∀ nearest, whole.below? time = some nearest → nearest ∈ view.entries) :
    view.below? time = whole.below? time := by
  cases found : whole.below? time with
  | none =>
    rw [below?_eq_none_iff] at found ⊢
    exact fun entry member => found entry (subset entry member)
  | some nearest =>
    have member := kept nearest found
    rw [below?_eq_some_iff] at found ⊢
    exact ⟨member, found.2.1, fun other held => found.2.2 other (subset other held)⟩

/-- A part of a timeline has the nearest entry above an instant if that one is in the part. -/
theorem above?_eq_of_subset (subset : ∀ entry ∈ view.entries, entry ∈ whole.entries)
    (kept : ∀ nearest, whole.above? time = some nearest → nearest ∈ view.entries) :
    view.above? time = whole.above? time := by
  cases found : whole.above? time with
  | none =>
    rw [above?_eq_none_iff] at found ⊢
    exact fun entry member => found entry (subset entry member)
  | some nearest =>
    have member := kept nearest found
    rw [above?_eq_some_iff] at found ⊢
    exact ⟨member, found.2.1, fun other held => found.2.2 other (subset other held)⟩

/-- Between the two instants the nearest entry below is the same. -/
theorem Mirrors.below?_eq (mirrors : view.Mirrors whole low high) (least : low ≤ time)
    (most : time ≤ high) : view.below? time = whole.below? time := by
  refine below?_eq_of_subset mirrors.subset fun nearest found => ?_
  obtain ⟨member, less, greatest⟩ := (below?_eq_some_iff ..).1 found
  by_cases between : low ≤ instant nearest
  · exact mirrors.inside nearest member between (Int.le_trans (Int.le_of_lt less) most)
  · -- Nothing lies from the lower instant on, so this is the nearest entry below that one too.
    have same : whole.below? low = some nearest := (below?_eq_some_iff ..).2
      ⟨member, Int.not_le.1 between, fun other held before =>
        greatest other held (Int.lt_of_lt_of_le before least)⟩
    exact ((below?_eq_some_iff ..).1 (mirrors.below.trans same)).1

/-- Between the two instants the nearest entry above is the same. -/
theorem Mirrors.above?_eq (mirrors : view.Mirrors whole low high) (least : low ≤ time)
    (most : time ≤ high) : view.above? time = whole.above? time := by
  refine above?_eq_of_subset mirrors.subset fun nearest found => ?_
  obtain ⟨member, more, smallest⟩ := (above?_eq_some_iff ..).1 found
  by_cases between : instant nearest ≤ high
  · exact mirrors.inside nearest member (Int.le_trans least (Int.le_of_lt more)) between
  · -- Nothing lies up to the higher instant, so this is the nearest entry above that one too.
    have same : whole.above? high = some nearest := (above?_eq_some_iff ..).2
      ⟨member, Int.not_le.1 between, fun other held after =>
        smallest other held (Int.lt_of_le_of_lt most after)⟩
    exact ((above?_eq_some_iff ..).1 (mirrors.above.trans same)).1

/-- An entry at or after an instant makes no difference to what is below it. -/
theorem below?_insert (timeline : Timeline α) {entry : α} (le : time ≤ instant entry) :
    (timeline.insert entry).below? time = timeline.below? time := by
  have apart : ∀ other ∈ timeline.entries, instant other < time → instant other ≠ instant entry :=
    fun other _ less same => Int.not_lt.2 le (same ▸ less)
  refine Option.ext fun nearest => ?_
  simp only [below?_eq_some_iff, mem_insert]
  constructor
  · rintro ⟨rfl | ⟨member, _⟩, less, greatest⟩
    · exact absurd less (Int.not_lt.2 le)
    · exact ⟨member, less, fun other held before =>
        greatest other (Or.inr ⟨held, apart other held before⟩) before⟩
  · rintro ⟨member, less, greatest⟩
    refine ⟨Or.inr ⟨member, apart nearest member less⟩, less, ?_⟩
    rintro other (rfl | ⟨held, _⟩) before
    · exact absurd before (Int.not_lt.2 le)
    · exact greatest other held before

/-- An entry at or before an instant makes no difference to what is above it. -/
theorem above?_insert (timeline : Timeline α) {entry : α} (le : instant entry ≤ time) :
    (timeline.insert entry).above? time = timeline.above? time := by
  have apart : ∀ other ∈ timeline.entries, time < instant other → instant other ≠ instant entry :=
    fun other _ more same => Int.not_lt.2 le (same ▸ more)
  refine Option.ext fun nearest => ?_
  simp only [above?_eq_some_iff, mem_insert]
  constructor
  · rintro ⟨rfl | ⟨member, _⟩, more, smallest⟩
    · exact absurd more (Int.not_lt.2 le)
    · exact ⟨member, more, fun other held after =>
        smallest other (Or.inr ⟨held, apart other held after⟩) after⟩
  · rintro ⟨member, more, smallest⟩
    refine ⟨Or.inr ⟨member, apart nearest member more⟩, more, ?_⟩
    rintro other (rfl | ⟨held, _⟩) after
    · exact absurd after (Int.not_lt.2 le)
    · exact smallest other held after

/-- A timeline goes on mirroring another one if both take in an entry between the instants. -/
theorem Mirrors.insert (mirrors : view.Mirrors whole low high) {entry : α}
    (least : low ≤ instant entry) (most : instant entry ≤ high) :
    (view.insert entry).Mirrors (whole.insert entry) low high where
  subset other member := by
    rw [mem_insert] at member ⊢
    exact member.imp_right fun held => ⟨mirrors.subset other held.1, held.2⟩
  inside other member lower upper := by
    rw [mem_insert] at member ⊢
    exact member.imp_right fun held => ⟨mirrors.inside other held.1 lower upper, held.2⟩
  below := by rw [below?_insert _ least, below?_insert _ least, mirrors.below]
  above := by rw [above?_insert _ most, above?_insert _ most, mirrors.above]

/-- What a timeline holds after insertions: the inserted entries, and elsewhere what it held. -/
theorem mem_foldl_insert_iff (entries : List α) (timeline : Timeline α) (entry : α) :
    entry ∈ (entries.foldl Timeline.insert timeline).entries ↔
      entry ∈ (ofList entries).entries ∨
        entry ∈ timeline.entries ∧ ∀ other ∈ entries, instant other ≠ instant entry := by
  induction entries using List.reverseRecOn with
  | nil => simp [ofList, empty]
  | append_singleton front last ih =>
    unfold ofList at ih ⊢
    simp only [List.foldl_append, List.foldl_cons, List.foldl_nil, mem_insert, ih,
      List.mem_append, List.mem_singleton]
    grind

end Mirrors

/-! ## The part of a series around candidates -/

section Neighbourhood

variable {σ : Type} {series : Series σ} {candidates : List (Candidate σ)}

/-- A series without its checkpoints at the instants of candidates. -/
def without (series : Series σ) (candidates : List (Candidate σ)) : Series σ :=
  series.difference (ofList (candidates.map Candidate.checkpoint))

/-- What is left without the checkpoints at the instants of candidates. -/
theorem mem_without_iff (checkpoint : Checkpoint σ) :
    checkpoint ∈ (series.without candidates).entries ↔ checkpoint ∈ series.entries ∧
      ∀ candidate ∈ candidates, candidate.checkpoint.instant ≠ checkpoint.instant := by
  unfold without
  rw [mem_difference]
  refine and_congr_right fun _ =>
    ⟨fun apart candidate member same => ?_, fun apart other held => ?_⟩
  · obtain ⟨other, held, equal⟩ :=
      exists_mem_ofList (List.mem_map_of_mem (f := Candidate.checkpoint) member)
    exact apart other held (equal.trans same)
  · obtain ⟨candidate, member, rfl⟩ := List.mem_map.1 (mem_of_mem_ofList held)
    exact apart candidate member

/-- Checkpoints from an instant on make no difference to what is below it. -/
theorem below?_without {low : Instant}
    (least : ∀ candidate ∈ candidates, low ≤ candidate.checkpoint.instant) :
    (series.without candidates).below? low = series.below? low := by
  refine below?_eq_of_subset (fun checkpoint member => ((mem_without_iff _).1 member).1)
    fun nearest found => ?_
  obtain ⟨member, less, _⟩ := (below?_eq_some_iff ..).1 found
  exact (mem_without_iff nearest).2 ⟨member, fun candidate proposed same =>
    Int.not_lt.2 (least candidate proposed) (same ▸ less)⟩

/-- Checkpoints up to an instant make no difference to what is above it. -/
theorem above?_without {high : Instant}
    (most : ∀ candidate ∈ candidates, candidate.checkpoint.instant ≤ high) :
    (series.without candidates).above? high = series.above? high := by
  refine above?_eq_of_subset (fun checkpoint member => ((mem_without_iff _).1 member).1)
    fun nearest found => ?_
  obtain ⟨member, more, _⟩ := (above?_eq_some_iff ..).1 found
  exact (mem_without_iff nearest).2 ⟨member, fun candidate proposed same =>
    Int.not_lt.2 (most candidate proposed) (same ▸ more)⟩

/-- The part of a series that candidates are tried against mirrors the series without the
checkpoints at their instants. -/
theorem mirrors_neighbourhood {first last : Candidate σ} (head : candidates.head? = some first)
    (tail : candidates.getLast? = some last)
    (least : ∀ candidate ∈ candidates, first.checkpoint.instant ≤ candidate.checkpoint.instant)
    (most : ∀ candidate ∈ candidates, candidate.checkpoint.instant ≤ last.checkpoint.instant) :
    (series.neighbourhood candidates).Mirrors (series.without candidates)
      first.checkpoint.instant last.checkpoint.instant := by
  have order := least last (List.mem_of_getLast? tail)
  have below : (series.without candidates).below? first.checkpoint.instant =
    series.below? first.checkpoint.instant := below?_without least
  have above : (series.without candidates).above? last.checkpoint.instant =
    series.above? last.checkpoint.instant := above?_without most
  generalize lowDef : first.checkpoint.instant = low at *
  generalize highDef : last.checkpoint.instant = high at *
  let lowest := ((series.below? low).map Checkpoint.instant).getD low
  let highest := ((series.above? high).map Checkpoint.instant).getD high
  have held : ∀ checkpoint, checkpoint ∈ (series.neighbourhood candidates).entries ↔
      checkpoint ∈ (series.without candidates).entries ∧
        lowest ≤ checkpoint.instant ∧ checkpoint.instant ≤ highest := by
    intro checkpoint
    have same : series.neighbourhood candidates =
        (series.between lowest highest).without candidates := by
      unfold neighbourhood
      simp only [head, tail, lowDef, highDef]
      rfl
    rw [same, mem_without_iff, mem_without_iff, mem_between]
    exact and_right_comm
  have subset := fun checkpoint member => ((held checkpoint).1 member).1
  have lowestLe : lowest ≤ low := by
    cases found : series.below? low with
    | none => exact Int.le_of_eq (by simp [lowest, found])
    | some nearest =>
      have same : lowest = nearest.instant := by simp [lowest, found]
      exact same ▸ Int.le_of_lt ((below?_eq_some_iff ..).1 found).2.1
  have leHighest : high ≤ highest := by
    cases found : series.above? high with
    | none => exact Int.le_of_eq (by simp [highest, found])
    | some nearest =>
      have same : highest = nearest.instant := by simp [highest, found]
      exact same ▸ Int.le_of_lt ((above?_eq_some_iff ..).1 found).2.1
  refine ⟨subset, fun checkpoint member lower upper => (held checkpoint).2
    ⟨member, Int.le_trans lowestLe lower, Int.le_trans upper leHighest⟩,
    below?_eq_of_subset subset fun nearest found => ?_,
    above?_eq_of_subset subset fun nearest found => ?_⟩
  · obtain ⟨member, less, _⟩ := (below?_eq_some_iff ..).1 found
    have same : lowest = nearest.instant := by simp [lowest, ← below, found]
    exact (held nearest).2 ⟨member, Int.le_of_eq (congrArg Instant.nanos same),
      Int.le_trans (Int.le_of_lt less) (Int.le_trans order leHighest)⟩
  · obtain ⟨member, more, _⟩ := (above?_eq_some_iff ..).1 found
    have same : highest = nearest.instant := by simp [highest, ← above, found]
    exact (held nearest).2 ⟨member, Int.le_trans (Int.le_trans lowestLe order) (Int.le_of_lt more),
      Int.le_of_eq (congrArg Instant.nanos same.symm)⟩

end Neighbourhood

end Timeline

/-! ## Judging -/

namespace Review

variable {σ : Type} [Scalar σ] {series : Series σ} {candidates : List (Candidate σ)}

/-- Two reviews have come to the same, the one seeing between two instants what the other sees. -/
structure Alike (part whole : Review σ) (low high : Instant) : Prop where
  /-- What the one sees mirrors what the other sees. -/
  view : part.view.Mirrors whole.view low high
  /-- The same checkpoints are accepted. -/
  accepted : part.accepted = whole.accepted
  /-- The same instants are dropped. -/
  dropped : part.dropped = whole.dropped
  /-- The same has happened to each candidate. -/
  events : part.events = whole.events

/-- A checkpoint between the instants fits what the one sees if it fits what the other sees. -/
theorem Alike.fits_eq {part whole : Review σ} {low high : Instant}
    (alike : part.Alike whole low high) {checkpoint : Checkpoint σ}
    (least : low ≤ checkpoint.instant) (most : checkpoint.instant ≤ high) :
    part.view.fits checkpoint = whole.view.fits checkpoint := by
  unfold Timeline.fits
  rw [alike.view.below?_eq least most, alike.view.above?_eq least most]

/-- A candidate between the instants is judged the same way. -/
theorem Alike.judge {part whole : Review σ} {low high : Instant} (alike : part.Alike whole low high)
    {candidate : Candidate σ} (least : low ≤ candidate.checkpoint.instant)
    (most : candidate.checkpoint.instant ≤ high) :
    (judge part candidate).Alike (judge whole candidate) low high := by
  have fits := alike.fits_eq least most
  by_cases accepted : whole.view.fits candidate.checkpoint
  · rw [judge_of_fits (fits.trans accepted), judge_of_fits accepted]
    exact ⟨alike.view.insert least most, by rw [alike.accepted], alike.dropped,
      by rw [alike.events]⟩
  · have refused : ¬ part.view.fits candidate.checkpoint := fits ▸ accepted
    rw [judge_of_not_fits refused, judge_of_not_fits accepted]
    exact ⟨alike.view, alike.accepted, by rw [alike.dropped], by rw [alike.events]⟩

/-- Candidates between the instants are judged the same way one after another. -/
theorem Alike.foldl_judge {part whole : Review σ} {low high : Instant}
    (alike : part.Alike whole low high)
    (least : ∀ candidate ∈ candidates, low ≤ candidate.checkpoint.instant)
    (most : ∀ candidate ∈ candidates, candidate.checkpoint.instant ≤ high) :
    (candidates.foldl Review.judge part).Alike (candidates.foldl Review.judge whole) low high := by
  induction candidates generalizing part whole with
  | nil => exact alike
  | cons first rest ih =>
    exact ih (alike.judge (least first List.mem_cons_self) (most first List.mem_cons_self))
      (fun candidate member => least candidate (List.mem_cons_of_mem first member))
      (fun candidate member => most candidate (List.mem_cons_of_mem first member))

omit [Scalar σ] in
/-- The part of a series around candidates in order mirrors the series without the checkpoints at
their instants, between two instants that the candidates lie between. -/
theorem exists_mirrors (series : Series σ) (ordered : candidates.Pairwise fun earlier later =>
      earlier.checkpoint.instant ≤ later.checkpoint.instant) (some : candidates ≠ []) :
    ∃ low high, (series.neighbourhood candidates).Mirrors (series.without candidates) low high ∧
      ∀ candidate ∈ candidates,
        low ≤ candidate.checkpoint.instant ∧ candidate.checkpoint.instant ≤ high := by
  have head := List.head?_eq_some_head some
  have tail := List.getLast?_eq_some_getLast some
  generalize candidates.head some = first at head
  generalize candidates.getLast some = last at tail
  have least : ∀ candidate ∈ candidates,
      first.checkpoint.instant ≤ candidate.checkpoint.instant := by
    obtain ⟨rest, rfl⟩ := List.head?_eq_some_iff.1 head
    intro candidate member
    rcases List.mem_cons.1 member with rfl | member
    · exact Int.le_refl _
    · exact List.rel_of_pairwise_cons ordered member
  have most : ∀ candidate ∈ candidates,
      candidate.checkpoint.instant ≤ last.checkpoint.instant := by
    obtain ⟨front, rfl⟩ := List.getLast?_eq_some_iff.1 tail
    intro candidate member
    rcases List.mem_append.1 member with member | member
    · exact (List.pairwise_append.1 ordered).2.2 candidate member last List.mem_cons_self
    · rw [List.mem_singleton.1 member]
      exact Int.le_refl _
  exact ⟨_, _, Timeline.mirrors_neighbourhood head tail least most,
    fun candidate member => ⟨least candidate member, most candidate member⟩⟩

/-- Candidates in order are judged against the part of a series around them as they would be against
the whole series without the checkpoints at their instants. -/
theorem judged_alike (series : Series σ) (ordered : candidates.Pairwise fun earlier later =>
      earlier.checkpoint.instant ≤ later.checkpoint.instant) :
    (of (series.neighbourhood candidates) candidates).accepted =
        (of (series.without candidates) candidates).accepted ∧
      (of (series.neighbourhood candidates) candidates).dropped =
        (of (series.without candidates) candidates).dropped ∧
      (of (series.neighbourhood candidates) candidates).events =
        (of (series.without candidates) candidates).events := by
  by_cases none : candidates = []
  · rw [none]
    exact ⟨rfl, rfl, rfl⟩
  · obtain ⟨low, high, mirrors, between⟩ := exists_mirrors series ordered none
    have alike : (of (series.neighbourhood candidates) candidates).Alike
        (of (series.without candidates) candidates) low high :=
      Alike.foldl_judge ⟨mirrors, rfl, rfl, rfl⟩ (fun candidate member => (between _ member).1)
        fun candidate member => (between _ member).2
    exact ⟨alike.accepted, alike.dropped, alike.events⟩

/-- What a review sees in the end is what it saw with the accepted checkpoints added. -/
theorem view_foldl_judge (candidates : List (Candidate σ)) (review : Review σ) (base : Series σ)
    (same : review.view = review.accepted.reverse.foldl Timeline.insert base) :
    (candidates.foldl judge review).view =
      (candidates.foldl judge review).accepted.reverse.foldl Timeline.insert base := by
  induction candidates generalizing review with
  | nil => exact same
  | cons first rest ih =>
    refine ih (judge review first) ?_
    by_cases fits : review.view.fits first.checkpoint
    · rw [judge_of_fits fits, List.reverse_cons, List.foldl_append, ← same]
      rfl
    · rw [judge_of_not_fits fits]
      exact same

/-- A review of candidates in order leaves a series as if they had been tried one after another on
the whole series without the checkpoints at their instants. -/
theorem apply_review (ordered : candidates.Pairwise fun earlier later =>
      earlier.checkpoint.instant ≤ later.checkpoint.instant)
    (marked : ∀ candidate ∈ candidates,
      candidate.replaces = (series.at? candidate.checkpoint.instant).isSome) :
    (of (series.neighbourhood candidates) candidates).apply series =
      (of (series.without candidates) candidates).view := by
  obtain ⟨accepted, dropped, _⟩ := judged_alike series ordered
  have seen : (of (series.without candidates) candidates).view =
      (of (series.without candidates) candidates).accepted.reverse.foldl Timeline.insert
        (series.without candidates) := view_foldl_judge candidates _ _ rfl
  refine Timeline.ext_of_mem_iff fun checkpoint => ?_
  rw [mem_apply_iff, seen, Timeline.mem_foldl_insert_iff, accepted, dropped]
  refine or_congr_right ?_
  simp only [Timeline.mem_without_iff, List.mem_reverse, and_assoc]
  refine and_congr_right fun there => ?_
  rw [and_comm, and_comm (b := ∀ other ∈ _, _)]
  refine and_congr_right fun apart => ⟨fun stays candidate member same => ?_, fun free gone => ?_⟩
  · -- A candidate at the instant of a checkpoint that is there is to take its place.
    rcases accepted_or_dropped candidates _ member with taken | goes
    · exact apart candidate.checkpoint taken same
    · have found : series.at? candidate.checkpoint.instant = some checkpoint :=
        (Timeline.at?_eq_some_iff ..).2 ⟨there, same.symm⟩
      have replaces : candidate.replaces := by rw [marked candidate member, found]; rfl
      exact stays (same ▸ goes replaces)
  · rcases mem_dropped_foldl_judge candidates _ gone with nothing | ⟨candidate, member, _, same⟩
    · cases nothing
    · exact free candidate member same

end Review

/-! ## Counters that never run backwards -/

/-- The counter of a series does not run backwards from any of its checkpoints to any later one. -/
def Timeline.Rises {σ : Type} [Scalar σ] (series : Series σ) : Prop :=
  ∀ earlier ∈ series.entries, ∀ later ∈ series.entries, earlier.instant < later.instant →
    Scalar.atMost earlier.energy later.energy

namespace Timeline

variable {σ : Type} [Scalar σ] {series : Series σ} {checkpoint : Checkpoint σ}

/-- The empty series rises. -/
theorem rises_empty : (empty : Series σ).Rises := fun _ member => absurd member List.not_mem_nil

/-- A part of a series that rises does so too. -/
theorem Rises.subset {part : Series σ} (rises : series.Rises)
    (subset : ∀ entry ∈ part.entries, entry ∈ series.entries) : part.Rises :=
  fun earlier member later held => rises earlier (subset earlier member) later (subset later held)

/-- A checkpoint whose counter compares with nothing is alone in a series that rises. -/
theorem Rises.eq_singleton (rises : series.Rises) (member : checkpoint ∈ series.entries)
    (unordered : ∀ value, ¬ Scalar.atMost checkpoint.energy value ∧
      ¬ Scalar.atMost value checkpoint.energy) : series.entries = [checkpoint] := by
  have alone : ∀ other ∈ series.entries, other = checkpoint := by
    intro other held
    rcases Int.lt_trichotomy other.instant.nanos checkpoint.instant.nanos with
      less | same | more
    · exact absurd (rises other held checkpoint member less) (unordered other.energy).2
    · exact series.eq_of_instant_eq held member (Instant.ext same)
    · exact absurd (rises checkpoint member other held more) (unordered other.energy).1
  have same : series = ⟨[checkpoint], List.pairwise_singleton ..⟩ :=
    ext_of_mem_iff fun other => by
      rw [List.mem_singleton]
      exact ⟨alone other, fun equal => equal ▸ member⟩
  rw [same]

variable [Scalar.IsTransitive σ]

/-- In a series that rises, a checkpoint that fits between its neighbours fits all others. -/
theorem Rises.forall_of_fits (rises : series.Rises) (fits : series.fits checkpoint) :
    (∀ other ∈ series.entries, other.instant < checkpoint.instant →
      Scalar.atMost other.energy checkpoint.energy) ∧
    ∀ other ∈ series.entries, checkpoint.instant < other.instant →
      Scalar.atMost checkpoint.energy other.energy := by
  unfold Timeline.fits at fits
  rw [Bool.and_eq_true, Option.all_eq_true, Option.all_eq_true] at fits
  constructor
  · intro other member less
    cases found : series.below? checkpoint.instant with
    | none => exact absurd less ((below?_eq_none_iff ..).1 found other member)
    | some nearest =>
      have near := fits.1 nearest found
      obtain ⟨held, _, greatest⟩ := (below?_eq_some_iff ..).1 found
      rcases Int.lt_or_eq_of_le (greatest other member less) with before | same
      · exact Scalar.IsTransitive.atMost_trans (rises other member nearest held before) near
      · rw [series.eq_of_instant_eq member held (Instant.ext same)]
        exact near
  · intro other member more
    cases found : series.above? checkpoint.instant with
    | none => exact absurd more ((above?_eq_none_iff ..).1 found other member)
    | some nearest =>
      have near := fits.2 nearest found
      obtain ⟨held, _, smallest⟩ := (above?_eq_some_iff ..).1 found
      rcases Int.lt_or_eq_of_le (smallest other member more) with after | same
      · exact Scalar.IsTransitive.atMost_trans near (rises nearest held other member after)
      · rw [← series.eq_of_instant_eq held member (Instant.ext same)]
        exact near

/-- A series goes on rising with a checkpoint that fits. -/
theorem Rises.insert (rises : series.Rises) (fits : series.fits checkpoint) :
    (series.insert checkpoint).Rises := by
  obtain ⟨below, above⟩ := rises.forall_of_fits fits
  intro earlier member later held less
  rcases (mem_insert ..).1 member with rfl | ⟨there, _⟩
  · rcases (mem_insert ..).1 held with rfl | ⟨other, _⟩
    · exact absurd less (Int.lt_irrefl _)
    · exact above later other less
  · rcases (mem_insert ..).1 held with rfl | ⟨other, _⟩
    · exact below earlier there less
    · exact rises earlier there later other less

/-- What a review sees goes on rising. -/
theorem Rises.foldl_judge (candidates : List (Candidate σ)) (review : Review σ)
    (rises : review.view.Rises) : (candidates.foldl Review.judge review).view.Rises := by
  induction candidates generalizing review with
  | nil => exact rises
  | cons first rest ih =>
    refine ih (Review.judge review first) ?_
    by_cases fits : review.view.fits first.checkpoint
    · rw [Review.judge_of_fits fits]
      exact rises.insert fits
    · rw [Review.judge_of_not_fits fits]
      exact rises

/-- A series goes on rising after a review of candidates in order. -/
theorem Rises.apply_review (rises : series.Rises) {candidates : List (Candidate σ)}
    (ordered : candidates.Pairwise fun earlier later =>
      earlier.checkpoint.instant ≤ later.checkpoint.instant)
    (marked : ∀ candidate ∈ candidates,
      candidate.replaces = (series.at? candidate.checkpoint.instant).isSome) :
    ((Review.of (series.neighbourhood candidates) candidates).apply series).Rises := by
  rw [Review.apply_review ordered marked]
  have part : (series.without candidates).Rises :=
    rises.subset fun entry member => ((mem_without_iff entry).1 member).1
  exact Rises.foldl_judge candidates ⟨series.without candidates, [], [], []⟩ part

end Timeline

end Metering
