import Metering.Proofs.Rising

/-!
# Keeping a batch again

Once a checkpoint has been tried, trying it again changes nothing: either its
instant has a checkpoint now, or it does not fit and will not fit a series that
only grows, since a checkpoint that fits among more checkpoints fits among fewer
(`Timeline.Rises.fits_of_subset`). So a batch that is committed twice in a row is
done with after the first time (`CacheSession.commit_again`).
-/

namespace Metering

variable {σ ω : Type} [Scalar σ]

/-- A checkpoint that fits a series that rises fits every part of it. -/
theorem Timeline.Rises.fits_of_subset [Scalar.IsTransitive σ] {series part : Series σ}
    {checkpoint : Checkpoint σ} (rises : series.Rises) (fits : series.fits checkpoint)
    (subset : ∀ entry ∈ part.entries, entry ∈ series.entries) : part.fits checkpoint := by
  obtain ⟨below, above⟩ := rises.forall_of_fits fits
  exact fits_of_forall (fun other member => below other (subset other member))
    fun other member => above other (subset other member)

namespace CheckpointCache

/-- A checkpoint is decided if its instant is taken or it does not fit. -/
def IsDecided (cache : CheckpointCache σ) (checkpoint : Checkpoint σ) : Prop :=
  ((cache.seriesOf checkpoint.source).at? checkpoint.instant).isSome ∨
    ¬ (cache.seriesOf checkpoint.source).fits checkpoint

variable {cache later : CheckpointCache σ} {checkpoint : Checkpoint σ}

/-- A checkpoint that is to be kept is decided afterwards. -/
theorem isDecided_keep (cache : CheckpointCache σ) (checkpoint : Checkpoint σ) :
    (cache.keep checkpoint).1.IsDecided checkpoint := by
  unfold keep
  dsimp only
  split
  · rename_i taken
    exact Or.inl taken
  · split
    · refine Or.inl ?_
      rw [seriesOf_withSeries, if_pos rfl]
      have there : checkpoint ∈
          ((cache.seriesOf checkpoint.source).insert checkpoint).entries :=
        (Timeline.mem_insert ..).2 (Or.inl rfl)
      exact Option.isSome_iff_exists.2 ⟨checkpoint, (Timeline.at?_eq_some_iff ..).2 ⟨there, rfl⟩⟩
    · rename_i misses
      exact Or.inr misses

/-- Keeping a checkpoint that is decided changes nothing and adds nothing. -/
theorem IsDecided.keep_eq (decided : cache.IsDecided checkpoint) :
    (cache.keep checkpoint).1 = cache ∧ (cache.keep checkpoint).2 ≠ some .created := by
  unfold keep
  dsimp only
  split
  · exact ⟨rfl, nofun⟩
  · rename_i free
    rw [if_neg (decided.resolve_left free)]
    exact ⟨rfl, nofun⟩

/-- Keeping checkpoints that are all decided changes nothing and adds nothing. -/
theorem commit_of_decided (batch : List (Checkpoint σ))
    (decided : ∀ checkpoint ∈ batch, cache.IsDecided checkpoint) :
    (cache.commit batch).1 = cache ∧ .created ∉ (cache.commit batch).2 := by
  induction batch with
  | nil => exact ⟨rfl, List.not_mem_nil⟩
  | cons first rest ih =>
    obtain ⟨still, idle⟩ := (decided first List.mem_cons_self).keep_eq
    obtain ⟨same, none⟩ := ih fun checkpoint member =>
      decided checkpoint (List.mem_cons_of_mem first member)
    unfold commit
    dsimp only
    rw [still]
    refine ⟨same, fun added => ?_⟩
    rcases List.mem_append.1 added with now | after
    · exact idle (Option.mem_toList.1 now)
    · exact none after

variable [Scalar.IsTransitive σ]

/-- What is decided stays so as long as the series only grows and does not run backwards. -/
theorem IsDecided.mono (decided : cache.IsDecided checkpoint) (ordered : later.IsOrdered)
    (kept : ∀ entry ∈ (cache.seriesOf checkpoint.source).entries,
      entry ∈ (later.seriesOf checkpoint.source).entries) : later.IsDecided checkpoint := by
  rcases decided with taken | misses
  · obtain ⟨other, found⟩ := Option.isSome_iff_exists.1 taken
    obtain ⟨there, same⟩ := (Timeline.at?_eq_some_iff ..).1 found
    exact Or.inl (Option.isSome_iff_exists.2
      ⟨other, (Timeline.at?_eq_some_iff ..).2 ⟨kept other there, same⟩⟩)
  · exact Or.inr fun fits => misses ((ordered checkpoint.source).1.fits_of_subset fits kept)

/-- Every checkpoint of a batch is decided once the whole batch has been tried. -/
theorem isDecided_commit (batch : List (Checkpoint σ)) {cache : CheckpointCache σ}
    (ordered : cache.IsOrdered) :
    ∀ checkpoint ∈ batch, (cache.commit batch).1.IsDecided checkpoint := by
  induction batch generalizing cache with
  | nil => exact fun _ member => absurd member List.not_mem_nil
  | cons first rest ih =>
    intro checkpoint member
    have next := ordered.keep first
    rcases List.mem_cons.1 member with rfl | member
    · exact (isDecided_keep cache checkpoint).mono (next.commit rest) fun _ there =>
        mem_commit_of_mem rest there
    · exact ih next checkpoint member

end CheckpointCache

namespace CacheSession

variable [Scalar.IsTransitive σ]

/-- Whatever has been done with a new cache, a batch that is committed a second time in a row adds
nothing and leaves the cache as the first time has left it. -/
theorem commit_again (serve : Service σ ω) (config : Config) (world : ω) (now : Instant)
    (actions : List (CacheAction σ)) (batch : List (Checkpoint σ)) :
    let session := (new config world now).run serve actions
    let once := (session.engine.commit batch).2
    let twice := once.commit batch
    twice.1 = 0 ∧ twice.2.cache = once.cache := by
  intro session once twice
  have start : (new config world now : CacheSession σ ω).engine.cache.IsOrdered :=
    CheckpointCache.isOrdered_new config
  have ordered : session.engine.cache.IsOrdered := isOrdered_run start actions
  have decided : ∀ checkpoint ∈ batch, once.cache.IsDecided checkpoint :=
    CheckpointCache.isDecided_commit batch ordered
  obtain ⟨same, none⟩ := CheckpointCache.commit_of_decided batch decided
  exact ⟨List.count_eq_zero.2 none, same⟩

/-- Checkpoints in doubles of which one is no number, one runs backwards, one is for an instant that
comes twice, and one is refused only for one that comes before it. -/
def doubleBatch : List (Checkpoint Float) :=
  [⟨"meter", atMinute 180, notANumber, .epoch⟩, ⟨"meter", atMinute 240, 10, .epoch⟩,
    ⟨"meter", atMinute 240, 11, .epoch⟩, ⟨"meter", atMinute 180, 20, .epoch⟩,
    ⟨"meter", atMinute 300, 1, .epoch⟩, ⟨"spare", atMinute 180, 2, .epoch⟩]

/-- One of these checkpoints is kept the first time, and none is the second time. -/
theorem commit_again_doubleBatch :
    let start : CacheSession Float (Database Float) := new .standard ⟨.empty, .empty⟩ .epoch
    let session := start.run Database.serve doubleActions
    let first := session.engine.commit doubleBatch
    let second := first.2.commit doubleBatch
    first.1 = 1 ∧ second.1 = 0 ∧ second.2.cache = first.2.cache :=
  ⟨by decide +kernel,
    commit_again Database.serve .standard ⟨.empty, .empty⟩ .epoch doubleActions doubleBatch⟩

end CacheSession

end Metering
