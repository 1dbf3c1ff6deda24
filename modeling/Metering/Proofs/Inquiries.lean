import Metering.Proofs.Runs

/-!
# Everything that can be asked

Besides the queries that look counters up, an engine answers what the power of
a source is and how its energy is spread over an interval. An inquiry is any of
these, told by the type of its answer. One that is well formed polls before it
asks the service for anything (`exists_polled`), and every inquiry only looks
things up (`uses_attempt`).
-/

namespace Metering

variable {σ α β ω : Type}

/-- What an engine can be asked, by the type of the answer. -/
inductive Inquiry (σ : Type) : Type → Type where
  /-- A query that looks counters up. -/
  | query (query : Query) : Inquiry σ σ
  /-- The power at an instant. -/
  | power (id : SourceId) (time : Instant) : Inquiry σ σ
  /-- The energy over an interval, cut into buckets of a step. -/
  | profile (id : SourceId) (start stop : Instant) (step : Span) :
    Inquiry σ (List (CheckpointCache.Bucket σ))

/-- The interval of a query does not end before it starts, and has a length if it is needed. -/
def Query.IsWellFormed : Query → Prop
  | counterAt _ _ => True
  | energy _ start stop => start ≤ stop
  | carbon _ start stop => start ≤ stop
  | averagePower _ start stop => start < stop

/-- A well formed query is not refused for its interval. -/
theorem Query.guard_eq_ok {query : Query} (wellFormed : query.IsWellFormed) :
    query.guard = .ok () := by
  have forwards {start stop : Instant} (le : start ≤ stop) :
      guard.checkInterval start stop = .ok () := if_neg (Int.not_lt.2 le)
  cases query with
  | counterAt id time => rfl
  | energy id start stop => exact forwards wellFormed
  | carbon id start stop => exact forwards wellFormed
  | averagePower id start stop =>
    have less : start < stop := wellFormed
    have moves : start ≠ stop := Instant.ne_of_lt less
    simp only [guard, forwards (Int.le_of_lt less), if_neg moves]
    rfl

/-- The brackets of a list of targets only need lookups. -/
theorem Bracket.uses_findAll (id : SourceId) (targets : List Instant) (field : Field) :
    (findAll id targets field : Attempt σ (List (Bracket σ))).Uses Request.IsLookup
      CacheEvent.IsOfLookup := by
  have uses_missing (target : Instant) : (missing id target field : Attempt σ QueryError).Uses
      Request.IsLookup CacheEvent.IsOfLookup := by
    refine (Attempt.uses_request trivial).bind fun oldest => ?_
    cases oldest <;> exact Attempt.uses_pure _
  unfold findAll
  split
  · split
    · exact Attempt.uses_throw _
    · refine (Attempt.uses_request trivial).bind fun lower => ?_
      cases lower with
      | none => exact (uses_missing _).bind fun error => Attempt.uses_throw error
      | some lower =>
        refine (Attempt.uses_request trivial).bind fun upper => ?_
        cases upper with
        | none => exact (uses_missing _).bind fun error => Attempt.uses_throw error
        | some upper =>
          refine (Attempt.uses_request trivial).bind fun (readings : List (Reading σ)) => ?_
          dsimp only
          split
          · exact Attempt.uses_throw _
          · exact Attempt.uses_ofExcept _
  · exact Attempt.uses_pure _

variable [Scalar σ]

namespace CheckpointCache

/-- A power only needs lookups. -/
theorem uses_power (id : SourceId) (time : Instant) :
    (power id time : Attempt σ (Answer σ σ)).Uses Request.IsLookup CacheEvent.IsOfLookup := by
  unfold power
  refine (Graph.uses_flatten id).polled.bind fun leaves => ?_
  refine (Attempt.Uses.foldlM (fun total flat => ?_) Scalar.zero).bind fun total =>
    Attempt.uses_pure _
  exact (Bracket.uses_valueAt flat.leaf.id time .power).polled.bind fun value =>
    Attempt.uses_pure _

/-- A profile only needs lookups. -/
theorem uses_profile (id : SourceId) (start stop : Instant) (step : Span) :
    (profile id start stop step : Attempt σ (Answer σ (List (Bucket σ)))).Uses Request.IsLookup
      CacheEvent.IsOfLookup := by
  unfold profile
  refine (uses_checkInterval start stop).bind fun _ => ?_
  dsimp only
  split
  · exact Attempt.uses_throw (.badInterval "profile step must be at least one millisecond")
  · refine (Graph.uses_flatten id).polled.bind fun leaves => ?_
    split
    · exact Attempt.uses_pure _
    · refine (Attempt.uses_ofExcept _).bind fun edges => ?_
      refine (Attempt.Uses.foldlM (fun buckets flat => ?_) _).bind fun buckets =>
        Attempt.uses_pure _
      refine (Bracket.uses_findAll flat.leaf.id edges .cumulativeEnergy).polled.bind
        fun brackets => ?_
      exact (Attempt.uses_ofExcept _).bind fun counters => Attempt.uses_pure _

end CheckpointCache

namespace Inquiry

/-- The interval of an inquiry does not end before it starts, and its step is a millisecond at
least. -/
def IsWellFormed : Inquiry σ α → Prop
  | query asked => asked.IsWellFormed
  | power _ _ => True
  | profile _ start stop step => start ≤ stop ∧ .ofMillis 1 ≤ step

/-- The attempt that answers an inquiry. -/
def attempt (cache : CheckpointCache σ) (now : Instant) : Inquiry σ α → Attempt σ (Answer σ α)
  | query asked => asked.attempt cache now
  | power id time => CheckpointCache.power id time
  | profile id start stop step => CheckpointCache.profile id start stop step

variable (cache : CheckpointCache σ) (now : Instant)

/-- An inquiry only looks things up. -/
theorem uses_attempt (inquiry : Inquiry σ α) :
    (inquiry.attempt cache now).Uses Request.IsLookup CacheEvent.IsOfLookup := by
  unfold attempt
  cases inquiry with
  | query asked => exact asked.uses_attempt cache now
  | power id time => exact CheckpointCache.uses_power id time
  | profile id start stop step => exact CheckpointCache.uses_profile id start stop step

/-- A well formed inquiry polls before it does anything else. -/
theorem exists_polled {inquiry : Inquiry σ α} (wellFormed : inquiry.IsWellFormed) :
    ∃ (β : Type) (first : Attempt σ β) (next : β → Attempt σ (Answer σ α)),
      inquiry.attempt cache now = (first.polled >>= next) := by
  unfold attempt
  cases inquiry with
  | query asked =>
    have guarded := asked.guardedBy cache now
    rw [Query.guard_eq_ok wellFormed] at guarded
    obtain ⟨β, first, next, same⟩ := guarded
    exact ⟨β, first, next, same⟩
  | power id time => exact ⟨_, Graph.flatten id, _, rfl⟩
  | profile id start stop step =>
    have forwards : ¬ stop < start := Int.not_lt.2 wellFormed.1
    have long : ¬ step < .ofMillis 1 := Int.not_lt.2 wellFormed.2
    unfold CheckpointCache.profile CheckpointCache.checkInterval
    simp only [if_neg forwards, if_neg long]
    exact ⟨_, Graph.flatten id, _, rfl⟩

end Inquiry

namespace Engine

/-- Answers an inquiry under some limits and keeps the checkpoints that it found. -/
def inquire (engine : Engine σ ω) (serve : Service σ ω) (limits : Limits)
    (inquiry : Inquiry σ α) : Except QueryError α × Engine σ ω :=
  engine.query serve limits (inquiry.attempt engine.cache engine.now)

/-- Over a database in memory an inquiry is answered with what it comes to, unless a limit has come
when it is made. -/
theorem inquire_fst {engine : Engine σ (Database σ)} {limits : Limits}
    (open_ : limits.check engine.progress.elapsed = none) (inquiry : Inquiry σ α) :
    (engine.inquire Database.serve limits inquiry).1 =
      ((inquiry.attempt engine.cache engine.now).result engine.progress.world).map
        Answer.value := by
  unfold inquire query
  rw [perform_eq open_ (inquiry.uses_attempt engine.cache engine.now)]
  cases (inquiry.attempt engine.cache engine.now).result engine.progress.world with
  | error error => rfl
  | ok answer => rfl

end Engine

end Metering
