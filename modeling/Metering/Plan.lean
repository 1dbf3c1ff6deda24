import Metering.Cancellation
import Metering.Source
import Metering.Time.Window

/-!
# Plans

A plan is the work of a query or an ingestion seen from outside: the requests
it makes of the store and the catalog, one after another, each depending on the
answers before it. The counters it raises and the places where it can be
abandoned before the next request stand between them. What a plan does is
settled by a service that answers requests; the plan knows nothing of faults,
waiting or deadlines.
-/

namespace Metering

/-- What happens in the checkpoint cache and is counted. -/
inductive CacheEvent where
  /-- A lookup was answered from a checkpoint. -/
  | hit
  /-- A lookup went to the readings because no checkpoint applied. -/
  | coldRead
  /-- A lookup was too recent to consult the cache. -/
  | windowBypass
  /-- A checkpoint was added. -/
  | created
  /-- A checkpoint was worked out again. -/
  | refreshed
  /-- A finalized checkpoint was left as it was. -/
  | frozenSkip
  /-- A checkpoint was refused because the counter would have run backwards. -/
  | rejected
  /-- A use of the cache was given up because the store failed. -/
  | fallback
deriving DecidableEq, Repr

/-- What a plan asks of the store or the catalog. -/
inductive Request (σ : Type) where
  /-- Adds a reading. -/
  | insert (reading : Reading σ)
  /-- Looks for the newest reading at or before an instant. -/
  | nearestBefore (source : SourceId) (time : Instant) (field : Field)
  /-- Looks for the oldest reading at or after an instant. -/
  | nearestAfter (source : SourceId) (time : Instant) (field : Field)
  /-- Looks for the readings in a window. -/
  | range (source : SourceId) (window : Window) (field : Field)
  /-- Looks for a definition. -/
  | definition (source : SourceId)
  /-- Counts the definitions. -/
  | definitionCount
deriving Repr

/-- The type of the answer to a request. -/
def Request.Answer {σ : Type} : Request σ → Type
  | .insert _ => Unit
  | .nearestBefore _ _ _ => Option (Reading σ)
  | .nearestAfter _ _ _ => Option (Reading σ)
  | .range _ _ _ => List (Reading σ)
  | .definition _ => Option (Source σ)
  | .definitionCount => Nat

/-- A course of requests with a result of type `α`. -/
inductive Plan (σ α : Type) where
  /-- The plan is over. -/
  | done (result : α)
  /-- The plan makes a request and goes on with its answer. -/
  | ask (request : Request σ) (next : Except StoreError request.Answer → Plan σ α)
  /-- The plan raises a counter and goes on. -/
  | tally (event : CacheEvent) (next : Plan σ α)
  /-- The plan goes on unless it is out of time. -/
  | poll (next : Plan σ α)

namespace Plan

variable {σ α β γ : Type}

/-- One plan after another, the second depending on the result of the first. -/
def bind : Plan σ α → (α → Plan σ β) → Plan σ β
  | done result, next => next result
  | ask request rest, next => ask request fun answer => bind (rest answer) next
  | tally event rest, next => tally event (bind rest next)
  | poll rest, next => poll (bind rest next)

instance : Monad (Plan σ) where
  pure := done
  bind := bind

/-- Going on to nothing changes nothing. -/
@[simp] theorem bind_done (plan : Plan σ α) : plan.bind done = plan := by
  induction plan with
  | done result => rfl
  | ask request next ih => simp [bind, ih]
  | tally event next ih => simp [bind, ih]
  | poll next ih => simp [bind, ih]

/-- How plans are put together makes no difference. -/
theorem bind_assoc (plan : Plan σ α) (first : α → Plan σ β) (second : β → Plan σ γ) :
    (plan.bind first).bind second = plan.bind fun result => (first result).bind second := by
  induction plan with
  | done result => rfl
  | ask request next ih => simp [bind, ih]
  | tally event next ih => simp [bind, ih]
  | poll next ih => simp [bind, ih]

instance : LawfulMonad (Plan σ) :=
  LawfulMonad.mk' (Plan σ) bind_done (fun _ _ => rfl) bind_assoc

end Plan

/-- A plan that may fail. -/
abbrev Attempt (σ : Type) : Type → Type := ExceptT QueryError (Plan σ)

namespace Attempt

variable {σ α : Type}

/-- Makes a request; its failure is the attempt's. -/
def request (request : Request σ) : Attempt σ request.Answer :=
  ExceptT.mk (.ask request fun answer => .done (answer.mapError StoreError.toQueryError))

/-- Adds a reading. -/
def insert (reading : Reading σ) : Attempt σ Unit := request (.insert reading)

/-- The newest reading at or before an instant that carries a field. -/
def nearestBefore (source : SourceId) (time : Instant) (field : Field) :
    Attempt σ (Option (Reading σ)) :=
  request (.nearestBefore source time field)

/-- The oldest reading at or after an instant that carries a field. -/
def nearestAfter (source : SourceId) (time : Instant) (field : Field) :
    Attempt σ (Option (Reading σ)) :=
  request (.nearestAfter source time field)

/-- The readings in a window that carry a field, oldest first. -/
def range (source : SourceId) (window : Window) (field : Field) : Attempt σ (List (Reading σ)) :=
  request (.range source window field)

/-- The definition of a source. -/
def definition (source : SourceId) : Attempt σ (Option (Source σ)) := request (.definition source)

/-- The number of definitions. -/
def definitionCount : Attempt σ Nat := request .definitionCount

/-- Raises a counter. -/
def tally (event : CacheEvent) : Attempt σ Unit := ExceptT.mk (.tally event (.done (.ok ())))

/-- Raises a counter for each of some events. -/
def tallyAll : List CacheEvent → Attempt σ Unit
  | [] => pure ()
  | event :: rest => do
    tally event
    tallyAll rest

/-- A given outcome. -/
def ofExcept (outcome : Except QueryError α) : Attempt σ α := ExceptT.mk (.done outcome)

/-- The outcome of an attempt, as a result that cannot fail. -/
def outcome (attempt : Attempt σ α) : Attempt σ (Except QueryError α) :=
  ExceptT.mk (attempt.run.bind fun result => .done (.ok result))

/-- An attempt that begins only if there is time left. -/
def polled (attempt : Attempt σ α) : Attempt σ α := ExceptT.mk (.poll attempt.run)

end Attempt

/-- How often each event of the checkpoint cache has happened. -/
structure Tally where
  /-- Lookups answered from a checkpoint. -/
  hits : Nat
  /-- Lookups from the readings because no checkpoint applied. -/
  coldReads : Nat
  /-- Lookups too recent to consult the cache. -/
  windowBypasses : Nat
  /-- Checkpoints added. -/
  created : Nat
  /-- Checkpoints worked out again. -/
  refreshed : Nat
  /-- Finalized checkpoints left as they were. -/
  frozenSkips : Nat
  /-- Checkpoints refused because the counter would have run backwards. -/
  rejected : Nat
  /-- Uses of the cache given up because the store failed. -/
  fallbacks : Nat
deriving DecidableEq, Repr

namespace Tally

/-- Nothing has happened. -/
def zero : Tally := ⟨0, 0, 0, 0, 0, 0, 0, 0⟩

/-- One more event. -/
def add (tally : Tally) : CacheEvent → Tally
  | .hit => { tally with hits := tally.hits + 1 }
  | .coldRead => { tally with coldReads := tally.coldReads + 1 }
  | .windowBypass => { tally with windowBypasses := tally.windowBypasses + 1 }
  | .created => { tally with created := tally.created + 1 }
  | .refreshed => { tally with refreshed := tally.refreshed + 1 }
  | .frozenSkip => { tally with frozenSkips := tally.frozenSkips + 1 }
  | .rejected => { tally with rejected := tally.rejected + 1 }
  | .fallback => { tally with fallbacks := tally.fallbacks + 1 }

end Tally

/-- What a service says to a request: an answer, after some milliseconds. -/
structure Reply (α : Type) where
  /-- The answer or the failure. -/
  answer : Except StoreError α
  /-- The milliseconds until the answer. -/
  delay : Nat

/-- Something that answers requests and may change as it does. -/
abbrev Service (σ ω : Type) := (request : Request σ) → ω → Reply request.Answer × ω

/-- Where a plan has got to: the service, the milliseconds elapsed and the counters. -/
structure Progress (ω : Type) where
  /-- The state of the service. -/
  world : ω
  /-- Milliseconds elapsed. -/
  elapsed : Nat
  /-- What has been counted. -/
  tally : Tally

namespace Plan

variable {σ α β ω : Type}

/-- Carries a plan out, up to its result or up to its interruption. An interrupted plan keeps the
counters it has raised. -/
def run (serve : Service σ ω) (limits : Limits) :
    Plan σ α → Progress ω → Except Interruption α × Progress ω
  | done result, progress => (.ok result, progress)
  | tally event next, progress =>
    run serve limits next { progress with tally := progress.tally.add event }
  | poll next, progress =>
    match limits.check progress.elapsed with
    | some interruption => (.error interruption, progress)
    | none => run serve limits next progress
  | ask request next, progress =>
    let (reply, world) := serve request progress.world
    match limits.wait progress.elapsed reply.delay with
    | (moment, some interruption) =>
      (.error interruption, { progress with world := world, elapsed := moment })
    | (moment, none) =>
      run serve limits (next reply.answer) { progress with world := world, elapsed := moment }

/-- A plan after another is carried out from where the first has got to, unless that one was
interrupted. -/
theorem run_bind (serve : Service σ ω) (limits : Limits) (plan : Plan σ α) (next : α → Plan σ β)
    (progress : Progress ω) :
    run serve limits (plan.bind next) progress =
      match run serve limits plan progress with
      | (.ok result, after) => run serve limits (next result) after
      | (.error interruption, after) => (.error interruption, after) := by
  induction plan generalizing progress with
  | done result => rfl
  | tally event rest ih => exact ih _
  | poll rest ih =>
    simp only [bind, run]
    cases limits.check progress.elapsed with
    | some interruption => rfl
    | none => exact ih _
  | ask request rest ih =>
    simp only [bind, run]
    rcases limits.wait progress.elapsed (serve request progress.world).1.delay with
      ⟨moment, _ | interruption⟩
    · exact ih _ _
    · rfl

end Plan

end Metering
