import Metering.Engine.Basic
import Metering.Proofs.Outcome

/-!
# What plans can come to

A store that fails, or that answers otherwise than a database in memory would,
gives a plan another result. What a plan can come to at all, if every request
gets one of the answers that are possible for it, is told bind by bind
(`Attempt.yields_bind_ok_iff`). Whatever a service answers, the work it is
asked for comes to something that was possible (`Engine.exists_perform_eq`),
and so it does under a deadline unless it is interrupted
(`Engine.perform_of_uses`).
-/

namespace Metering

/-- The answers that each request may get. -/
abbrev Possibility (σ : Type) := (request : Request σ) → Except StoreError request.Answer → Prop

namespace Possibility

variable {σ : Type}

/-- Every answer is possible. -/
def any : Possibility σ := fun _ _ => True

/-- Only what a database answers is possible. -/
def told (database : Database σ) : Possibility σ := fun request answer =>
  (database.answer request).1 = answer

/-- Whatever a service answers is possible where every answer is. -/
theorem any_answer {ω : Type} (serve : Service σ ω) (request : Request σ) (world : ω) :
    any request (serve request world).1.answer := trivial

end Possibility

namespace Plan

variable {σ α β ω : Type}

/-- A plan can count some events and have a result, if requests get answers that are possible. -/
def Yields (possible : Possibility σ) : Plan σ α → List CacheEvent → α → Prop
  | done result, events, final => events = [] ∧ result = final
  | ask request next, events, final =>
    ∃ answer, possible request answer ∧ (next answer).Yields possible events final
  | tally event next, events, final =>
    ∃ rest, events = event :: rest ∧ next.Yields possible rest final
  | poll next, events, final => next.Yields possible events final

variable {possible : Possibility σ}

/-- One plan after another can come to what the second can, from something that the first can come
to. -/
theorem yields_bind_iff (plan : Plan σ α) (next : α → Plan σ β) (events : List CacheEvent)
    (final : β) :
    (plan.bind next).Yields possible events final ↔
      ∃ early middle late, events = early ++ late ∧ plan.Yields possible early middle ∧
        (next middle).Yields possible late final := by
  induction plan generalizing events with
  | done result =>
    constructor
    · exact fun came => ⟨[], result, events, rfl, ⟨rfl, rfl⟩, came⟩
    · rintro ⟨_, _, late, rfl, ⟨rfl, rfl⟩, came⟩
      exact came
  | ask request rest ih =>
    constructor
    · rintro ⟨answer, can, came⟩
      obtain ⟨early, middle, late, split, first, second⟩ := (ih answer events).1 came
      exact ⟨early, middle, late, split, ⟨answer, can, first⟩, second⟩
    · rintro ⟨early, middle, late, split, ⟨answer, can, first⟩, second⟩
      exact ⟨answer, can, (ih answer events).2 ⟨early, middle, late, split, first, second⟩⟩
  | tally event rest ih =>
    constructor
    · rintro ⟨after, rfl, came⟩
      obtain ⟨early, middle, late, rfl, first, second⟩ := (ih after).1 came
      exact ⟨event :: early, middle, late, rfl, ⟨early, rfl, first⟩, second⟩
    · rintro ⟨_, middle, late, rfl, ⟨early, rfl, first⟩, second⟩
      exact ⟨early ++ late, rfl, (ih _).2 ⟨early, middle, late, rfl, first, second⟩⟩
  | poll rest ih => exact ih events

/-- A plan counts only events that it may count. -/
theorem Uses.counted_of_yields {allowed : Request σ → Prop} {counted : CacheEvent → Prop}
    {plan : Plan σ α} (uses : plan.Uses allowed counted) {events : List CacheEvent} {final : α}
    (came : plan.Yields possible events final) : ∀ event ∈ events, counted event := by
  induction plan generalizing events with
  | done result =>
    rw [came.1]
    exact fun event member => absurd member List.not_mem_nil
  | ask request next ih =>
    obtain ⟨answer, _, rest⟩ := came
    exact ih answer (uses.2 answer) rest
  | tally first next ih =>
    obtain ⟨later, rfl, rest⟩ := came
    intro event member
    rcases List.mem_cons.1 member with rfl | member
    · exact uses.1
    · exact ih uses.2 rest event member
  | poll next ih => exact ih uses came

/-- Over a database that stays as it is a plan comes to its result and to nothing else. -/
theorem yields_told_iff (database : Database σ) (plan : Plan σ α) (events : List CacheEvent)
    (final : α) :
    plan.Yields (.told database) events final ↔
      plan.events database = events ∧ plan.result database = final := by
  induction plan generalizing events with
  | done result => exact and_congr_left' eq_comm
  | ask request next ih =>
    refine Iff.trans ?_ (ih _ events)
    constructor
    · rintro ⟨_, rfl, came⟩
      exact came
    · exact fun came => ⟨_, rfl, came⟩
  | tally event next ih =>
    constructor
    · rintro ⟨rest, rfl, came⟩
      obtain ⟨rfl, same⟩ := (ih rest).1 came
      exact ⟨rfl, same⟩
    · rintro ⟨rfl, same⟩
      exact ⟨_, rfl, (ih _).2 ⟨rfl, same⟩⟩
  | poll next ih => exact ih events

/-- What a service makes of a plan without limits was possible if its answers are, and the counters
tell the events. -/
theorem exists_run_eq {serve : Service σ ω}
    (answers : ∀ request world, possible request (serve request world).1.answer) (plan : Plan σ α)
    (progress : Progress ω) :
    ∃ events final world elapsed, plan.Yields possible events final ∧
      run serve .none plan progress =
        (.ok final, ⟨world, elapsed, events.foldl Tally.add progress.tally⟩) := by
  induction plan generalizing progress with
  | done result => exact ⟨[], result, progress.world, progress.elapsed, ⟨rfl, rfl⟩, rfl⟩
  | ask request next ih =>
    obtain ⟨events, final, world, elapsed, came, same⟩ := ih
      (serve request progress.world).1.answer
      { progress with
        world := (serve request progress.world).2
        elapsed := progress.elapsed + (serve request progress.world).1.delay }
    exact ⟨events, final, world, elapsed, ⟨_, answers request progress.world, came⟩, same⟩
  | tally event next ih =>
    obtain ⟨events, final, world, elapsed, came, same⟩ := ih
      { progress with tally := progress.tally.add event }
    exact ⟨event :: events, final, world, elapsed, ⟨events, rfl, came⟩, same⟩
  | poll next ih => exact ih progress

/-- Every plan asks for something and counts something. -/
theorem uses_any (plan : Plan σ α) : plan.Uses (fun _ => True) (fun _ => True) := by
  induction plan with
  | done result => trivial
  | ask request next ih => exact ⟨trivial, ih⟩
  | tally event next ih => exact ⟨trivial, ih⟩
  | poll next ih => exact ih

/-- Under any limits, what holds of a service as long as it is asked for what a plan may ask for
holds when the plan is over or interrupted. A plan that is over comes to something that was
possible. -/
theorem Uses.run_spec {serve : Service σ ω} {limits : Limits} {holds : ω → Prop}
    {allowed : Request σ → Prop} {counted : CacheEvent → Prop}
    (keeps : ∀ request world, allowed request → holds world →
      possible request (serve request world).1.answer ∧ holds (serve request world).2)
    {plan : Plan σ α} (uses : plan.Uses allowed counted) {progress : Progress ω}
    (initially : holds progress.world) :
    holds (run serve limits plan progress).2.world ∧
      ∀ final, (run serve limits plan progress).1 = .ok final →
        ∃ events, plan.Yields possible events final := by
  induction plan generalizing progress with
  | done result => exact ⟨initially, fun final same => ⟨[], rfl, Except.ok.inj same⟩⟩
  | ask request next ih =>
    obtain ⟨can, still⟩ := keeps request progress.world uses.1 initially
    unfold run
    dsimp only
    split
    · exact ⟨still, fun final same => by cases same⟩
    · rename_i moment _
      have onward : holds (Progress.mk (serve request progress.world).2 moment
        progress.tally).world := still
      obtain ⟨after, came⟩ := ih (serve request progress.world).1.answer (uses.2 _) onward
      refine ⟨after, fun final same => ?_⟩
      obtain ⟨events, rest⟩ := came final same
      exact ⟨events, _, can, rest⟩
  | tally event next ih =>
    have onward : holds (Progress.mk progress.world progress.elapsed
      (progress.tally.add event)).world := initially
    obtain ⟨after, came⟩ := ih uses.2 onward
    refine ⟨after, fun final same => ?_⟩
    obtain ⟨events, rest⟩ := came final same
    exact ⟨event :: events, events, rfl, rest⟩
  | poll next ih =>
    unfold run
    split
    · exact ⟨initially, fun final same => by cases same⟩
    · exact ih uses initially

end Plan

/-! ## Attempts -/

namespace Attempt

variable {σ α β : Type} {possible : Possibility σ} {events : List CacheEvent}

/-- An attempt can count some events and come to an outcome. -/
def Yields (possible : Possibility σ) (attempt : Attempt σ α) (events : List CacheEvent)
    (outcome : Except QueryError α) : Prop :=
  Plan.Yields possible attempt.run events outcome

/-- What an attempt comes to over a database is possible for it. -/
theorem yields_of_result {database : Database σ} {attempt : Attempt σ α}
    {outcome : Except QueryError α} (came : attempt.result database = outcome) :
    attempt.Yields (.told database) (attempt.events database) outcome :=
  (Plan.yields_told_iff ..).2 ⟨rfl, came⟩

/-- Over a database nothing else is possible. -/
theorem result_of_yields {database : Database σ} {attempt : Attempt σ α}
    {outcome : Except QueryError α} (came : attempt.Yields (.told database) events outcome) :
    attempt.result database = outcome :=
  ((Plan.yields_told_iff ..).1 came).2

/-- Only itself is possible for a given value. -/
@[simp] theorem yields_pure_iff (value : α) (outcome : Except QueryError α) :
    (pure value : Attempt σ α).Yields possible events outcome ↔
      events = [] ∧ .ok value = outcome := Iff.rfl

/-- Only itself is possible for a given error. -/
@[simp] theorem yields_throw_iff (error : QueryError) (outcome : Except QueryError α) :
    (throw error : Attempt σ α).Yields possible events outcome ↔
      events = [] ∧ .error error = outcome := Iff.rfl

/-- Only itself is possible for a given outcome. -/
@[simp] theorem yields_ofExcept_iff (given outcome : Except QueryError α) :
    (Attempt.ofExcept given : Attempt σ α).Yields possible events outcome ↔
      events = [] ∧ given = outcome := Iff.rfl

/-- Polling first makes no difference to what is possible. -/
@[simp] theorem yields_polled_iff (attempt : Attempt σ α) (outcome : Except QueryError α) :
    attempt.polled.Yields possible events outcome ↔ attempt.Yields possible events outcome :=
  Iff.rfl

/-- A request can come to each of its possible answers. -/
@[simp] theorem yields_request_iff (request : Request σ)
    (outcome : Except QueryError request.Answer) :
    (Attempt.request request).Yields possible events outcome ↔
      ∃ answer, possible request answer ∧
        events = [] ∧ answer.mapError StoreError.toQueryError = outcome := Iff.rfl

/-- Raising a counter counts its event and succeeds. -/
@[simp] theorem yields_tally_iff (event : CacheEvent) (outcome : Except QueryError Unit) :
    (Attempt.tally event : Attempt σ Unit).Yields possible events outcome ↔
      events = [event] ∧ .ok () = outcome := by
  constructor
  · rintro ⟨rest, rfl, rfl, rfl⟩
    exact ⟨rfl, rfl⟩
  · rintro ⟨rfl, rfl⟩
    exact ⟨[], rfl, rfl, rfl⟩

/-- What one attempt after another can come to. -/
theorem yields_bind_iff (attempt : Attempt σ α) (next : α → Attempt σ β)
    (outcome : Except QueryError β) :
    (attempt >>= next).Yields possible events outcome ↔
      (∃ error, attempt.Yields possible events (.error error) ∧ .error error = outcome) ∨
        ∃ early value late, events = early ++ late ∧ attempt.Yields possible early (.ok value) ∧
          (next value).Yields possible late outcome := by
  change (attempt.run.bind (ExceptT.bindCont next)).Yields possible events outcome ↔ _
  rw [Plan.yields_bind_iff]
  constructor
  · rintro ⟨early, error | value, late, rfl, first, second⟩
    · obtain ⟨rfl, same⟩ := second
      exact Or.inl ⟨error, (List.append_nil early).symm ▸ first, same⟩
    · exact Or.inr ⟨early, value, late, rfl, first, second⟩
  · rintro (⟨error, first, same⟩ | ⟨early, value, late, same, first, second⟩)
    · exact ⟨events, .error error, [], (List.append_nil events).symm, first, rfl, same⟩
    · exact ⟨early, .ok value, late, same, first, second⟩

/-- One attempt after another can succeed if both can. -/
theorem yields_bind_ok_iff (attempt : Attempt σ α) (next : α → Attempt σ β) (final : β) :
    (attempt >>= next).Yields possible events (.ok final) ↔
      ∃ early value late, events = early ++ late ∧ attempt.Yields possible early (.ok value) ∧
        (next value).Yields possible late (.ok final) := by
  rw [yields_bind_iff]
  refine or_iff_right ?_
  rintro ⟨error, _, same⟩
  cases same

/-- What holds at the start of an attempt along a list and is kept by each of its steps holds at its
end. -/
theorem yields_foldlM_invariant (holds : β → Prop) {step : β → α → Attempt σ β} {list : List α}
    (keeps : ∀ sofar, ∀ item ∈ list, ∀ events next, holds sofar →
      (step sofar item).Yields possible events (.ok next) → holds next)
    {start final : β} (initially : holds start)
    (came : (list.foldlM step start).Yields possible events (.ok final)) : holds final := by
  induction list generalizing start events with
  | nil =>
    obtain ⟨_, same⟩ := came
    rw [← Except.ok.inj same]
    exact initially
  | cons first rest ih =>
    rw [List.foldlM_cons] at came
    obtain ⟨early, next, late, _, stepped, onward⟩ := (yields_bind_ok_iff ..).1 came
    have holdsNext := keeps start first List.mem_cons_self early next initially stepped
    exact ih (fun sofar item member => keeps sofar item (List.mem_cons_of_mem first member))
      holdsNext onward

/-- Whatever is possible for an attempt is a possible value of its outcome. -/
@[simp] theorem yields_outcome_iff (attempt : Attempt σ α)
    (outcome : Except QueryError (Except QueryError α)) :
    attempt.outcome.Yields possible events outcome ↔
      ∃ result, attempt.Yields possible events result ∧ .ok result = outcome := by
  refine (Plan.yields_bind_iff attempt.run (fun result => .done (.ok result)) events
    outcome).trans ?_
  constructor
  · rintro ⟨early, result, late, rfl, first, rfl, same⟩
    exact ⟨result, (List.append_nil early).symm ▸ first, same⟩
  · rintro ⟨result, first, same⟩
    exact ⟨events, result, [], (List.append_nil events).symm, first, rfl, same⟩

/-- What can come after an attempt whose failure is no failure. -/
theorem yields_outcome_bind_iff (attempt : Attempt σ α)
    (next : Except QueryError α → Attempt σ β) (outcome : Except QueryError β) :
    (attempt.outcome >>= next).Yields possible events outcome ↔
      ∃ early result late, events = early ++ late ∧ attempt.Yields possible early result ∧
        (next result).Yields possible late outcome := by
  rw [yields_bind_iff]
  simp only [yields_outcome_iff]
  constructor
  · rintro (⟨error, ⟨_, _, same⟩, _⟩ | ⟨early, result, late, rfl, ⟨_, first, same⟩, rest⟩)
    · cases same
    · obtain rfl := Except.ok.inj same
      exact ⟨early, _, late, rfl, first, rest⟩
  · rintro ⟨early, result, late, rfl, first, rest⟩
    exact Or.inr ⟨early, result, late, rfl, ⟨result, first, rfl⟩, rest⟩

/-- Raising counters for some events counts those events. -/
@[simp] theorem yields_tallyAll_iff (list : List CacheEvent) (outcome : Except QueryError Unit) :
    (Attempt.tallyAll list : Attempt σ Unit).Yields possible events outcome ↔
      events = list ∧ .ok () = outcome := by
  induction list generalizing events with
  | nil => exact Iff.rfl
  | cons first rest ih =>
    unfold tallyAll
    rw [yields_bind_iff]
    simp only [yields_tally_iff, ih]
    constructor
    · rintro (⟨error, ⟨_, same⟩, _⟩ | ⟨_, _, _, rfl, ⟨rfl, _⟩, rfl, same⟩)
      · cases same
      · exact ⟨rfl, same⟩
    · rintro ⟨rfl, same⟩
      exact Or.inr ⟨[first], (), rest, rfl, ⟨rfl, trivial⟩, rfl, same⟩

/-- Raising counters before anything else adds their events. -/
theorem yields_tallyAll_bind_iff (list : List CacheEvent) (next : Unit → Attempt σ α)
    (outcome : Except QueryError α) :
    (Attempt.tallyAll list >>= next).Yields possible events outcome ↔
      ∃ late, events = list ++ late ∧ (next ()).Yields possible late outcome := by
  rw [yields_bind_iff]
  simp only [yields_tallyAll_iff]
  constructor
  · rintro (⟨error, ⟨_, same⟩, _⟩ | ⟨_, _, late, rfl, ⟨rfl, _⟩, rest⟩)
    · cases same
    · exact ⟨late, rfl, rest⟩
  · rintro ⟨late, rfl, rest⟩
    exact Or.inr ⟨list, (), late, rfl, ⟨rfl, trivial⟩, rest⟩

/-- Raising a counter before anything else adds its event. -/
theorem yields_tally_bind_iff (event : CacheEvent) (next : Unit → Attempt σ α)
    (outcome : Except QueryError α) :
    (Attempt.tally event >>= next).Yields possible events outcome ↔
      ∃ late, events = event :: late ∧ (next ()).Yields possible late outcome := Iff.rfl

end Attempt

/-! ## Engines -/

namespace Engine

variable {σ α ω : Type} {possible : Possibility σ} {serve : Service σ ω}

/-- Under any limits an engine that carries out an attempt keeps its cache and its clock, and what
holds of the service as long as it is asked for what the attempt may ask for. If the attempt
succeeds, its value was possible. -/
theorem perform_of_uses {holds : ω → Prop} {allowed : Request σ → Prop}
    {counted : CacheEvent → Prop}
    (keeps : ∀ request world, allowed request → holds world →
      possible request (serve request world).1.answer ∧ holds (serve request world).2)
    {attempt : Attempt σ α} (uses : attempt.Uses allowed counted) {engine : Engine σ ω}
    (initially : holds engine.progress.world) (limits : Limits) :
    ∃ outcome progress, engine.perform serve limits attempt = (outcome, { engine with progress }) ∧
      holds progress.world ∧
      ∀ value, outcome = .ok value → ∃ events, attempt.Yields possible events (.ok value) := by
  obtain ⟨still, came⟩ := Plan.Uses.run_spec keeps uses initially
  unfold perform
  generalize Plan.run serve limits attempt.run engine.progress = reached at still came
  obtain ⟨interruption | result, after⟩ := reached
  · exact ⟨_, after, rfl, still, fun value same => nomatch same⟩
  · exact ⟨result, after, rfl, still, fun value same => came _ (congrArg Except.ok same)⟩

/-- An engine that carries out an attempt without limits keeps its cache and its clock, and comes to
something that was possible. -/
theorem exists_perform_eq
    (answers : ∀ request world, possible request (serve request world).1.answer)
    (engine : Engine σ ω) (attempt : Attempt σ α) :
    ∃ events outcome world elapsed, attempt.Yields possible events outcome ∧
      engine.perform serve .none attempt =
        (outcome, { engine with
          progress := ⟨world, elapsed, events.foldl Tally.add engine.progress.tally⟩ }) := by
  obtain ⟨events, outcome, world, elapsed, came, same⟩ :=
    Plan.exists_run_eq answers attempt.run engine.progress
  refine ⟨events, outcome, world, elapsed, came, ?_⟩
  unfold perform
  rw [same]

/-- An engine that takes something in has the cache that came of it, or the one it had if nothing
did. -/
theorem exists_takeIn_eq
    (answers : ∀ request world, possible request (serve request world).1.answer)
    (engine : Engine σ ω) (attempt : Attempt σ (Nat × CheckpointCache σ)) :
    ∃ events outcome world elapsed, attempt.Yields possible events outcome ∧
      engine.takeIn serve attempt =
        (outcome.map Prod.fst, ⟨(outcome.toOption.map Prod.snd).getD engine.cache, engine.now,
          ⟨world, elapsed, events.foldl Tally.add engine.progress.tally⟩⟩) := by
  obtain ⟨events, outcome, world, elapsed, came, same⟩ :=
    exists_perform_eq answers engine attempt
  refine ⟨events, outcome, world, elapsed, came, ?_⟩
  unfold takeIn
  rw [same]
  cases outcome <;> rfl

end Engine

end Metering
