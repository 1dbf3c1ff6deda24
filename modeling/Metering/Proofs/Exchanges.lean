import Metering.Proofs.Faults

/-!
# What was asked and how it was answered

The exchanges of a plan are the calls that it made of a service, with the answer
that each one got. Over a fated database and without limits a plan has one
outcome, one list of exchanges and one list of counted events (`Fated.Comes`),
and they are put together bind by bind. What a failed call does to a plan is said
call by call (`Plan.Heeds`). An attempt that passes every failure on comes to what
it comes to without failures, or one of its calls failed and it fails with the
error of that call (`Fated.comes_of_passesOn`).
-/

namespace Metering

variable {σ α β ω : Type}

/-- A call of a service: what was asked, and the answer or the failure. -/
structure Exchange (σ : Type) where
  /-- What was asked. -/
  request : Request σ
  /-- The answer or the failure. -/
  answer : Except StoreError request.Answer

namespace Exchange

/-- The error that a call failed with, if it did. -/
def failure? (exchange : Exchange σ) : Option StoreError :=
  match exchange.answer with
  | .error error => some error
  | .ok _ => none

/-- Whether a call failed. -/
def failed (exchange : Exchange σ) : Bool := exchange.failure?.isSome

/-- A call that failed was answered with its error. -/
theorem answer_of_failure? {exchange : Exchange σ} {error : StoreError}
    (failed : exchange.failure? = some error) : exchange.answer = .error error := by
  unfold failure? at failed
  cases answered : exchange.answer with
  | error first =>
    rw [answered] at failed
    exact congrArg Except.error (Option.some_inj.1 failed)
  | ok answer =>
    rw [answered] at failed
    cases failed

/-- A database fails no lookup. -/
theorem failed_of_isLookup {request : Request σ} (lookup : request.IsLookup)
    (database : Database σ) :
    (⟨request, (database.answer request).1⟩ : Exchange σ).failed = false := by
  cases request with
  | insert reading => exact lookup.elim
  | _ => rfl

end Exchange

namespace Plan

/-- The calls of a plan that were answered before it was over or was interrupted, in order. -/
def exchanges (serve : Service σ ω) (limits : Limits) :
    Plan σ α → Nat → ω → List (Exchange σ)
  | done _, _, _ => []
  | tally _ next, elapsed, world => exchanges serve limits next elapsed world
  | poll next, elapsed, world =>
    match limits.check elapsed with
    | some _ => []
    | none => exchanges serve limits next elapsed world
  | ask request next, elapsed, world =>
    let (reply, world) := serve request world
    match limits.wait elapsed reply.delay with
    | (_, some _) => []
    | (moment, none) =>
      ⟨request, reply.answer⟩ :: exchanges serve limits (next reply.answer) moment world

/-- One plan after another makes the calls of both, unless the first is interrupted. -/
theorem exchanges_bind (serve : Service σ ω) (limits : Limits) (plan : Plan σ α)
    (next : α → Plan σ β) (progress : Progress ω) :
    exchanges serve limits (plan.bind next) progress.elapsed progress.world =
      exchanges serve limits plan progress.elapsed progress.world ++
        match run serve limits plan progress with
        | (.ok result, after) => exchanges serve limits (next result) after.elapsed after.world
        | (.error _, _) => [] := by
  induction plan generalizing progress with
  | done result => rfl
  | tally event rest ih => exact ih { progress with tally := progress.tally.add event }
  | poll rest ih =>
    simp only [bind, exchanges, run]
    cases limits.check progress.elapsed with
    | some interruption => rfl
    | none => exact ih progress
  | ask request rest ih =>
    simp only [bind, exchanges, run]
    rcases limits.wait progress.elapsed (serve request progress.world).1.delay with
      ⟨moment, _ | interruption⟩
    · rw [List.cons_append]
      exact congrArg _ (ih _ ⟨_, moment, progress.tally⟩)
    · rfl

/-- The calls of a plan are ones that it may make. -/
theorem Uses.of_mem_exchanges {allowed : Request σ → Prop} {counted : CacheEvent → Prop}
    {plan : Plan σ α} (uses : plan.Uses allowed counted) (serve : Service σ ω) (limits : Limits)
    (elapsed : Nat) (world : ω) :
    ∀ call ∈ plan.exchanges serve limits elapsed world, allowed call.request := by
  induction plan generalizing elapsed world with
  | done result => exact List.forall_mem_nil _
  | ask request next ih =>
    simp only [exchanges]
    split
    · exact List.forall_mem_nil _
    · exact List.forall_mem_cons.2 ⟨uses.1, ih _ (uses.2 _) _ _⟩
  | tally event next ih => exact ih uses.2 _ _
  | poll next ih =>
    simp only [exchanges]
    split
    · exact List.forall_mem_nil _
    · exact ih uses _ _

end Plan

/-! ## Calls without limits -/

namespace Fated

/-- A fated database some calls later. -/
def after (fated : Fated σ) (count : Nat) : Fated σ := { fated with calls := fated.calls + count }

/-- Calls after calls. -/
theorem after_after (fated : Fated σ) (first second : Nat) :
    (fated.after first).after second = fated.after (first + second) :=
  congrArg (fun calls => ({ fated with calls := calls } : Fated σ)) (Nat.add_assoc ..)

/-- A call that is fated to fail fails. -/
theorem serve_of_failure {fated : Fated σ} {request : Request σ} {error : StoreError}
    (fails : (fated.fate fated.calls request).failure = some error) :
    serve request fated =
      (⟨.error error, (fated.fate fated.calls request).delay⟩, fated.after 1) := by
  simp only [serve, fails]
  rfl

/-- A call that is not fated to fail is answered from the database. -/
theorem serve_of_no_failure {fated : Fated σ} {request : Request σ}
    (fine : (fated.fate fated.calls request).failure = none) :
    serve request fated =
      (⟨(fated.database.answer request).1, (fated.fate fated.calls request).delay⟩,
        { fated.after 1 with database := (fated.database.answer request).2 }) := by
  simp only [serve, fine]
  rfl

/-- A lookup that is not fated to fail is answered from the database and leaves it as it is. -/
theorem serve_lookup {fated : Fated σ} {request : Request σ} (lookup : request.IsLookup)
    (fine : (fated.fate fated.calls request).failure = none) :
    serve request fated =
      (⟨(fated.database.answer request).1, (fated.fate fated.calls request).delay⟩,
        fated.after 1) := by
  rw [serve_of_no_failure fine, Database.answer_snd_of_isLookup lookup]
  rfl

/-- The calls of an attempt without limits. -/
def exchanges (fated : Fated σ) (attempt : Attempt σ α) : List (Exchange σ) :=
  Plan.exchanges serve .none attempt.run 0 fated

/-- Without limits a plan comes to an outcome after some calls, counts some events and leaves a
fated database behind. -/
structure Comes (fated : Fated σ) (plan : Plan σ α) (outcome : α) (calls : List (Exchange σ))
    (events : List CacheEvent) (later : Fated σ) : Prop where
  /-- The plan has the outcome, counts the events and leaves the database. -/
  run : ∀ elapsed tally, ∃ moment, plan.run serve .none ⟨fated, elapsed, tally⟩ =
    (.ok outcome, ⟨later, moment, events.foldl Tally.add tally⟩)
  /-- The plan makes the calls. -/
  exchanges : ∀ elapsed, plan.exchanges serve .none elapsed fated = calls

/-- The calls of an attempt are ones that it may make. -/
theorem allowed_of_mem_exchanges {allowed : Request σ → Prop} {counted : CacheEvent → Prop}
    {attempt : Attempt σ α} (uses : attempt.Uses allowed counted) (fated : Fated σ) :
    ∀ call ∈ fated.exchanges attempt, allowed call.request :=
  Plan.Uses.of_mem_exchanges uses serve .none 0 fated

section Comes

variable {fated middle later : Fated σ} {calls more : List (Exchange σ)}
  {events further : List CacheEvent} {result : α} {final : β}

/-- A plan that is over has its outcome. -/
theorem comes_done (fated : Fated σ) (result : α) :
    fated.Comes (.done result) result [] [] fated :=
  ⟨fun elapsed _ => ⟨elapsed, rfl⟩, fun _ => rfl⟩

/-- A plan that raises a counter goes on. -/
theorem Comes.tally {next : Plan σ α} (rest : fated.Comes next result calls events later)
    (event : CacheEvent) : fated.Comes (.tally event next) result calls (event :: events) later :=
  ⟨fun elapsed tally => rest.run elapsed (tally.add event), rest.exchanges⟩

/-- A plan that polls goes on. -/
theorem Comes.poll {next : Plan σ α} (rest : fated.Comes next result calls events later) :
    fated.Comes (.poll next) result calls events later :=
  ⟨rest.run, rest.exchanges⟩

/-- A plan that makes a call goes on with its answer. -/
theorem Comes.ask {request : Request σ} {next : Except StoreError request.Answer → Plan σ α}
    {reply : Reply request.Answer} (served : serve request fated = (reply, middle))
    (rest : middle.Comes (next reply.answer) result calls events later) :
    fated.Comes (.ask request next) result (⟨request, reply.answer⟩ :: calls) events later := by
  refine ⟨fun elapsed tally => ?_, fun elapsed => ?_⟩
  · obtain ⟨moment, came⟩ := rest.run (elapsed + reply.delay) tally
    refine ⟨moment, ?_⟩
    simp only [Plan.run, served]
    exact came
  · simp only [Plan.exchanges, served]
    exact congrArg _ (rest.exchanges (elapsed + reply.delay))

/-- One plan after another comes to the outcome of the second. -/
theorem Comes.bind {plan : Plan σ α} (first : fated.Comes plan result calls events middle)
    (next : α → Plan σ β)
    (rest : middle.Comes (next result) final more further later) :
    fated.Comes (plan.bind next) final (calls ++ more) (events ++ further) later := by
  refine ⟨fun elapsed tally => ?_, fun elapsed => ?_⟩
  · obtain ⟨moment, came⟩ := first.run elapsed tally
    obtain ⟨last, onward⟩ := rest.run moment (events.foldl Tally.add tally)
    rw [Plan.run_bind, came, List.foldl_append]
    exact ⟨last, onward⟩
  · obtain ⟨moment, came⟩ := first.run elapsed .zero
    have split := Plan.exchanges_bind serve .none plan next ⟨fated, elapsed, .zero⟩
    rw [came, first.exchanges] at split
    exact split.trans (congrArg _ (rest.exchanges moment))

/-- One attempt after another that succeeds. -/
theorem Comes.bind_ok {attempt : Attempt σ α} {next : α → Attempt σ β} {value : α}
    {outcome : Except QueryError β}
    (first : fated.Comes attempt.run (.ok value) calls events middle)
    (rest : middle.Comes (next value).run outcome more further later) :
    fated.Comes (attempt >>= next).run outcome (calls ++ more) (events ++ further) later :=
  Comes.bind first (ExceptT.bindCont next) rest

/-- One attempt after another that fails. -/
theorem Comes.bind_error {attempt : Attempt σ α} {error : QueryError}
    (first : fated.Comes attempt.run (.error error) calls events later)
    (next : α → Attempt σ β) :
    fated.Comes (attempt >>= next).run (.error error) calls events later := by
  have ended := comes_done later (.error error : Except QueryError β)
  have stops := Comes.bind first (ExceptT.bindCont next) ended
  rw [List.append_nil, List.append_nil] at stops
  exact stops

/-- What is made of the value of an attempt. -/
theorem Comes.bind_pure {attempt : Attempt σ α} {value : α}
    (first : fated.Comes attempt.run (.ok value) calls events later) (change : α → β) :
    fated.Comes (attempt >>= fun value => pure (change value)).run (.ok (change value)) calls events
      later := by
  have ended : later.Comes (pure (change value) : Attempt σ β).run (.ok (change value)) [] []
      later := comes_done later _
  have ends : fated.Comes (attempt >>= fun value => pure (change value)).run (.ok (change value))
      (calls ++ []) (events ++ []) later := first.bind_ok ended
  rw [List.append_nil, List.append_nil] at ends
  exact ends

/-- The outcome of an attempt is a value. -/
theorem Comes.outcome {attempt : Attempt σ α} {outcome : Except QueryError α}
    (came : fated.Comes attempt.run outcome calls events later) :
    fated.Comes attempt.outcome.run (.ok outcome) calls events later := by
  let wrap : Except QueryError α → Plan σ (Except QueryError (Except QueryError α)) :=
    fun outcome => .done (.ok outcome)
  have ended := comes_done later (Except.ok outcome : Except QueryError (Except QueryError α))
  have wrapped := came.bind wrap ended
  rw [List.append_nil, List.append_nil] at wrapped
  exact wrapped

/-- The calls that an attempt comes to are its calls. -/
theorem Comes.exchanges_eq {attempt : Attempt σ α} {outcome : Except QueryError α}
    (came : fated.Comes attempt.run outcome calls events later) : fated.exchanges attempt = calls :=
  came.exchanges 0

end Comes

end Fated

/-! ## Attempts that heed failures -/

/-- A plan that may fail heeds some errors: a call that fails with one of them ends the plan with
that error, unless it is one whose failure is ignored, whatever the error. -/
def Plan.Heeds (heeded : StoreError → Prop) (ignored : Request σ → Prop) :
    Plan σ (Except QueryError α) → Prop
  | done _ => True
  | ask request next =>
    ((∀ error, heeded error → next (.error error) = done (.error error.toQueryError)) ∨
      ignored request ∧ ∀ first second, next (.error first) = next (.error second)) ∧
    ∀ answer, Heeds heeded ignored (next answer)
  | tally _ next => Heeds heeded ignored next
  | poll next => Heeds heeded ignored next

namespace Attempt

variable {heeded : StoreError → Prop} {ignored : Request σ → Prop}

/-- An attempt heeds some errors of all calls but those that are ignored. -/
def Heeds (heeded : StoreError → Prop) (ignored : Request σ → Prop) (attempt : Attempt σ α) :
    Prop :=
  Plan.Heeds heeded ignored attempt.run

/-- An attempt passes every failure on. -/
def PassesOn (attempt : Attempt σ α) : Prop := attempt.Heeds (fun _ => True) fun _ => False

/-- A given value heeds every failure, as nothing is asked for it. -/
theorem heeds_pure (value : α) : (pure value : Attempt σ α).Heeds heeded ignored := trivial

/-- A given error heeds every failure. -/
theorem heeds_throw (error : QueryError) : (throw error : Attempt σ α).Heeds heeded ignored :=
  trivial

/-- A given outcome heeds every failure. -/
theorem heeds_ofExcept (outcome : Except QueryError α) :
    (Attempt.ofExcept outcome : Attempt σ α).Heeds heeded ignored := trivial

/-- A request heeds every failure, since its failure is the attempt's. -/
theorem heeds_request (request : Request σ) :
    (Attempt.request request).Heeds heeded ignored :=
  ⟨Or.inl fun _ _ => rfl, fun _ => trivial⟩

/-- Raising a counter heeds every failure. -/
theorem heeds_tally (event : CacheEvent) :
    (Attempt.tally event : Attempt σ Unit).Heeds heeded ignored := trivial

/-- Polling first makes no difference to what is heeded. -/
theorem Heeds.polled {attempt : Attempt σ α} (heeds : attempt.Heeds heeded ignored) :
    attempt.polled.Heeds heeded ignored := heeds

end Attempt

namespace Plan

variable {heeded : StoreError → Prop} {ignored : Request σ → Prop}

/-- What heeds every failure heeds some errors of all calls. -/
theorem Heeds.of_all {plan : Plan σ (Except QueryError α)}
    (passes : plan.Heeds (fun _ => True) fun _ => False) : plan.Heeds heeded ignored := by
  induction plan with
  | done result => trivial
  | ask request next ih =>
    obtain ⟨ends | ⟨never, _⟩, rest⟩ := passes
    · exact ⟨Or.inl fun error _ => ends error trivial, fun answer => ih answer (rest answer)⟩
    · exact never.elim
  | tally event next ih => exact ih passes
  | poll next ih => exact ih passes

/-- What is done with a result heeds what the plan before it heeds, if an error that is heeded is
left as it is. -/
theorem Heeds.bind {plan : Plan σ (Except QueryError α)}
    {next : Except QueryError α → Plan σ (Except QueryError β)}
    (first : plan.Heeds heeded ignored)
    (ends : ∀ error, heeded error → next (.error error.toQueryError) =
      .done (.error error.toQueryError))
    (rest : ∀ outcome, (next outcome).Heeds heeded ignored) :
    (plan.bind next).Heeds heeded ignored := by
  induction plan with
  | done result => exact rest result
  | ask request following ih =>
    obtain ⟨stops | ⟨permitted, same⟩, further⟩ := first
    · refine ⟨Or.inl fun error counts => ?_, fun answer => ih answer (further answer)⟩
      exact (congrArg (fun plan => plan.bind next) (stops error counts)).trans (ends error counts)
    · refine ⟨Or.inr ⟨permitted, fun left right => ?_⟩, fun answer => ih answer (further answer)⟩
      exact congrArg (fun plan => plan.bind next) (same left right)
  | tally event following ih => exact ih first
  | poll following ih => exact ih first

/-- What is done with the result of a plan heeds everything but the failures of the plan, if the
error makes no difference to it. -/
theorem Heeds.ignore {plan : Plan σ (Except QueryError α)}
    {next : Except QueryError α → Plan σ (Except QueryError β)} {counted : CacheEvent → Prop}
    (passes : plan.Heeds (fun _ => True) fun _ => False) (asks : plan.Uses ignored counted)
    (same : ∀ first second, next (.error first) = next (.error second))
    (rest : ∀ outcome, (next outcome).Heeds heeded ignored) :
    (plan.bind next).Heeds heeded ignored := by
  induction plan with
  | done result => exact rest result
  | ask request following ih =>
    obtain ⟨ends | ⟨never, _⟩, further⟩ := passes
    · refine ⟨Or.inr ⟨asks.1, fun left right => ?_⟩, fun answer =>
        ih answer (further answer) (asks.2 answer)⟩
      dsimp only
      rw [ends left trivial, ends right trivial]
      exact same _ _
    · exact never.elim
  | tally event following ih => exact ih passes asks.2
  | poll following ih => exact ih passes asks

end Plan

namespace Attempt

variable {heeded : StoreError → Prop} {ignored : Request σ → Prop}

/-- What passes every failure on heeds some errors of all calls. -/
theorem PassesOn.heeds {attempt : Attempt σ α} (passes : attempt.PassesOn) :
    attempt.Heeds heeded ignored := Plan.Heeds.of_all passes

/-- One attempt after another heeds what both heed. -/
theorem Heeds.bind {attempt : Attempt σ α} {next : α → Attempt σ β}
    (first : attempt.Heeds heeded ignored) (rest : ∀ value, (next value).Heeds heeded ignored) :
    (attempt >>= next).Heeds heeded ignored := by
  refine Plan.Heeds.bind first (fun _ _ => rfl) fun outcome => ?_
  cases outcome with
  | ok value => exact rest value
  | error error => trivial

/-- An attempt along a list heeds what each of its steps heeds. -/
theorem Heeds.foldlM {step : β → α → Attempt σ β} {list : List α}
    (each : ∀ sofar item, (step sofar item).Heeds heeded ignored) (start : β) :
    (list.foldlM step start).Heeds heeded ignored := by
  induction list generalizing start with
  | nil => exact heeds_pure start
  | cons first rest ih =>
    rw [List.foldlM_cons]
    exact (each start first).bind ih

/-- What is done with the outcome of an attempt. -/
theorem run_outcome_bind (attempt : Attempt σ α) (next : Except QueryError α → Attempt σ β) :
    (attempt.outcome >>= next).run = attempt.run.bind fun outcome => (next outcome).run :=
  Plan.bind_assoc attempt.run
    (fun outcome => .done (Except.ok outcome : Except QueryError (Except QueryError α)))
    (ExceptT.bindCont next)

/-- What is done with the outcome of an attempt heeds what the attempt heeds, if it fails where the
attempt failed with an error that is heeded. -/
theorem Heeds.outcome_bind {attempt : Attempt σ α} {next : Except QueryError α → Attempt σ β}
    (first : attempt.Heeds heeded ignored)
    (ends : ∀ error, heeded error → next (.error error.toQueryError) = throw error.toQueryError)
    (rest : ∀ outcome, (next outcome).Heeds heeded ignored) :
    (attempt.outcome >>= next).Heeds heeded ignored := by
  unfold Heeds
  rw [run_outcome_bind]
  exact Plan.Heeds.bind first (fun error counts => congrArg ExceptT.run (ends error counts)) rest

/-- What is done with the outcome of an attempt heeds everything but the failures of the attempt, if
the error makes no difference to it. -/
theorem Heeds.ignore {attempt : Attempt σ α} {next : Except QueryError α → Attempt σ β}
    {counted : CacheEvent → Prop} (passes : attempt.PassesOn)
    (asks : attempt.Uses ignored counted)
    (same : ∀ first second, next (.error first) = next (.error second))
    (rest : ∀ outcome, (next outcome).Heeds heeded ignored) :
    (attempt.outcome >>= next).Heeds heeded ignored := by
  unfold Heeds
  rw [run_outcome_bind]
  exact Plan.Heeds.ignore passes asks (fun first second => congrArg ExceptT.run (same first second))
    rest

end Attempt

namespace Fated

/-- What a plan of lookups that passes every failure on has come to: what it comes to over the
database, if none of its calls failed, and the error of one that did otherwise. -/
inductive PassedOn (fated : Fated σ) (counted : CacheEvent → Prop)
    (plan : Plan σ (Except QueryError α)) (outcome : Except QueryError α)
    (calls : List (Exchange σ)) (events : List CacheEvent) : Prop where
  /-- No call failed. -/
  | fine (calm : ∀ call ∈ calls, call.failed = false)
    (result : outcome = plan.result fated.database) (told : events = plan.events fated.database)
  /-- A call failed as it was fated to. -/
  | failed (call : Exchange σ) (made : call ∈ calls) (fails : call.failed) (number : Nat)
    (error : StoreError) (fate : (fated.fate number call.request).failure = some error)
    (result : outcome = .error error.toQueryError) (told : ∀ event ∈ events, counted event)

/-- Over a fated database and without limits, a plan of lookups that passes every failure on comes
to what it comes to over the database, or one of its calls failed and it fails with the error of
that call. -/
theorem exists_comes_of_heeds {counted : CacheEvent → Prop} {plan : Plan σ (Except QueryError α)}
    (passes : plan.Heeds (fun _ => True) fun _ => False)
    (lookups : plan.Uses Request.IsLookup counted) (fated : Fated σ) :
    ∃ outcome calls events, fated.Comes plan outcome calls events (fated.after calls.length) ∧
      fated.PassedOn counted plan outcome calls events := by
  induction plan generalizing fated with
  | done result =>
    exact ⟨result, [], [], comes_done fated result, .fine (List.forall_mem_nil _) rfl rfl⟩
  | ask request next ih =>
    obtain ⟨ends | ⟨never, _⟩, rest⟩ := passes
    · cases fate : (fated.fate fated.calls request).failure with
      | some error =>
        refine ⟨.error error.toQueryError, [⟨request, .error error⟩], [],
          .ask (serve_of_failure fate) ?_, .failed _ (List.mem_singleton_self _) rfl fated.calls
            error fate rfl (List.forall_mem_nil _)⟩
        dsimp only
        rw [ends error trivial]
        exact comes_done _ _
      | none =>
        obtain ⟨outcome, calls, events, came, spec⟩ :=
          ih (fated.database.answer request).1 (rest _) (lookups.2 _) (fated.after 1)
        rw [after_after, Nat.add_comm] at came
        refine ⟨outcome, _ :: calls, events, .ask (serve_lookup lookups.1 fate) came, ?_⟩
        have fine : (⟨request, (fated.database.answer request).1⟩ : Exchange σ).failed = false :=
          Exchange.failed_of_isLookup lookups.1 fated.database
        cases spec with
        | fine calm result told => exact .fine (List.forall_mem_cons.2 ⟨fine, calm⟩) result told
        | failed call made fails number error fate result told =>
          exact .failed call (List.mem_cons_of_mem _ made) fails number error fate result told
    · exact never.elim
  | tally event next ih =>
    obtain ⟨outcome, calls, events, came, spec⟩ := ih passes lookups.2 fated
    refine ⟨outcome, calls, event :: events, came.tally event, ?_⟩
    cases spec with
    | fine calm result told => exact .fine calm result (congrArg (event :: ·) told)
    | failed call made fails number error fate result told =>
      exact .failed call made fails number error fate result
        (List.forall_mem_cons.2 ⟨lookups.1, told⟩)
  | poll next ih =>
    obtain ⟨outcome, calls, events, came, spec⟩ := ih passes lookups fated
    refine ⟨outcome, calls, events, came.poll, ?_⟩
    cases spec with
    | fine calm result told => exact .fine calm result told
    | failed call made fails number error fate result told =>
      exact .failed call made fails number error fate result told

/-- What an attempt of lookups that passes every failure on comes to. -/
theorem comes_of_passesOn {attempt : Attempt σ α} {counted : CacheEvent → Prop}
    (passes : attempt.PassesOn) (lookups : attempt.Uses Request.IsLookup counted)
    (fated : Fated σ) :
    ∃ outcome events, fated.Comes attempt.run outcome (fated.exchanges attempt) events
        (fated.after (fated.exchanges attempt).length) ∧
      fated.PassedOn counted attempt.run outcome (fated.exchanges attempt) events := by
  obtain ⟨outcome, calls, events, came, spec⟩ := exists_comes_of_heeds passes lookups fated
  obtain rfl : fated.exchanges attempt = calls := came.exchanges_eq
  exact ⟨outcome, events, came, spec⟩

end Fated

/-! ## Lookups -/

/-- Finding a bracket passes every failure on. -/
theorem Bracket.passesOn_find (id : SourceId) (time : Instant) (field : Field) :
    (find id time field : Attempt σ (Bracket σ)).PassesOn := by
  unfold find
  refine (Attempt.heeds_request _).bind fun before => ?_
  cases before with
  | none =>
    refine (Attempt.heeds_request _).bind fun after => ?_
    cases after <;> exact Attempt.heeds_throw _
  | some reading =>
    dsimp only
    split
    · exact Attempt.heeds_pure _
    · refine (Attempt.heeds_request _).bind fun after => ?_
      cases after with
      | none => exact Attempt.heeds_throw _
      | some next => exact Attempt.heeds_ofExcept _

/-- Resolving a source passes every failure on. -/
theorem Graph.passesOn_resolve (id : SourceId) : (resolve id : Attempt σ (Source σ)).PassesOn := by
  unfold resolve
  refine (Attempt.heeds_request _).bind fun found => ?_
  cases found with
  | none => exact Attempt.heeds_throw _
  | some source => exact Attempt.heeds_pure source

variable [Scalar σ]

/-- Finding a value passes every failure on. -/
theorem Bracket.passesOn_valueAt (id : SourceId) (time : Instant) (field : Field) :
    (valueAt id time field : Attempt σ σ).PassesOn :=
  (passesOn_find id time field).bind fun _ => Attempt.heeds_ofExcept _

/-- Reading on from a checkpoint passes every failure on. -/
theorem Checkpoint.passesOn_counterFrom (checkpoint : Checkpoint σ) (time : Instant) :
    (checkpoint.counterFrom time).PassesOn := by
  unfold counterFrom
  split
  · exact Attempt.heeds_pure _
  · refine (Attempt.heeds_request _).bind fun recent => ?_
    dsimp only
    split
    · exact Attempt.heeds_ofExcept _
    · refine (Attempt.heeds_request _).bind fun after => ?_
      cases after with
      | none => exact Attempt.heeds_throw _
      | some next => exact Attempt.heeds_ofExcept _

omit [Scalar σ] in
/-- Looking up the neighbours of a reading passes every failure on. -/
theorem CheckpointCache.passesOn_neighboursOf (id : SourceId) (reading : Reading σ) :
    (neighboursOf id reading).PassesOn := by
  unfold neighboursOf
  cases reading.instant.justBefore? with
  | none => cases reading.instant.justAfter? with
    | none => exact Attempt.heeds_pure _
    | some after => exact (Attempt.heeds_request _).bind fun _ => Attempt.heeds_pure _
  | some before =>
    refine (Attempt.heeds_request _).bind fun previous => ?_
    cases reading.instant.justAfter? with
    | none => exact Attempt.heeds_pure _
    | some after => exact (Attempt.heeds_request _).bind fun _ => Attempt.heeds_pure _

omit [Scalar σ] in
/-- Resolving a leaf passes every failure on. -/
theorem Engine.passesOn_resolveLeaf (id : SourceId) :
    (resolveLeaf id : Attempt σ (Source σ)).PassesOn := by
  unfold resolveLeaf
  refine (Graph.passesOn_resolve id).bind fun source => ?_
  split
  · exact Attempt.heeds_pure source
  · exact Attempt.heeds_throw _

/-! ## Engines over calls that fail -/

namespace Engine

/-- The engine over the database behind the calls, of which none fails. -/
def faultless (engine : Engine σ (Fated σ)) : Engine σ (Database σ) :=
  ⟨engine.cache, engine.now,
    ⟨engine.progress.world.database, engine.progress.elapsed, engine.progress.tally⟩⟩

omit [Scalar σ] in
/-- What an engine makes of what an attempt comes to. -/
theorem perform_of_comes {engine : Engine σ (Fated σ)} {attempt : Attempt σ α}
    {outcome : Except QueryError α} {calls : List (Exchange σ)} {events : List CacheEvent}
    {later : Fated σ}
    (came : engine.progress.world.Comes attempt.run outcome calls events later) :
    ∃ moment, engine.perform Fated.serve .none attempt =
      (outcome, { engine with progress :=
        ⟨later, moment, events.foldl Tally.add engine.progress.tally⟩ }) := by
  obtain ⟨cache, now, fated, elapsed, tally⟩ := engine
  obtain ⟨moment, ran⟩ := came.run elapsed tally
  refine ⟨moment, ?_⟩
  unfold perform
  simp only [ran]

/-- An engine over two readings of a meter, of whose calls those with some numbers fail. -/
def failing (numbers : List Nat) (error : StoreError) : Engine Rat (Fated Rat) :=
  new .standard ⟨⟨⟨Registry.empty.insert "meter"
    (.ofList [hourlyReading 0 0, hourlyReading 180 6])⟩, hourlyCatalog⟩, 0,
    fun number _ => ⟨if number ∈ numbers then some error else none, 0⟩⟩ (atMinute 1440)

end Engine

end Metering
