import Metering.Database

/-!
# What plans come to over a database in memory

A database in memory answers every request at once. A plan that only looks
things up therefore has one result and one list of counted events, whatever
its limits, as long as none of them has come when it starts (`run_serve`). For
attempts the result is read off bind by bind: `Attempt.result` takes the
operations of an attempt to those of `Except` and forgets where it polls and
what it counts.
-/

namespace Except

variable {ε α β γ : Type}

/-- After a value its continuation decides. -/
@[simp] theorem ok_bind (value : α) (next : α → Except ε β) :
    (ok value >>= next) = next value := rfl

/-- After an error nothing is done. -/
@[simp] theorem error_bind (error : ε) (next : α → Except ε β) :
    ((.error error : Except ε α) >>= next) = .error error := rfl

/-- One outcome after another is a value exactly if both are. -/
theorem bind_eq_ok_iff {outcome : Except ε α} {next : α → Except ε β} {result : β} :
    (outcome >>= next) = .ok result ↔ ∃ value, outcome = .ok value ∧ next value = .ok result := by
  cases outcome with
  | error error => simp only [error_bind, reduceCtorEq, false_and, exists_false]
  | ok value => simp only [ok_bind, ok.injEq, exists_eq_left']

/-- One outcome after another is mapped where the second one is. -/
theorem map_bind (outcome : Except ε α) (next : α → Except ε β) (change : β → γ) :
    (outcome >>= next).map change = outcome >>= fun value => (next value).map change := by
  cases outcome with
  | error error => rfl
  | ok value => rfl

/-- What is mapped is an error exactly if it was one before. -/
theorem map_eq_error_iff {outcome : Except ε α} {change : α → β} {error : ε} :
    outcome.map change = .error error ↔ outcome = .error error := by
  cases outcome with
  | error other => simp only [Except.map, Except.error.injEq]
  | ok value => simp only [Except.map, reduceCtorEq]

/-- What every step along a list keeps holds of what the list comes to. -/
theorem foldlM_invariant (holds : β → Prop) {step : β → α → Except ε β} {list : List α}
    (keeps : ∀ sofar, ∀ item ∈ list, ∀ next, holds sofar → step sofar item = .ok next →
      holds next) {start final : β} (initially : holds start)
    (same : list.foldlM step start = .ok final) : holds final := by
  induction list generalizing start with
  | nil =>
    injection same with same
    exact same ▸ initially
  | cons first rest ih =>
    rw [List.foldlM_cons] at same
    cases came : step start first with
    | error error =>
      rw [came] at same
      cases same
    | ok next =>
      rw [came] at same
      have holdsNext := keeps start first List.mem_cons_self next initially came
      exact ih (fun sofar item member => keeps sofar item (List.mem_cons_of_mem first member))
        holdsNext same

/-- What holds of the error of every step along a list holds of the error the list comes to. -/
theorem foldlM_error_invariant (holds : ε → Prop) {step : β → α → Except ε β} {list : List α}
    (fails : ∀ sofar, ∀ item ∈ list, ∀ error, step sofar item = .error error → holds error)
    {start : β} {error : ε} (same : list.foldlM step start = .error error) : holds error := by
  induction list generalizing start with
  | nil => cases same
  | cons first rest ih =>
    rw [List.foldlM_cons] at same
    cases came : step start first with
    | error other =>
      rw [came, error_bind] at same
      obtain rfl : other = error := Except.error.inj same
      exact fails start first List.mem_cons_self other came
    | ok next =>
      rw [came, ok_bind] at same
      exact ih (fun sofar item member => fails sofar item (List.mem_cons_of_mem first member)) same

/-- Steps that a projection takes to other steps come to what it takes to what those come to. -/
theorem foldlM_map (project : γ → β) {step : γ → α → Except ε γ} {plain : β → α → Except ε β}
    {list : List α} (same : ∀ sofar, ∀ item ∈ list,
      (step sofar item).map project = plain (project sofar) item) (start : γ) :
    (list.foldlM step start).map project = list.foldlM plain (project start) := by
  induction list generalizing start with
  | nil => rfl
  | cons first rest ih =>
    have there := same start first List.mem_cons_self
    rw [List.foldlM_cons, List.foldlM_cons, ← there]
    cases step start first with
    | error error => rfl
    | ok next => exact ih (fun sofar item member =>
        same sofar item (List.mem_cons_of_mem first member)) next

/-! ### Steps that each come to something of their own -/

/-- The error that comes first among some outcomes, after nothing but values. -/
def IsFirstError (error : ε) (outcomes : List (Except ε α)) : Prop :=
  ∃ (values : List α) (rest : List (Except ε α)),
    outcomes = values.map .ok ++ .error error :: rest

/-- No outcomes have no first error. -/
theorem not_isFirstError_nil (error : ε) : ¬ IsFirstError error ([] : List (Except ε α)) := by
  rintro ⟨values, rest, same⟩
  cases values <;> cases same

/-- The first error after an error is that one. -/
theorem isFirstError_error_cons_iff {error first : ε} {outcomes : List (Except ε α)} :
    IsFirstError error (.error first :: outcomes) ↔ first = error := by
  constructor
  · rintro ⟨values, rest, same⟩
    cases values with
    | nil =>
      injection same with head
      injection head
    | cons value values => cases same
  · rintro rfl
    exact ⟨[], outcomes, rfl⟩

/-- The first error after a value is the first one of the rest. -/
theorem isFirstError_ok_cons_iff {error : ε} {first : α} {outcomes : List (Except ε α)} :
    IsFirstError error (.ok first :: outcomes) ↔ IsFirstError error outcomes := by
  constructor
  · rintro ⟨values, rest, same⟩
    cases values with
    | nil => cases same
    | cons value values =>
      injection same with head tail
      exact ⟨values, rest, tail⟩
  · rintro ⟨values, rest, rfl⟩
    exact ⟨first :: values, rest, rfl⟩

/-- A list comes to values exactly if each step comes to its own. -/
theorem mapM_eq_ok_iff {step : α → Except ε β} {list : List α} {values : List β} :
    list.mapM step = .ok values ↔ list.map step = values.map .ok := by
  induction list generalizing values with
  | nil => cases values <;> simp [pure, Except.pure]
  | cons first rest ih =>
    rw [List.mapM_cons, List.map_cons]
    cases came : step first with
    | error error => cases values <;> simp
    | ok value =>
      rw [ok_bind, bind_eq_ok_iff]
      simp only [ih]
      cases values with
      | nil => simp [pure, Except.pure]
      | cons one more =>
        constructor
        · rintro ⟨others, same, equal⟩
          injection equal with equal
          injection equal with head tail
          rw [same, head, tail, List.map_cons]
        · intro same
          injection same with head tail
          injection head with head
          exact ⟨more, tail, by rw [head]; rfl⟩

/-- A list comes to an error exactly if it is the first one among what the steps come to. -/
theorem mapM_eq_error_iff {step : α → Except ε β} {list : List α} {error : ε} :
    list.mapM step = .error error ↔ IsFirstError error (list.map step) := by
  induction list with
  | nil => exact ⟨nofun, fun first => absurd first (not_isFirstError_nil error)⟩
  | cons first rest ih =>
    rw [List.mapM_cons, List.map_cons]
    cases came : step first with
    | error other => rw [error_bind, isFirstError_error_cons_iff, Except.error.injEq]
    | ok value =>
      rw [isFirstError_ok_cons_iff, ← ih, ok_bind]
      cases rest.mapM step with
      | error other => rfl
      | ok others => exact ⟨nofun, nofun⟩

/-- A list comes to values exactly if every step comes to one. -/
theorem exists_mapM_eq_ok_iff {step : α → Except ε β} {list : List α} :
    (∃ values, list.mapM step = .ok values) ↔ ∀ item ∈ list, ∃ value, step item = .ok value := by
  constructor
  · rintro ⟨values, came⟩ item member
    have among : step item ∈ values.map .ok :=
      mapM_eq_ok_iff.1 came ▸ List.mem_map_of_mem member
    obtain ⟨value, _, same⟩ := List.mem_map.1 among
    exact ⟨value, same.symm⟩
  · intro each
    cases came : list.mapM step with
    | ok values => exact ⟨values, rfl⟩
    | error error =>
      obtain ⟨values, rest, same⟩ := mapM_eq_error_iff.1 came
      have among : (.error error : Except ε β) ∈ list.map step := by
        rw [same]
        exact List.mem_append_right _ List.mem_cons_self
      obtain ⟨item, member, failed⟩ := List.mem_map.1 among
      obtain ⟨value, succeeded⟩ := each item member
      rw [succeeded] at failed
      cases failed

/-- What values come to in two ways, one step after the other or both at once, is the same. -/
theorem mapM_bind {first : α → Except ε β} {second : β → Except ε γ} {list : List α}
    {values : List β} (came : list.mapM first = .ok values) :
    list.mapM (fun item => first item >>= second) = values.mapM second := by
  induction list generalizing values with
  | nil =>
    obtain rfl : [] = values := Except.ok.inj came
    rfl
  | cons item rest ih =>
    rw [mapM_eq_ok_iff] at came
    cases values with
    | nil => cases came
    | cons value values =>
      injection came with head tail
      rw [List.mapM_cons, List.mapM_cons, head, ok_bind, ih (mapM_eq_ok_iff.2 tail)]

/-! ### Outcomes that go together -/

/-- Two outcomes are both errors that go together, or both values that do. -/
inductive Pairs {δ : Type} (errors : ε → δ → Prop) (values : α → β → Prop) :
    Except ε α → Except δ β → Prop where
  /-- Both are errors. -/
  | error {first : ε} {second : δ} (together : errors first second) :
    Pairs errors values (.error first) (.error second)
  /-- Both are values. -/
  | ok {first : α} {second : β} (together : values first second) :
    Pairs errors values (.ok first) (.ok second)

section Pairs

variable {δ ζ : Type} {errors : ε → δ → Prop} {values : α → β → Prop}

/-- Values that go together in one way go together in another that follows from it. -/
theorem Pairs.imp {others : α → β → Prop} {left : Except ε α} {right : Except δ β}
    (pair : Pairs errors values left right)
    (follows : ∀ first second, values first second → others first second) :
    Pairs errors others left right := by
  cases pair with
  | error failed => exact .error failed
  | ok together => exact .ok (follows _ _ together)

/-- Steps along a list that go together come to outcomes that go together. -/
theorem Pairs.foldlM {left : α → ζ → Except ε α} {right : β → ζ → Except δ β} {list : List ζ}
    (each : ∀ item ∈ list, ∀ first second, values first second →
      Pairs errors values (left first item) (right second item)) {first : α} {second : β}
    (together : values first second) :
    Pairs errors values (list.foldlM left first) (list.foldlM right second) := by
  induction list generalizing first second with
  | nil => exact .ok together
  | cons item rest ih =>
    rw [List.foldlM_cons, List.foldlM_cons]
    have step := each item List.mem_cons_self first second together
    generalize left first item = outcome at step ⊢
    generalize right second item = other at step ⊢
    cases step with
    | error failed => exact .error failed
    | ok next => exact ih (fun other member => each other (List.mem_cons_of_mem item member)) next

end Pairs

end Except

namespace Metering

/-! ## Counting -/

namespace Tally

/-- How often an event has happened. -/
def count (tally : Tally) : CacheEvent → Nat
  | .hit => tally.hits
  | .coldRead => tally.coldReads
  | .windowBypass => tally.windowBypasses
  | .created => tally.created
  | .refreshed => tally.refreshed
  | .frozenSkip => tally.frozenSkips
  | .rejected => tally.rejected
  | .fallback => tally.fallbacks

/-- One more event is counted once. -/
theorem count_add (tally : Tally) (first event : CacheEvent) :
    (tally.add first).count event = tally.count event + if first = event then 1 else 0 := by
  cases first <;> cases event <;> rfl

/-- Events are counted as often as they happen. -/
theorem count_foldl_add (events : List CacheEvent) (tally : Tally) (event : CacheEvent) :
    (events.foldl add tally).count event = tally.count event + events.count event := by
  induction events generalizing tally with
  | nil => rfl
  | cons first rest ih =>
    rw [List.foldl_cons, ih, count_add, List.count_cons]
    simp only [beq_iff_eq]
    omega

/-- What does not happen is not counted. -/
theorem count_foldl_add_of_not_mem {events : List CacheEvent} {event : CacheEvent}
    (absent : event ∉ events) (tally : Tally) :
    (events.foldl add tally).count event = tally.count event := by
  rw [count_foldl_add, List.count_eq_zero.2 absent, Nat.add_zero]

end Tally

namespace Request

/-- Whether a request leaves everything as it is. -/
def IsLookup {σ : Type} : Request σ → Prop
  | .insert _ => False
  | _ => True

end Request

namespace Database

variable {σ : Type}

/-- A lookup leaves the database as it is. -/
theorem answer_snd_of_isLookup {request : Request σ} (lookup : request.IsLookup)
    (database : Database σ) : (database.answer request).2 = database := by
  cases request with
  | insert reading => exact lookup.elim
  | _ => rfl

end Database

namespace Plan

variable {σ α β : Type}

/-- What a plan comes to over a database that stays as it is. -/
def result (database : Database σ) : Plan σ α → α
  | done result => result
  | ask request next => result database (next (database.answer request).1)
  | tally _ next => result database next
  | poll next => result database next

/-- What a plan counts over a database that stays as it is. -/
def events (database : Database σ) : Plan σ α → List CacheEvent
  | done _ => []
  | ask request next => events database (next (database.answer request).1)
  | tally event next => event :: events database next
  | poll next => events database next

/-- Every request of a plan is of one kind and every event it counts of another, whatever the
answers are. -/
def Uses (allowed : Request σ → Prop) (counted : CacheEvent → Prop) : Plan σ α → Prop
  | done _ => True
  | ask request next => allowed request ∧ ∀ answer, Uses allowed counted (next answer)
  | tally event next => counted event ∧ Uses allowed counted next
  | poll next => Uses allowed counted next

variable {allowed : Request σ → Prop} {counted : CacheEvent → Prop}

/-- The result of one plan after another is the second one's. -/
theorem result_bind (database : Database σ) (plan : Plan σ α) (next : α → Plan σ β) :
    result database (plan.bind next) = result database (next (result database plan)) := by
  induction plan with
  | done result => rfl
  | ask request rest ih => exact ih _
  | tally event rest ih => exact ih
  | poll rest ih => exact ih

/-- One plan after another counts the events of both. -/
theorem events_bind (database : Database σ) (plan : Plan σ α) (next : α → Plan σ β) :
    events database (plan.bind next) =
      events database plan ++ events database (next (result database plan)) := by
  induction plan with
  | done result => rfl
  | ask request rest ih => exact ih _
  | tally event rest ih => exact congrArg (event :: ·) ih
  | poll rest ih => exact ih

/-- One plan after another keeps to what both keep to. -/
theorem Uses.bind {plan : Plan σ α} {next : α → Plan σ β} (first : plan.Uses allowed counted)
    (rest : ∀ value, (next value).Uses allowed counted) :
    (plan.bind next).Uses allowed counted := by
  induction plan with
  | done result => exact rest result
  | ask request following ih => exact ⟨first.1, fun answer => ih answer (first.2 answer)⟩
  | tally event following ih => exact ⟨first.1, ih first.2⟩
  | poll following ih => exact ih first

/-- A plan that keeps to something keeps to what follows from it. -/
theorem Uses.imp {plan : Plan σ α} {others : Request σ → Prop} {further : CacheEvent → Prop}
    (uses : plan.Uses allowed counted) (asks : ∀ request, allowed request → others request)
    (counts : ∀ event, counted event → further event) : plan.Uses others further := by
  induction plan with
  | done result => trivial
  | ask request next ih => exact ⟨asks request uses.1, fun answer => ih answer (uses.2 answer)⟩
  | tally event next ih => exact ⟨counts event uses.1, ih uses.2⟩
  | poll next ih => exact ih uses

/-- A plan counts only events that it may count. -/
theorem Uses.counted_of_mem_events {plan : Plan σ α} (uses : plan.Uses allowed counted)
    (database : Database σ) : ∀ event ∈ events database plan, counted event := by
  induction plan with
  | done result =>
    intro event member
    cases member
  | ask request next ih => exact ih _ (uses.2 _)
  | tally first next ih =>
    intro event member
    rcases List.mem_cons.1 member with rfl | member
    · exact uses.1
    · exact ih uses.2 event member
  | poll next ih => exact ih uses

end Plan

namespace Limits

/-- Limits that have not come are not reached without waiting. -/
theorem wait_zero_of_check {limits : Limits} {elapsed : Nat}
    (open_ : limits.check elapsed = .none) : limits.wait elapsed 0 = (elapsed, .none) := by
  obtain ⟨deadline, cancellation⟩ := limits
  have bounds : hasCome cancellation elapsed = false ∧ hasCome deadline elapsed = false := by
    unfold check at open_
    split at open_
    · cases open_
    · split at open_
      · cases open_
      · constructor <;> simp_all
  have passed : ∀ limit : Option Nat, hasCome limit elapsed = false →
      limit.filter (fun moment => decide (moment ≤ elapsed)) = .none := by
    intro limit ahead
    cases limit with
    | none => rfl
    | some moment => simpa [hasCome, Option.filter] using ahead
  unfold wait firstUpTo
  rw [Nat.add_zero, passed _ bounds.1, passed _ bounds.2]

end Limits

namespace Plan

variable {σ α : Type}

/-- A plan of lookups over a database in memory comes to its result, unless a limit has come when
it starts. -/
theorem run_serve {limits : Limits} {elapsed : Nat} (open_ : limits.check elapsed = none)
    {plan : Plan σ α} {counted : CacheEvent → Prop}
    (lookups : plan.Uses Request.IsLookup counted) (database : Database σ) (tally : Tally) :
    run Database.serve limits plan ⟨database, elapsed, tally⟩ =
      (.ok (plan.result database),
        ⟨database, elapsed, (plan.events database).foldl Tally.add tally⟩) := by
  induction plan generalizing tally with
  | done result => rfl
  | ask request next ih =>
    have unchanged := Database.answer_snd_of_isLookup lookups.1 database
    simp only [run, Database.serve, Limits.wait_zero_of_check open_, unchanged]
    exact ih _ (lookups.2 _) tally
  | tally event next ih => exact ih lookups.2 _
  | poll next ih =>
    simp only [run, open_]
    exact ih lookups tally

end Plan

/-! ## Attempts -/

namespace Attempt

variable {σ α β γ : Type}

/-- What an attempt comes to over a database that stays as it is. -/
def result (database : Database σ) (attempt : Attempt σ α) : Except QueryError α :=
  Plan.result database attempt.run

/-- What an attempt counts over a database that stays as it is. -/
def events (database : Database σ) (attempt : Attempt σ α) : List CacheEvent :=
  Plan.events database attempt.run

/-- Every request of an attempt is of one kind and every event it counts of another. -/
def Uses (allowed : Request σ → Prop) (counted : CacheEvent → Prop) (attempt : Attempt σ α) :
    Prop :=
  Plan.Uses allowed counted attempt.run

section Result

variable (database : Database σ)

/-- A given value comes to itself. -/
@[simp] theorem result_pure (value : α) :
    (pure value : Attempt σ α).result database = .ok value := rfl

/-- A given error comes to itself. -/
@[simp] theorem result_throw (error : QueryError) :
    (throw error : Attempt σ α).result database = .error error := rfl

/-- A request comes to what the database answers. -/
@[simp] theorem result_request (request : Request σ) :
    (Attempt.request request).result database =
      (database.answer request).1.mapError StoreError.toQueryError := rfl

/-- Raising a counter always succeeds. -/
@[simp] theorem result_tally (event : CacheEvent) :
    (Attempt.tally event : Attempt σ Unit).result database = .ok () := rfl

/-- A given outcome comes to itself. -/
@[simp] theorem result_ofExcept (outcome : Except QueryError α) :
    (Attempt.ofExcept outcome : Attempt σ α).result database = outcome := rfl

/-- Polling first makes no difference to the result. -/
@[simp] theorem result_polled (attempt : Attempt σ α) :
    attempt.polled.result database = attempt.result database := rfl

/-- What comes of one attempt after another. -/
@[simp] theorem result_bind (attempt : Attempt σ α) (next : α → Attempt σ β) :
    (attempt >>= next).result database =
      attempt.result database >>= fun value => (next value).result database := by
  have split := Plan.result_bind database attempt.run (ExceptT.bindCont next)
  change Plan.result database (attempt.run.bind (ExceptT.bindCont next)) = _
  rw [split]
  unfold result
  cases Plan.result database attempt.run with
  | ok value => rfl
  | error error => rfl

/-- The outcome of an attempt is a value, also where the attempt fails. -/
@[simp] theorem result_outcome (attempt : Attempt σ α) :
    attempt.outcome.result database = .ok (attempt.result database) :=
  Plan.result_bind database attempt.run _

/-- An attempt made along a list comes to what its results come to along the list. -/
@[simp] theorem result_foldlM (step : β → α → Attempt σ β) (start : β) (list : List α) :
    (list.foldlM step start).result database =
      list.foldlM (fun sofar item => (step sofar item).result database) start := by
  induction list generalizing start with
  | nil => rfl
  | cons first rest ih =>
    simp only [List.foldlM_cons, result_bind]
    congr 1
    funext sofar
    exact ih sofar

end Result

section Events

variable (database : Database σ)

/-- A given value counts nothing. -/
@[simp] theorem events_pure (value : α) : (pure value : Attempt σ α).events database = [] := rfl

/-- A request counts nothing. -/
@[simp] theorem events_request (request : Request σ) :
    (Attempt.request request).events database = [] := rfl

/-- Raising a counter counts its event. -/
@[simp] theorem events_tally (event : CacheEvent) :
    (Attempt.tally event : Attempt σ Unit).events database = [event] := rfl

/-- A given outcome counts nothing. -/
@[simp] theorem events_ofExcept (outcome : Except QueryError α) :
    (Attempt.ofExcept outcome : Attempt σ α).events database = [] := rfl

/-- One attempt after another counts the events of both, unless the first fails. -/
theorem events_bind (attempt : Attempt σ α) (next : α → Attempt σ β) :
    (attempt >>= next).events database = attempt.events database ++
      match attempt.result database with
      | .ok value => (next value).events database
      | .error _ => [] := by
  have split := Plan.events_bind database attempt.run (ExceptT.bindCont next)
  change Plan.events database (attempt.run.bind (ExceptT.bindCont next)) = _
  rw [split]
  unfold events result
  cases Plan.result database attempt.run with
  | ok value => rfl
  | error error => rfl

/-- Asking for the outcome of an attempt counts what the attempt counts. -/
@[simp] theorem events_outcome (attempt : Attempt σ α) :
    attempt.outcome.events database = attempt.events database := by
  have split := Plan.events_bind (β := Except QueryError (Except QueryError α)) database attempt.run
    fun result => .done (.ok result)
  exact split.trans (List.append_nil _)

/-- Raising counters for some events counts those events. -/
@[simp] theorem events_tallyAll (list : List CacheEvent) :
    (Attempt.tallyAll list : Attempt σ Unit).events database = list := by
  induction list with
  | nil => rfl
  | cons first rest ih =>
    unfold tallyAll
    rw [events_bind]
    exact congrArg (first :: ·) ih

end Events

/-- Raising counters always succeeds. -/
@[simp] theorem result_tallyAll (database : Database σ) (list : List CacheEvent) :
    (Attempt.tallyAll list : Attempt σ Unit).result database = .ok () := by
  induction list with
  | nil => rfl
  | cons first rest ih =>
    unfold tallyAll
    rw [result_bind]
    exact ih

/-! ## What attempts keep to -/

section Uses

variable {allowed : Request σ → Prop} {counted : CacheEvent → Prop}

/-- A given value needs no request and no event. -/
theorem uses_pure (value : α) : (pure value : Attempt σ α).Uses allowed counted := trivial

/-- A given error needs no request and no event. -/
theorem uses_throw (error : QueryError) :
    (throw error : Attempt σ α).Uses allowed counted := trivial

/-- A given outcome needs no request and no event. -/
theorem uses_ofExcept (outcome : Except QueryError α) :
    (Attempt.ofExcept outcome : Attempt σ α).Uses allowed counted := trivial

/-- A request keeps to the requests that it is one of. -/
theorem uses_request {request : Request σ} (permitted : allowed request) :
    (Attempt.request request).Uses allowed counted := ⟨permitted, fun _ => trivial⟩

/-- Raising a counter keeps to the events that its event is one of. -/
theorem uses_tally {event : CacheEvent} (permitted : counted event) :
    (Attempt.tally event : Attempt σ Unit).Uses allowed counted := ⟨permitted, trivial⟩

/-- Polling first makes no difference to what an attempt keeps to. -/
theorem Uses.polled {attempt : Attempt σ α} (uses : attempt.Uses allowed counted) :
    attempt.polled.Uses allowed counted := uses

/-- One attempt after another keeps to what both keep to. -/
theorem Uses.bind {attempt : Attempt σ α} {next : α → Attempt σ β}
    (first : attempt.Uses allowed counted) (rest : ∀ value, (next value).Uses allowed counted) :
    (attempt >>= next).Uses allowed counted := by
  refine Plan.Uses.bind first fun outcome => ?_
  cases outcome with
  | ok value => exact rest value
  | error error => trivial

/-- The outcome of an attempt keeps to what the attempt keeps to. -/
theorem Uses.outcome {attempt : Attempt σ α} (uses : attempt.Uses allowed counted) :
    attempt.outcome.Uses allowed counted := Plan.Uses.bind uses fun _ => trivial

/-- An attempt made along a list keeps to what each of its steps keeps to. -/
theorem Uses.foldlM {step : β → α → Attempt σ β} {list : List α}
    (each : ∀ sofar item, (step sofar item).Uses allowed counted) (start : β) :
    (list.foldlM step start).Uses allowed counted := by
  induction list generalizing start with
  | nil => exact uses_pure start
  | cons first rest ih =>
    rw [List.foldlM_cons]
    exact (each start first).bind ih

/-- Raising counters for some events counts those events. -/
theorem uses_tallyAll {list : List CacheEvent} (permitted : ∀ event ∈ list, counted event) :
    (Attempt.tallyAll list : Attempt σ Unit).Uses allowed counted := by
  induction list with
  | nil => exact uses_pure ()
  | cons first rest ih =>
    unfold tallyAll
    refine (uses_tally (permitted first List.mem_cons_self)).bind fun _ => ?_
    exact ih fun event member => permitted event (List.mem_cons_of_mem first member)

end Uses

end Attempt

end Metering
