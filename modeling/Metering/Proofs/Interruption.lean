import Metering.Cancellation

/-!
# A context that is over stays over

Work is cut short at the first moment at which a check of its limits says that
the query is over (`Limits.run_cases`). A check that has said so says so ever
after, since limits only come closer and time only passes
(`QueryContext.IsOver.after`). So once something was cut short, everything is from
then on, and what work comes to of its own it comes to before every limit
(`QueryContext.never_comes_back`).
-/

namespace Metering

namespace Limits

variable {limits : Limits}

/-! ## Moments at which a query is over -/

/-- A limit has come if it is no later. -/
theorem hasCome_iff (limit : Option Nat) (elapsed : Nat) :
    hasCome limit elapsed ↔ ∃ moment, limit = some moment ∧ moment ≤ elapsed := by
  cases limit with
  | none => simp [hasCome]
  | some moment => simp [hasCome]

/-- A limit that has come has come at every later moment. -/
theorem hasCome_mono {limit : Option Nat} {elapsed later : Nat} (come : hasCome limit elapsed)
    (le : elapsed ≤ later) : hasCome limit later := by
  obtain ⟨moment, same, before⟩ := (hasCome_iff ..).1 come
  exact (hasCome_iff ..).2 ⟨moment, same, Nat.le_trans before le⟩

/-- A query is over as soon as one of its limits has come. -/
theorem isSome_check_iff (limits : Limits) (elapsed : Nat) :
    (limits.check elapsed).isSome ↔
      hasCome limits.cancellation elapsed ∨ hasCome limits.deadline elapsed := by
  unfold check
  cases hasCome limits.cancellation elapsed <;> cases hasCome limits.deadline elapsed <;> decide

/-- A query that is over is over at every later moment. -/
theorem isSome_check_mono {elapsed later : Nat} (ended : (limits.check elapsed).isSome)
    (le : elapsed ≤ later) : (limits.check later).isSome :=
  (isSome_check_iff ..).2 <|
    ((isSome_check_iff ..).1 ended).imp (fun come => hasCome_mono come le)
      fun come => hasCome_mono come le

/-- At a moment at which a query is not over, its limits are still to come. -/
theorem lt_of_check_eq_none {elapsed : Nat} (still : limits.check elapsed = .none) :
    (∀ deadline, limits.deadline = some deadline → elapsed < deadline) ∧
      ∀ cancellation, limits.cancellation = some cancellation → elapsed < cancellation := by
  have neither : ¬ (hasCome limits.cancellation elapsed ∨ hasCome limits.deadline elapsed) := by
    rw [← isSome_check_iff, still]
    decide
  exact ⟨fun deadline same => Nat.not_le.1 fun le =>
      neither (Or.inr ((hasCome_iff ..).2 ⟨deadline, same, le⟩)),
    fun cancellation same => Nat.not_le.1 fun le =>
      neither (Or.inl ((hasCome_iff ..).2 ⟨cancellation, same, le⟩))⟩

/-- No limit comes up to a moment at which the query is not over. -/
theorem firstUpTo_eq_none_iff (limits : Limits) (moment : Nat) :
    limits.firstUpTo moment = .none ↔ limits.check moment = .none := by
  obtain ⟨deadline, cancellation⟩ := limits
  unfold firstUpTo check hasCome
  rcases deadline with - | deadline <;> rcases cancellation with - | cancel <;>
    simp only [Option.filter_none, Option.filter_some, decide_eq_true_eq] <;>
    grind

/-- The first limit that comes up to a moment comes when the query is over for the first time. -/
theorem firstUpTo_spec {first moment : Nat} {who : Interruption}
    (found : limits.firstUpTo moment = some (first, who)) :
    first ≤ moment ∧ limits.check first = some who ∧
      ∀ earlier < first, limits.check earlier = .none := by
  obtain ⟨deadline, cancellation⟩ := limits
  unfold firstUpTo at found
  unfold check hasCome
  -- Where both limits are there, the one that comes first decides who ends the query.
  rcases deadline with - | deadline <;> rcases cancellation with - | cancel <;>
    simp only [Option.filter_none, Option.filter_some, decide_eq_true_eq] at found ⊢ <;>
    grind

/-! ## Work under limits -/

/-- Work is cut short at a moment if the query is over then and has not been before, as long as the
work went on. -/
structure CutsAt (limits : Limits) (elapsed duration moment : Nat) (who : Interruption) :
    Prop where
  /-- The work has begun. -/
  begun : elapsed ≤ moment
  /-- The work has not gone on for longer than it takes. -/
  inside : moment ≤ elapsed + duration
  /-- The query is over. -/
  ended : limits.check moment = some who
  /-- The query has not been over since the work began. -/
  first : ∀ earlier, elapsed ≤ earlier → earlier < moment → limits.check earlier = .none

/-- Work that is begun at a moment is cut short, whatever it would have come to, or comes to its own
result before every limit. -/
theorem run_cases (limits : Limits) (elapsed duration : Nat) :
    (∃ moment who, limits.CutsAt elapsed duration moment who ∧
      ∀ {α : Type} (result : Except QueryError α),
        limits.run elapsed duration result = (moment, .error who.toQueryError)) ∨
    limits.check (elapsed + duration) = .none ∧
      ∀ {α : Type} (result : Except QueryError α),
        limits.run elapsed duration result = (elapsed + duration, result) := by
  unfold run wait
  cases checked : limits.check elapsed with
  | some who =>
    have cuts : limits.CutsAt elapsed duration elapsed who :=
      ⟨Nat.le_refl _, Nat.le_add_right .., checked, fun _ least less => absurd less (by omega)⟩
    exact Or.inl ⟨elapsed, who, cuts, fun _ => rfl⟩
  | none =>
    cases found : limits.firstUpTo (elapsed + duration) with
    | none => exact Or.inr ⟨(firstUpTo_eq_none_iff ..).1 found, fun _ => rfl⟩
    | some earliest =>
      obtain ⟨moment, who⟩ := earliest
      obtain ⟨inside, ended, before⟩ := firstUpTo_spec found
      have begun : elapsed ≤ moment := Nat.not_lt.1 fun early => by
        have come : (limits.check moment).isSome := Option.isSome_iff_exists.2 ⟨who, ended⟩
        have still := isSome_check_mono come (Nat.le_of_lt early)
        rw [checked] at still
        cases still
      have cuts : limits.CutsAt elapsed duration moment who :=
        ⟨begun, inside, ended, fun earlier _ less => before earlier less⟩
      refine Or.inl ⟨moment, who, cuts, fun _ => ?_⟩
      dsimp only
      rw [Nat.max_eq_right begun]

/-- Work that comes to whatever its result is has finished before the query was over. -/
theorem check_eq_none_of_own {α : Type} {elapsed duration : Nat}
    (own : ∀ result : Except QueryError α, (limits.run elapsed duration result).2 = result) :
    limits.check (elapsed + duration) = .none := by
  rcases limits.run_cases elapsed duration with ⟨moment, who, _, same⟩ | ⟨still, _⟩
  · -- A result that is no cancellation would have been lost.
    have other := own (.error (.storage ""))
    rw [same] at other
    cases other
  · exact still

/-- Work that begins before a deadline does not go on after it. -/
theorem run_le_deadline {α : Type} {elapsed deadline : Nat}
    (limited : limits.deadline = some deadline) (begun : elapsed < deadline) (duration : Nat)
    (result : Except QueryError α) : (limits.run elapsed duration result).1 ≤ deadline := by
  rcases limits.run_cases elapsed duration with ⟨moment, who, cuts, same⟩ | ⟨still, own⟩
  · rw [same]
    refine Nat.not_lt.1 fun late => ?_
    have before := cuts.first deadline (Nat.le_of_lt begun) late
    exact Nat.lt_irrefl _ ((lt_of_check_eq_none before).1 deadline limited)
  · rw [own]
    exact Nat.le_of_lt ((lt_of_check_eq_none still).1 deadline limited)

end Limits

/-! ## Contexts in use -/

/-- What is done with a context. -/
inductive ContextStep : Type 1 where
  /-- It is checked. -/
  | check
  /-- The caller cancels. -/
  | cancel
  /-- Time passes. -/
  | sleep (millis : Nat)
  /-- Work that takes some milliseconds and comes to a result is run in it. -/
  | run {α : Type} (millis : Nat) (result : Except QueryError α)

/-- A step asks whether the query may go on. -/
def ContextStep.Asks : ContextStep → Prop
  | .check => True
  | .run _ _ => True
  | _ => False

/-- The limits of a query at a moment. -/
structure QueryContext where
  /-- When the query has to end. -/
  limits : Limits
  /-- The moment. -/
  elapsed : Nat

namespace QueryContext

/-- The context after a step. -/
def after (context : QueryContext) : ContextStep → QueryContext
  | .check => context
  | .cancel => { context with limits := context.limits.cancelAt context.elapsed }
  | .sleep millis => { context with elapsed := context.elapsed + millis }
  | .run millis result =>
    { context with elapsed := (context.limits.run context.elapsed millis result).1 }

/-- The context after one step after another. -/
def afterAll (context : QueryContext) (steps : List ContextStep) : QueryContext :=
  steps.foldl after context

/-- The caller has cancelled. -/
def IsCancelled (context : QueryContext) : Prop :=
  Limits.hasCome context.limits.cancellation context.elapsed

/-- The query is over. -/
def IsOver (context : QueryContext) : Prop :=
  (context.limits.check context.elapsed).isSome

/-- A check or a run is told that the query was cancelled, a run whatever its work would have come
to. -/
def CutsShort (context : QueryContext) : ContextStep → Prop
  | .check => ∃ who, context.limits.check context.elapsed = some who
  | .run (α := α) millis _ => ∃ who : Interruption, ∀ result : Except QueryError α,
      (context.limits.run context.elapsed millis result).2 = .error who.toQueryError
  | _ => False

variable {context : QueryContext}

/-- Time does not go back. -/
theorem le_elapsed_after (context : QueryContext) (step : ContextStep) :
    context.elapsed ≤ (context.after step).elapsed := by
  cases step with
  | check => exact Nat.le_refl _
  | cancel => exact Nat.le_refl _
  | sleep millis => exact Nat.le_add_right ..
  | run millis result =>
    change _ ≤ (context.limits.run context.elapsed millis result).1
    rcases context.limits.run_cases context.elapsed millis with ⟨_, _, cuts, same⟩ | ⟨_, same⟩
    · rw [same]
      exact cuts.begun
    · rw [same]
      exact Nat.le_add_right ..

/-- The caller has cancelled once there was a step that cancels. -/
theorem isCancelled_after_cancel (context : QueryContext) :
    (context.after .cancel).IsCancelled := by
  refine (Limits.hasCome_iff ..).2 ⟨_, rfl, ?_⟩
  cases context.limits.cancellation with
  | none => exact Nat.le_refl _
  | some moment => exact Nat.min_le_right ..

/-- A caller does not take back a cancellation. -/
theorem IsCancelled.after (cancelled : context.IsCancelled) (step : ContextStep) :
    (context.after step).IsCancelled := by
  have later := Limits.hasCome_mono cancelled (context.le_elapsed_after step)
  cases step with
  | cancel => exact context.isCancelled_after_cancel
  | check => exact later
  | sleep millis => exact later
  | run millis result => exact later

/-- A query that is over stays over. -/
theorem IsOver.after (ended : context.IsOver) (step : ContextStep) :
    (context.after step).IsOver := by
  have later := Limits.isSome_check_mono ended (context.le_elapsed_after step)
  cases step with
  | cancel => exact (Limits.isSome_check_iff ..).2 (Or.inl context.isCancelled_after_cancel)
  | check => exact later
  | sleep millis => exact later
  | run millis result => exact later

/-- What every step keeps holds after all of them. -/
theorem afterAll_induction (holds : QueryContext → Prop)
    (keeps : ∀ context step, holds context → holds (context.after step))
    (initially : holds context) (steps : List ContextStep) : holds (context.afterAll steps) := by
  induction steps generalizing context with
  | nil => exact initially
  | cons first rest ih => exact ih (keeps context first initially)

/-- The caller has cancelled if one of the steps so far has. -/
theorem isCancelled_afterAll_of_mem {steps : List ContextStep} (member : .cancel ∈ steps)
    (context : QueryContext) : (context.afterAll steps).IsCancelled := by
  induction steps generalizing context with
  | nil => cases member
  | cons first rest ih =>
    cases member with
    | head =>
      exact afterAll_induction IsCancelled (fun _ step cancelled => cancelled.after step)
        context.isCancelled_after_cancel rest
    | tail _ later => exact ih later (context.after first)

/-- A context that cuts something short is over afterwards. -/
theorem CutsShort.isOver_after {step : ContextStep} (cuts : context.CutsShort step) :
    (context.after step).IsOver := by
  cases step with
  | check => exact Option.isSome_iff_exists.2 cuts
  | cancel => exact cuts.elim
  | sleep millis => exact cuts.elim
  | run millis result =>
    unfold IsOver QueryContext.after
    dsimp only
    rcases context.limits.run_cases context.elapsed millis with ⟨moment, who, cut, same⟩ | ⟨_, own⟩
    · rw [same]
      exact Option.isSome_iff_exists.2 ⟨who, cut.ended⟩
    · -- Work that is not cut short comes to any result that it has, also to one that is no
      -- cancellation.
      obtain ⟨who, told⟩ := cuts
      have other := told (.error (.storage ""))
      rw [own] at other
      cases other

/-- A context that is over cuts short whatever asks it. -/
theorem IsOver.cutsShort (ended : context.IsOver) {step : ContextStep} (asks : step.Asks) :
    context.CutsShort step := by
  obtain ⟨who, checked⟩ := Option.isSome_iff_exists.1 ended
  cases step with
  | check => exact ⟨who, checked⟩
  | cancel => exact asks.elim
  | sleep millis => exact asks.elim
  | run millis result =>
    refine ⟨who, fun other => ?_⟩
    unfold Limits.run
    rw [checked]

/-- Contexts never come back, however they are used. Once a check or a run was cut short, every
later one is. A check or a run that begins after the caller has cancelled is told so, whether the
deadline has passed or not. A run that is not cut short comes to its own result, and one that does
has finished before the deadline and before any cancellation. A run that begins before the deadline
does not end after it. -/
theorem never_comes_back (start : QueryContext) (steps : List ContextStep) :
    let context := start.afterAll steps
    (∀ step, context.CutsShort step → ∀ between next, ContextStep.Asks next →
      ((context.after step).afterAll between).CutsShort next) ∧
    (.cancel ∈ steps ∨ context.IsCancelled →
      context.limits.check context.elapsed = some .byCaller ∧
        ∀ {α : Type} millis (result : Except QueryError α),
          context.limits.run context.elapsed millis result =
            (context.elapsed, .error (.cancelled "cancelled by caller"))) ∧
    (∀ {α : Type} millis (result : Except QueryError α), ¬ context.CutsShort (.run millis result) →
      context.limits.run context.elapsed millis result = (context.elapsed + millis, result)) ∧
    (∀ {α : Type} millis,
      (∀ result : Except QueryError α,
        (context.limits.run context.elapsed millis result).2 = result) →
      (∀ deadline, context.limits.deadline = some deadline →
        context.elapsed + millis < deadline) ∧
      ¬ context.IsCancelled ∧
      ∀ cancellation, context.limits.cancellation = some cancellation →
        context.elapsed + millis < cancellation) ∧
    (∀ deadline, context.limits.deadline = some deadline → context.elapsed < deadline →
      ∀ {α : Type} millis (result : Except QueryError α),
        (context.limits.run context.elapsed millis result).1 ≤ deadline) := by
  intro context
  refine ⟨?_, ?_, ?_, ?_, ?_⟩
  · intro step cuts between next asks
    exact (afterAll_induction IsOver (fun _ step ended => ended.after step) cuts.isOver_after
      between).cutsShort asks
  · intro cancelled
    have come : context.IsCancelled :=
      cancelled.elim (fun member => isCancelled_afterAll_of_mem member start) id
    have checked : context.limits.check context.elapsed = some .byCaller := if_pos come
    refine ⟨checked, fun millis result => ?_⟩
    unfold Limits.run
    rw [checked]
    rfl
  · intro α millis result uncut
    rcases context.limits.run_cases context.elapsed millis with ⟨moment, who, _, same⟩ | ⟨_, own⟩
    · exact absurd ⟨who, fun other => congrArg Prod.snd (same other)⟩ uncut
    · exact own result
  · intro α millis own
    have still := Limits.check_eq_none_of_own own
    obtain ⟨deadlines, cancellations⟩ := Limits.lt_of_check_eq_none still
    refine ⟨deadlines, fun cancelled => ?_, cancellations⟩
    have ended : (context.limits.check (context.elapsed + millis)).isSome :=
      (Limits.isSome_check_iff ..).2
        (Or.inl (Limits.hasCome_mono cancelled (Nat.le_add_right ..)))
    rw [still] at ended
    cases ended
  · exact fun deadline limited begun _ millis result =>
      Limits.run_le_deadline limited begun millis result

/-- Work for twenty milliseconds and ten more asleep. -/
def briefSteps : List ContextStep := [.run 20 (.ok ()), .sleep 10]

/-- Under a deadline after fifty milliseconds, work for forty more is cut short at the deadline, and
so is a check later on, while work for ten more would have finished before it. A caller who cancels
after the deadline is the one whom a run names. -/
theorem never_comes_back_briefSteps :
    let start : QueryContext := ⟨⟨some 50, some 80⟩, 0⟩
    let context := start.afterAll briefSteps
    ((context.after (.run 40 (.ok ()))).afterAll [.sleep 5]).CutsShort .check ∧
      (context.limits.run context.elapsed 40 (.ok ())).1 ≤ 50 ∧
      context.limits.run context.elapsed 10 (.ok 7) = (40, .ok 7) ∧ context.elapsed + 10 < 50 ∧
      let late := start.afterAll (briefSteps ++ [.sleep 30, .cancel])
      late.limits.run late.elapsed 0 (.ok 7) = (60, .error (.cancelled "cancelled by caller")) := by
  intro start context
  obtain ⟨lasts, _, _, own, ends⟩ := never_comes_back start briefSteps
  have cuts : context.CutsShort (.run 40 (.ok ())) := ⟨.byDeadline, fun _ => rfl⟩
  have finishes : ∀ result : Except QueryError Nat,
      (context.limits.run context.elapsed 10 result).2 = result := fun _ => rfl
  have cancels : ContextStep.cancel ∈ briefSteps ++ [.sleep 30, .cancel] := by simp
  have named := (never_comes_back start (briefSteps ++ [.sleep 30, .cancel])).2.1 (Or.inl cancels)
  exact ⟨lasts _ cuts [.sleep 5] .check trivial, ends 50 rfl (by decide) 40 (.ok ()), rfl,
    (own 10 finishes).1 50 rfl, named.2 0 (.ok 7)⟩

end QueryContext

end Metering
