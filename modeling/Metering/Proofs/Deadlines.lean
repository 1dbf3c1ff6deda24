import Metering.Proofs.Faults
import Metering.Proofs.Inquiries

/-!
# A deadline only truncates

Elapsed time passes only while a plan waits for an answer, and every wait is
weighed against the deadline. A plan that would be over before the deadline
therefore runs as it would without one, and any other is cut off at the
deadline (`Plan.run_due`). An inquiry is cut off when it is made if its deadline
has passed by then, since it polls before it asks for anything, and keeps none of
the checkpoints that it has found (`Engine.inquire_due`).
-/

namespace Metering

variable {σ α ω : Type}

namespace Limits

/-- A deadline and no cancellation. -/
def due (deadline : Nat) : Limits := ⟨some deadline, .none⟩

/-- A query is over at a moment from the deadline on. -/
theorem check_due (deadline elapsed : Nat) :
    (due deadline).check elapsed = if deadline ≤ elapsed then some .byDeadline else .none := by
  by_cases passed : deadline ≤ elapsed <;> simp [check, hasCome, due, passed]

/-- Work that would end at the deadline or later is cut off there. -/
theorem wait_due (deadline elapsed duration : Nat) :
    (due deadline).wait elapsed duration =
      if deadline ≤ elapsed + duration then (max elapsed deadline, some .byDeadline)
      else (elapsed + duration, .none) := by
  by_cases passed : deadline ≤ elapsed + duration <;>
    simp [wait, firstUpTo, due, Option.filter, passed]

end Limits

namespace Plan

/-- Time does not run backwards. -/
theorem elapsed_le_run (serve : Service σ ω) (plan : Plan σ α) (progress : Progress ω) :
    progress.elapsed ≤ (run serve .none plan progress).2.elapsed := by
  induction plan generalizing progress with
  | done result => exact Nat.le_refl _
  | tally event next ih => exact ih { progress with tally := progress.tally.add event }
  | poll next ih => exact ih progress
  | ask request next ih =>
    have later := ih (serve request progress.world).1.answer
      { progress with
        world := (serve request progress.world).2
        elapsed := progress.elapsed + (serve request progress.world).1.delay }
    exact Nat.le_trans (Nat.le_add_right _ _) later

/-- A plan that starts before a deadline runs as it would without one if it would be over before
the deadline, and is cut off at the deadline if not. -/
theorem run_due (serve : Service σ ω) {deadline : Nat} (plan : Plan σ α) {progress : Progress ω}
    (starts : progress.elapsed < deadline) :
    if (run serve .none plan progress).2.elapsed < deadline then
      run serve (.due deadline) plan progress = run serve .none plan progress
    else
      (run serve (.due deadline) plan progress).1 = .error .byDeadline ∧
        (run serve (.due deadline) plan progress).2.elapsed = deadline := by
  induction plan generalizing progress with
  | done result =>
    have early : (run serve .none (.done result) progress).2.elapsed < deadline := starts
    rw [if_pos early]
    rfl
  | tally event next ih =>
    have onward : { progress with tally := progress.tally.add event }.elapsed < deadline := starts
    exact ih onward
  | poll next ih =>
    have open_ : (Limits.due deadline).check progress.elapsed = none := by
      rw [Limits.check_due, if_neg (Nat.not_le.2 starts)]
    have polled : run serve (.due deadline) (.poll next) progress =
        run serve (.due deadline) next progress := by
      simp only [run, open_]
    rw [polled]
    exact ih starts
  | ask request next ih =>
    rcases came : serve request progress.world with ⟨reply, world⟩
    have free : run serve .none (.ask request next) progress = run serve .none (next reply.answer)
        ⟨world, progress.elapsed + reply.delay, progress.tally⟩ := by
      simp only [run, came]
      rfl
    have waits := Limits.wait_due deadline progress.elapsed reply.delay
    by_cases late : deadline ≤ progress.elapsed + reply.delay
    · rw [if_pos late, Nat.max_eq_right (Nat.le_of_lt starts)] at waits
      have cut : run serve (.due deadline) (.ask request next) progress =
          (.error .byDeadline, ⟨world, deadline, progress.tally⟩) := by
        simp only [run, came, waits]
      have onward := elapsed_le_run serve (next reply.answer)
        ⟨world, progress.elapsed + reply.delay, progress.tally⟩
      have passed := Nat.le_trans late onward
      rw [free, if_neg (Nat.not_lt.2 passed), cut]
      exact ⟨rfl, rfl⟩
    · rw [if_neg late] at waits
      have goes : run serve (.due deadline) (.ask request next) progress =
          run serve (.due deadline) (next reply.answer)
            ⟨world, progress.elapsed + reply.delay, progress.tally⟩ := by
        simp only [run, came, waits]
      have onward : (⟨world, progress.elapsed + reply.delay, progress.tally⟩ :
          Progress ω).elapsed < deadline := Nat.not_le.1 late
      rw [free, goes]
      exact ih reply.answer onward

end Plan

namespace Engine

variable [Scalar σ]

/-- An inquiry whose limits have come when it is made is interrupted and moves nothing. -/
theorem inquire_of_check {serve : Service σ ω} {engine : Engine σ ω} {limits : Limits}
    {interruption : Interruption} {inquiry : Inquiry σ α} (wellFormed : inquiry.IsWellFormed)
    (expired : limits.check engine.progress.elapsed = some interruption) :
    engine.inquire serve limits inquiry = (.error interruption.toQueryError, engine) := by
  obtain ⟨β, first, next, polls⟩ := inquiry.exists_polled engine.cache engine.now wellFormed
  unfold inquire query
  rw [polls, perform_polled expired]

/-- Keeping checkpoints takes no time. -/
theorem elapsed_query (serve : Service σ ω) (limits : Limits) (engine : Engine σ ω)
    (attempt : Attempt σ (Answer σ α)) :
    (engine.query serve limits attempt).2.progress.elapsed =
      (Plan.run serve limits attempt.run engine.progress).2.elapsed := by
  unfold query perform
  rcases Plan.run serve limits attempt.run engine.progress with
    ⟨interruption | (error | answer), after⟩
  · rfl
  · rfl
  · rfl

/-- A query that is interrupted fails and keeps no checkpoints. -/
theorem query_of_interrupted {serve : Service σ ω} {limits : Limits} (engine : Engine σ ω)
    {attempt : Attempt σ (Answer σ α)} {interruption : Interruption} {after : Progress ω}
    (cut : Plan.run serve limits attempt.run engine.progress = (.error interruption, after)) :
    engine.query serve limits attempt =
      (.error interruption.toQueryError, { engine with progress := after }) := by
  unfold query perform
  rw [cut]

/-- An inquiry that is made before its deadline gets the response that it would get without one if
it would get it before the deadline. If not, it is interrupted at the deadline and leaves the cache
as it was. -/
theorem inquire_due_of_lt (serve : Service σ ω) (engine : Engine σ ω) (inquiry : Inquiry σ α)
    {deadline : Nat} (starts : engine.progress.elapsed < deadline) :
    if (engine.inquire serve .none inquiry).2.progress.elapsed < deadline then
      engine.inquire serve (.due deadline) inquiry = engine.inquire serve .none inquiry
    else
      (engine.inquire serve (.due deadline) inquiry).1 =
          .error Interruption.byDeadline.toQueryError ∧
        (engine.inquire serve (.due deadline) inquiry).2.progress.elapsed = deadline ∧
        (engine.inquire serve (.due deadline) inquiry).2.cache = engine.cache := by
  have truncated := Plan.run_due serve (inquiry.attempt engine.cache engine.now).run starts
  have ends := elapsed_query serve .none engine (inquiry.attempt engine.cache engine.now)
  unfold inquire
  rw [ends]
  split at truncated
  · rename_i early
    rw [if_pos early]
    unfold query perform
    rw [truncated]
  · rename_i late
    obtain ⟨cut, stopped⟩ := truncated
    have interrupted := query_of_interrupted engine (Prod.ext cut rfl)
    rw [if_neg late, interrupted]
    exact ⟨rfl, stopped, rfl⟩

/-- An inquiry with a deadline gets the response that it would get without one, at the same time and
with the same checkpoints, if it would get it before the deadline. If not, it is interrupted at the
deadline, or at once if that has passed, and leaves the cache as it was. An inquiry whose caller has
cancelled is refused at once and changes nothing. -/
theorem inquire_due (serve : Service σ ω) (engine : Engine σ ω) {inquiry : Inquiry σ α}
    (wellFormed : inquiry.IsWellFormed) (deadline : Nat) :
    (if (engine.inquire serve .none inquiry).2.progress.elapsed < deadline then
      engine.inquire serve (.due deadline) inquiry = engine.inquire serve .none inquiry
    else
      (engine.inquire serve (.due deadline) inquiry).1 = .error (.cancelled "deadline elapsed") ∧
        (engine.inquire serve (.due deadline) inquiry).2.progress.elapsed =
          max engine.progress.elapsed deadline ∧
        (engine.inquire serve (.due deadline) inquiry).2.cache = engine.cache) ∧
    ∀ limits : Limits, Limits.hasCome limits.cancellation engine.progress.elapsed →
      engine.inquire serve limits inquiry = (.error (.cancelled "cancelled by caller"), engine) := by
  constructor
  · rcases Nat.lt_or_ge engine.progress.elapsed deadline with ahead | passed
    · rw [Nat.max_eq_right (Nat.le_of_lt ahead)]
      exact inquire_due_of_lt serve engine inquiry ahead
    · have ends : engine.progress.elapsed ≤
          (engine.inquire serve .none inquiry).2.progress.elapsed := by
        unfold inquire
        rw [elapsed_query]
        exact Plan.elapsed_le_run serve _ engine.progress
      have expired : (Limits.due deadline).check engine.progress.elapsed = some .byDeadline := by
        rw [Limits.check_due, if_pos passed]
      have refused : engine.inquire serve (.due deadline) inquiry =
          (.error Interruption.byDeadline.toQueryError, engine) :=
        inquire_of_check wellFormed expired
      rw [if_neg (Nat.not_lt.2 (Nat.le_trans passed ends)), refused,
        Nat.max_eq_left passed]
      exact ⟨rfl, rfl, rfl⟩
  · intro limits cancelled
    have expired : limits.check engine.progress.elapsed = some .byCaller := if_pos cancelled
    exact inquire_of_check wellFormed expired

/-- The last two calls of an energy take a second each. It is answered before a deadline that leaves
two seconds and a millisecond, and interrupted by one that leaves two seconds. -/
theorem inquire_due_slow :
    let inquiry := Inquiry.query (Query.energy "meter" (atMinute 75) (atMinute 135))
    let free := (slowFrom 8).inquire Fated.serve .none inquiry
    let inTime := (slowFrom 8).inquire Fated.serve (.due 2001) inquiry
    let tooLate := (slowFrom 8).inquire Fated.serve (.due 2000) inquiry
    inquiry.IsWellFormed ∧ free.1 = .ok 2 ∧ free.2.progress.elapsed = 2000 ∧ inTime = free ∧
      tooLate.1 = .error (.cancelled "deadline elapsed") ∧
      tooLate.2.progress.elapsed = max 0 2000 ∧ tooLate.2.cache = (slowFrom 8).cache ∧
      (slowFrom 8).inquire Fated.serve ⟨some 2001, some 0⟩ inquiry =
        (.error (.cancelled "cancelled by caller"), slowFrom 8) := by
  intro inquiry free inTime tooLate
  have wellFormed : inquiry.IsWellFormed := by
    show atMinute 75 ≤ atMinute 135
    decide
  have answered : free.1 = .ok 2 := by decide +kernel
  have ends : free.2.progress.elapsed = 2000 := by decide +kernel
  obtain ⟨early, cancelled⟩ := inquire_due Fated.serve (slowFrom 8) wellFormed 2001
  have late := (inquire_due Fated.serve (slowFrom 8) wellFormed 2000).1
  rw [if_pos (show free.2.progress.elapsed < 2001 by omega)] at early
  rw [if_neg (show ¬ free.2.progress.elapsed < 2000 by omega)] at late
  obtain ⟨refused, stopped, kept⟩ := late
  exact ⟨wellFormed, answered, ends, early, refused, stopped, kept,
    cancelled ⟨some 2001, some 0⟩ rfl⟩

end Engine

end Metering
