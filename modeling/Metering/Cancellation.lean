import Metering.Error

/-!
# Abandoning a query

A query may have a deadline and may be cancelled by its caller, each at an
instant of an elapsed time counted in milliseconds. Elapsed time passes only
while work waits. Work that would end at the deadline or later is abandoned at
the deadline, and a cancellation counts before a deadline at the same moment.
-/

namespace Metering

/-- Who ended a query early. -/
inductive Interruption where
  /-- The caller cancelled. -/
  | byCaller
  /-- The deadline passed. -/
  | byDeadline
deriving DecidableEq, Repr

namespace Interruption

/-- The reason given for an interruption. -/
def reason : Interruption → String
  | .byCaller => "cancelled by caller"
  | .byDeadline => "deadline elapsed"

/-- The error of an interrupted query. -/
def toQueryError (interruption : Interruption) : QueryError := .cancelled interruption.reason

end Interruption

/-- When a query has to end, in milliseconds of elapsed time. -/
structure Limits where
  /-- The moment from which the deadline has passed. -/
  deadline : Option Nat
  /-- The moment from which the caller has cancelled. -/
  cancellation : Option Nat
deriving DecidableEq, Repr

namespace Limits

/-- No limits. -/
def none : Limits := ⟨.none, .none⟩

/-- Whether a moment with a limit has come. -/
def hasCome (limit : Option Nat) (elapsed : Nat) : Bool :=
  match limit with
  | some moment => moment ≤ elapsed
  | .none => false

/-- Whether the query is over at a moment, and by whom. -/
def check (limits : Limits) (elapsed : Nat) : Option Interruption :=
  if hasCome limits.cancellation elapsed then
    some .byCaller
  else if hasCome limits.deadline elapsed then
    some .byDeadline
  else
    .none

/-- The first limit that comes up to a moment: when, and whose. -/
def firstUpTo (limits : Limits) (moment : Nat) : Option (Nat × Interruption) :=
  let cancelled := limits.cancellation.filter fun limit => limit ≤ moment
  let expired := limits.deadline.filter fun limit => limit ≤ moment
  match cancelled, expired with
  | some cancel, some deadline =>
    if cancel ≤ deadline then some (cancel, .byCaller) else some (deadline, .byDeadline)
  | some cancel, .none => some (cancel, .byCaller)
  | .none, some deadline => some (deadline, .byDeadline)
  | .none, .none => .none

/-- Waits from a moment for some milliseconds. The result is the moment reached and, if the wait
was cut short, by whom. -/
def wait (limits : Limits) (elapsed duration : Nat) : Nat × Option Interruption :=
  match limits.firstUpTo (elapsed + duration) with
  | some (moment, interruption) => (max elapsed moment, some interruption)
  | .none => (elapsed + duration, .none)

/-- Cancels at a moment, unless that has happened before. -/
def cancelAt (limits : Limits) (elapsed : Nat) : Limits :=
  { limits with
    cancellation := some (match limits.cancellation with
      | some moment => min moment elapsed
      | .none => elapsed) }

/-- Runs work that takes some milliseconds and then has a result. The result is the moment reached
and what came of it. -/
def run {α : Type} (limits : Limits) (elapsed duration : Nat) (result : Except QueryError α) :
    Nat × Except QueryError α :=
  match limits.check elapsed with
  | some interruption => (elapsed, .error interruption.toQueryError)
  | .none =>
    match limits.wait elapsed duration with
    | (moment, some interruption) => (moment, .error interruption.toQueryError)
    | (moment, .none) => (moment, result)

end Limits

end Metering
