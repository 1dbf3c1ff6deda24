import Metering.Error

/-!
# The buckets of a profile

A profile cuts an interval into buckets of one step, the last of which ends
with the interval. The number of buckets is limited, and is counted from the
interval and the step in whole milliseconds.
-/

namespace Metering

/-- The most buckets of a profile. -/
def maxProfileBuckets : Nat := 100000

/-- The number of buckets of a step in a span, both in milliseconds. -/
def bucketCount (span step : Int) : Int :=
  span.tdiv step + if span.tmod step = 0 then 0 else 1

/-- The edges after one edge, up to and including the stop, at most a number of them. -/
def edgesAfter (stop : Instant) (step : Span) : Nat → Instant → List Instant
  | 0, _ => []
  | count + 1, edge =>
    if edge < stop then
      let next :=
        match edge.shift? step with
        | some next => next.earlier stop
        | none => stop
      next :: edgesAfter stop step count next
    else
      []

/-- The edges of the buckets of an interval. A step of at least a millisecond gives at most one
bucket more than the limit, since the interval and the step lose less than a millisecond each when
they are counted. -/
def bucketEdges (start stop : Instant) (step : Span) : Except QueryError (List Instant) :=
  let buckets := bucketCount (stop.since start).millis step.millis
  if (maxProfileBuckets : Int) < buckets then
    .error (.badInterval ("profile would produce " ++ toString buckets ++ " buckets (limit " ++
      toString maxProfileBuckets ++ ")"))
  else
    .ok (start :: edgesAfter stop step (buckets.toNat + 1) start)

end Metering
