import Metering.Bracket
import Metering.Plan

/-!
# Finding brackets

A lookup asks for the nearest reading on either side of its target and tells
apart a source without any reading for the field from one whose readings do
not reach around the target. A list of targets in order is served by one scan
between the outermost readings.
-/

namespace Metering

namespace Bracket

variable {σ : Type}

/-- The tightest bracket around a target. -/
def find (source : SourceId) (target : Instant) (field : Field) : Attempt σ (Bracket σ) := do
  let before ← Attempt.nearestBefore source target field
  match before with
  | some reading =>
    if reading.instant = target then
      return exact field reading
    let after ← Attempt.nearestAfter source target field
    match after with
    | some next => Attempt.ofExcept (of? field reading next target)
    | none => throw (.outOfRange source target)
  | none =>
    let after ← Attempt.nearestAfter source target field
    match after with
    | some _ => throw (.outOfRange source target)
    | none => throw (.noData source field)

/-- The value of a field at an instant. -/
def valueAt [Scalar σ] (source : SourceId) (target : Instant) (field : Field) : Attempt σ σ := do
  let bracket ← find source target field
  Attempt.ofExcept bracket.interpolate

/-! ## Many targets at once -/

/-- Whether instants never decrease. -/
def inOrder : List Instant → Bool
  | first :: second :: rest => first ≤ second && inOrder (second :: rest)
  | _ => true

/-- The error for a target on a side of which there is no reading. -/
def missing (source : SourceId) (target : Instant) (field : Field) : Attempt σ QueryError := do
  let oldest ← Attempt.nearestAfter source Instant.first field
  match oldest with
  | some _ => return .outOfRange source target
  | none => return .noData source field

/-- Drops readings until the next one is past the target. -/
def advance (target : Instant) : List (Reading σ) → List (Reading σ)
  | first :: second :: rest =>
    if second.instant ≤ target then advance target (second :: rest) else first :: second :: rest
  | readings => readings

/-- The bracket of a target between the first two readings of a list. -/
def atFront (source : SourceId) (field : Field) (target : Instant) :
    List (Reading σ) → Except QueryError (Bracket σ)
  | before :: rest =>
    if before.instant = target then
      .ok (exact field before)
    else
      match rest with
      | after :: _ => of? field before after target
      | [] => .error (.outOfRange source target)
  | [] => .error (.outOfRange source target)

/-- The brackets of targets in order along readings in order, after the brackets found so far. -/
def sweep (source : SourceId) (field : Field) (found : List (Bracket σ)) :
    List (Reading σ) → List Instant → Except QueryError (List (Bracket σ))
  | _, [] => .ok found.reverse
  | readings, target :: rest =>
    let ahead := advance target readings
    match atFront source field target ahead with
    | .ok bracket => sweep source field (bracket :: found) ahead rest
    | .error error => .error error

/-- The brackets of targets that never decrease, found by one scan. -/
def findAll (source : SourceId) (targets : List Instant) (field : Field) :
    Attempt σ (List (Bracket σ)) := do
  match targets.head?, targets.getLast? with
  | some first, some last =>
    if !inOrder targets then
      throw (.badInterval "straddle targets must be in non-decreasing order")
    match ← Attempt.nearestBefore source first field with
    | none => throw (← missing source first field)
    | some lower =>
      match ← Attempt.nearestAfter source last field with
      | none => throw (← missing source last field)
      | some upper =>
        let readings ← Attempt.range source (.closed lower.instant upper.instant) field
        if readings.isEmpty then
          throw (.storage ("range scan for " ++ source ++
            " returned no readings between known brackets"))
        Attempt.ofExcept (sweep source field [] readings targets)
  | _, _ => return []

/-- The values of brackets, in order. -/
def values [Scalar σ] (brackets : List (Bracket σ)) : Except QueryError (List σ) :=
  brackets.mapM interpolate

end Bracket

end Metering
