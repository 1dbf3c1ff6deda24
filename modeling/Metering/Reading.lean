import Metering.Error
import Metering.Scalar

/-!
# Readings and checkpoints

A reading is what a meter reported at an instant. A checkpoint is an energy
counter worked out from readings at an instant of a source's own grid; seen
from a lookup it is a reading that carries energy alone.
-/

namespace Metering

/-- What holds one entry per instant of a timeline. -/
class Stamped (α : Type) where
  /-- The instant of an entry. -/
  instant : α → Instant

/-- One sample of a leaf source. -/
structure Reading (σ : Type) where
  /-- The source that was read. -/
  source : SourceId
  /-- When it was read. -/
  instant : Instant
  /-- Power in watts, if reported. -/
  power : Option σ
  /-- The energy counter in watt hours, if reported. -/
  energy : Option σ
deriving DecidableEq, Repr

namespace Reading

variable {σ : Type}

instance : Stamped (Reading σ) := ⟨Reading.instant⟩

/-- The value a reading carries for a field, if any. -/
def value? (reading : Reading σ) : Field → Option σ
  | .power => reading.power
  | .cumulativeEnergy => reading.energy

/-- Whether a reading carries a field. -/
def carries (reading : Reading σ) (field : Field) : Bool := (reading.value? field).isSome

end Reading

/-- Whether a checkpoint is old enough to be settled. -/
inductive Maturity where
  /-- Recent enough that data nearby is still expected. -/
  | provisional
  /-- Older than the window. -/
  | finalized
deriving DecidableEq, Repr

/-- A source's energy counter at an instant of its grid. -/
structure Checkpoint (σ : Type) where
  /-- The source whose counter it is. -/
  source : SourceId
  /-- The instant of the grid. -/
  instant : Instant
  /-- The counter in watt hours. -/
  energy : σ
  /-- When the counter was worked out. -/
  computedAt : Instant
deriving DecidableEq, Repr

namespace Checkpoint

variable {σ : Type}

instance : Stamped (Checkpoint σ) := ⟨Checkpoint.instant⟩

/-- A checkpoint is finalized once it is more than a window old. -/
def maturity (checkpoint : Checkpoint σ) (now : Instant) (window : Span) : Maturity :=
  if window < now.since checkpoint.instant then .finalized else .provisional

/-- The checkpoint as a reading that carries energy alone. -/
def toReading (checkpoint : Checkpoint σ) : Reading σ :=
  ⟨checkpoint.source, checkpoint.instant, none, some checkpoint.energy⟩

end Checkpoint

end Metering
