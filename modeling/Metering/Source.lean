import Metering.Reading

/-!
# Sources

A leaf source is a meter with readings of its own and a carbon intensity; a
virtual source is the sum of its children, each counted as often as it is
listed. A leaf may ask for its energy counter to be kept at the instants of a
grid, anchored at its creation.
-/

namespace Metering

/-- Which way energy flows through a source. -/
inductive Direction where
  /-- Energy drawn. -/
  | consumption
  /-- Energy produced. -/
  | generation
deriving DecidableEq, Repr

/-- The name of a direction in data. -/
def Direction.name : Direction → String
  | .consumption => "consumption"
  | .generation => "generation"

/-- The direction with a name. -/
def Direction.ofName? (name : String) : Option Direction :=
  [Direction.consumption, Direction.generation].find? fun direction => direction.name == name

/-- How a leaf's counter is kept at the instants of a grid. -/
structure CacheSettings where
  /-- Seconds between the instants of the grid. -/
  intervalSeconds : Nat
  /-- Seconds within which data is expected to change. -/
  windowSeconds : Nat
deriving DecidableEq, Repr

namespace CacheSettings

/-- The spacing of the grid, the longest span if the setting is longer still. -/
def interval (settings : CacheSettings) : Span :=
  (Span.ofSeconds? settings.intervalSeconds).getD Span.longest

/-- The window, the longest span if the setting is longer still. -/
def window (settings : CacheSettings) : Span :=
  (Span.ofSeconds? settings.windowSeconds).getD Span.longest

/-- Whether both settings are lengths that a span can have. -/
def areRepresentable (settings : CacheSettings) : Bool :=
  (Span.ofSeconds? settings.intervalSeconds).isSome &&
    (Span.ofSeconds? settings.windowSeconds).isSome

end CacheSettings

/-- What a source is made of. -/
inductive SourceKind (σ : Type) where
  /-- A meter, with the pounds of carbon dioxide per megawatt hour through it. -/
  | leaf (carbonIntensity : σ)
  /-- The sum of other sources, in order. -/
  | aggregate (children : List SourceId)
deriving Repr

/-- A source as the catalog defines it. -/
structure Source (σ : Type) where
  /-- The id of the source. -/
  id : SourceId
  /-- What the source is made of. -/
  kind : SourceKind σ
  /-- Which way energy flows. -/
  direction : Direction
  /-- When the source was created, the anchor of its grid. -/
  createdAt : Instant
  /-- How the counter is kept, if at all. -/
  cache : Option CacheSettings
deriving Repr

namespace Source

variable {σ : Type}

/-- Whether a source is a meter of its own. -/
def isLeaf (source : Source σ) : Bool :=
  match source.kind with
  | .leaf _ => true
  | .aggregate _ => false

/-- The children of a source, none for a leaf. -/
def children (source : Source σ) : List SourceId :=
  match source.kind with
  | .leaf _ => []
  | .aggregate children => children

/-- The carbon intensity of a leaf. -/
def carbonIntensity? (source : Source σ) : Option σ :=
  match source.kind with
  | .leaf carbonIntensity => some carbonIntensity
  | .aggregate _ => none

/-- The error that a source breaks a rule. -/
def invalid (source : Source σ) (reason : String) : QueryError := .invalidSource source.id reason

/-! ## The rules of a definition -/

variable [Scalar σ]

/-- The rules of a leaf's cache settings. -/
def checkCache (source : Source σ) (settings : CacheSettings) : Except QueryError Unit :=
  if settings.intervalSeconds = 0 ∨ settings.windowSeconds = 0 then
    .error (source.invalid "checkpoint interval and window must be positive")
  else if !settings.areRepresentable then
    .error (source.invalid ("checkpoint interval and window must not exceed " ++
      toString Span.maxSeconds ++ " seconds"))
  else
    .ok ()

/-- The rules of a leaf. -/
def checkLeaf (source : Source σ) (carbonIntensity : σ) : Except QueryError Unit :=
  if !(Scalar.isFinite carbonIntensity && Scalar.atMost Scalar.zero carbonIntensity) then
    .error (source.invalid ("carbon intensity must be finite and non-negative, got " ++
      Scalar.text carbonIntensity))
  else
    match source.cache with
    | some settings => source.checkCache settings
    | none => .ok ()

/-- The rules of a virtual source. -/
def checkAggregate (source : Source σ) (children : List SourceId) : Except QueryError Unit :=
  if children.isEmpty then
    .error (source.invalid "virtual source needs at least one child")
  else if children.contains source.id then
    .error (.cycle [source.id, source.id])
  else if source.cache.isSome then
    .error (source.invalid "cache settings apply to leaf sources only")
  else
    .ok ()

/-- The rules a definition has to meet by itself. Cycles through several sources show only when
the source is looked up. -/
def validate (source : Source σ) : Except QueryError Unit :=
  if source.id.isEmpty then
    .error (source.invalid "source id must not be empty")
  else
    match source.kind with
    | .leaf carbonIntensity => source.checkLeaf carbonIntensity
    | .aggregate children => source.checkAggregate children

end Source

end Metering
