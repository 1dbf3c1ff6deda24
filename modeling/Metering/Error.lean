import Metering.Field
import Metering.Time.Text

/-!
# Errors

A `QueryError` is what a caller sees; a `StoreError` is what a store or a
catalog reports. Every store error has one query error that stands for it, and
each error has one message.
-/

namespace Metering

/-- Why a query or an ingestion failed. -/
inductive QueryError where
  /-- No such source, possibly named as a child of another. -/
  | sourceNotFound (source : SourceId) (parent : Option SourceId)
  /-- The instant is outside the readings of a source. -/
  | outOfRange (source : SourceId) (instant : Instant)
  /-- No reading of the source carries the field. -/
  | noData (source : SourceId) (field : Field)
  /-- The interval asked about is malformed. -/
  | badInterval (reason : String)
  /-- A virtual source reaches itself along a path. -/
  | cycle (path : List SourceId)
  /-- The source already has a reading at the instant. -/
  | duplicate (source : SourceId) (instant : Instant)
  /-- The query was abandoned. -/
  | cancelled (reason : String)
  /-- A definition breaks a rule, or is of the wrong kind for the request. -/
  | invalidSource (source : SourceId) (reason : String)
  /-- A store or a catalog failed. -/
  | storage (reason : String)
deriving DecidableEq, Repr

namespace QueryError

/-- A source that is missing in its own right. -/
def missing (source : SourceId) : QueryError := .sourceNotFound source none

/-- The words for a parent, if one is known. -/
def parentSuffix : Option SourceId → String
  | some parent => " (child of " ++ parent ++ ")"
  | none => ""

/-- The message of an error. -/
def message : QueryError → String
  | .sourceNotFound source parent => "source not found: " ++ source ++ parentSuffix parent
  | .outOfRange source instant =>
    "no data bracketing " ++ instant.display ++ " for source " ++ source
  | .noData source field => "source " ++ source ++ " has no " ++ field.name ++ " readings"
  | .badInterval reason => "bad interval: " ++ reason
  | .cycle path => "cycle detected in source graph: " ++ String.intercalate " -> " path
  | .duplicate source instant =>
    "duplicate reading for source " ++ source ++ " at " ++ instant.display
  | .cancelled reason => "query cancelled: " ++ reason
  | .invalidSource source reason => "invalid source " ++ source ++ ": " ++ reason
  | .storage reason => "storage error: " ++ reason

/-- Whether the caller is at fault and not the system. -/
def isCallerFault : QueryError → Bool
  | .storage _ => false
  | .cycle _ => false
  | _ => true

/-- The source an error is about, when it names one. -/
def source? : QueryError → Option SourceId
  | .sourceNotFound source _ => some source
  | .outOfRange source _ => some source
  | .noData source _ => some source
  | .duplicate source _ => some source
  | .invalidSource source _ => some source
  | _ => none

end QueryError

/-- Why a store or a catalog refused or failed. -/
inductive StoreError where
  /-- The source already has a reading at the instant. -/
  | duplicate (source : SourceId) (instant : Instant)
  /-- No such record. -/
  | notFound (source : SourceId)
  /-- The request makes no sense. -/
  | invalidInput (reason : String)
  /-- The request was refused for a reason of its own. -/
  | rejected (cause : QueryError)
  /-- The store or the catalog does not work. -/
  | backend (reason : String)
deriving DecidableEq, Repr

namespace StoreError

/-- The message of an error. -/
def message : StoreError → String
  | .duplicate source instant => "duplicate reading for " ++ source ++ " at " ++ instant.display
  | .notFound source => "record not found: " ++ source
  | .invalidInput reason => "invalid input: " ++ reason
  | .rejected cause => "rejected: " ++ cause.message
  | .backend reason => "backend error: " ++ reason

/-- The query error that stands for a store error. -/
def toQueryError : StoreError → QueryError
  | .duplicate source instant => .duplicate source instant
  | .notFound source => .missing source
  | .invalidInput reason => .badInterval reason
  | .rejected cause => cause
  | .backend reason => .storage reason

end StoreError

end Metering
