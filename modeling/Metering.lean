import Metering.Main
import Metering.Testbed
import Metering.Proofs.Transparency
import Metering.Proofs.Staleness
import Metering.Proofs.Arrival
import Metering.Proofs.Rising
import Metering.Proofs.WriteOnce
import Metering.Proofs.Settled
import Metering.Proofs.Purity
import Metering.Proofs.Faults
import Metering.Proofs.LateCommits
import Metering.Proofs.Eviction
import Metering.Proofs.Redefinition
import Metering.Proofs.Traversal
import Metering.Proofs.Walk
import Metering.Proofs.Additivity
import Metering.Proofs.NonNegative
import Metering.Proofs.Inquiries
import Metering.Proofs.Deadlines
import Metering.Proofs.Sweep
import Metering.Proofs.Profile
import Metering.Proofs.Aggregation
import Metering.Proofs.BucketLimit
import Metering.Proofs.Interpolation
import Metering.Proofs.MeanPower
import Metering.Proofs.Precision
import Metering.Proofs.AtomicIngestion
import Metering.Proofs.Fallback
import Metering.Proofs.Heeding
import Metering.Proofs.Ledger
import Metering.Proofs.Repetition
import Metering.Proofs.Interruption
import Metering.Proofs.Ranges
import Metering.Proofs.Enumeration
import Metering.Proofs.Rounding
import Metering.Proofs.Judgement
import Metering.Proofs.Resumption
import Metering.Proofs.Calendar
import Metering.Proofs.InstantText
import Metering.Proofs.Documents
import Metering.Proofs.Listing
