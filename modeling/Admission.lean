import Admission.Breaker.Session
import Admission.Limiter.Json
import Admission.Meter.Json
import Admission.Random.ChaCha
import Admission.Report.AuditLog
import Admission.Report.Json
import Admission.Service
import Admission.Store.Faulty
import Admission.Store.Memory
import Admission.Store.Tiered
import Admission.Proofs.Binary64.Error
import Admission.Proofs.Limiter.Build
import Admission.Proofs.Limiter.Validation
import Admission.Proofs.Meter.Conservation
import Admission.Proofs.Meter.Bucket
import Admission.Proofs.Meter.Estimate
import Admission.Proofs.Meter.Rotation
import Admission.Proofs.Meter.WindowBound
import Admission.Proofs.Meter.Full
import Admission.Proofs.Meter.Erasure
import Admission.Proofs.Meter.Demand
import Admission.Proofs.Meter.Remaining
import Admission.Proofs.Meter.Reset
import Admission.Proofs.Meter.Upkeep
import Admission.Proofs.Store.Expiry
import Admission.Proofs.Store.BucketExpiry
import Admission.Proofs.Breaker.Probes
import Admission.Proofs.Breaker.Late
import Admission.Proofs.Breaker.Threshold
import Admission.Proofs.Breaker.Evidence
import Admission.Proofs.Breaker.Deadline
import Admission.Proofs.Breaker.Opening
import Admission.Proofs.Breaker.Path
import Admission.Proofs.Breaker.Stale
import Admission.Proofs.Engine.Books
import Admission.Proofs.Duration
import Admission.Proofs.Store.FillTime
import Admission.Proofs.Binary64.Whole
import Admission.Proofs.Meter.Instant
import Admission.Proofs.Engine.Instant
import Admission.Proofs.Engine.Isolation
import Admission.Proofs.Store.Tiered
import Admission.Proofs.Engine.Transparent
import Admission.Proofs.Store.Cluster
import Admission.Proofs.Store.Keys
import Admission.Proofs.Store.WindowExpiry
import Admission.Proofs.Store.Record
import Admission.Proofs.Store.Traffic
import Admission.Proofs.Store.Charges
import Admission.Proofs.Registry.Step
import Admission.Proofs.Registry.History
import Admission.Proofs.Throttle
import Admission.Proofs.Jitter
import Admission.Proofs.Engine.Coherent
import Admission.Proofs.Meter.Spent
import Admission.Proofs.Service
import Admission.Proofs.Binary64.Decimal
import Admission.Proofs.Json.Numeral
import Admission.Proofs.Json.Token
import Admission.Proofs.Json.Tree
import Admission.Proofs.Meter.Json
import Admission.Proofs.Report.Retention
import Admission.Proofs.Meter.WordRotation
import Admission.Proofs.Breaker.Packing
