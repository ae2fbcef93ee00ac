import CherryPit.Scheduler.Record
import CherryPit.Scheduler.Report
import CherryPit.Scheduler.Dto
import CherryPit.Budget.Wakeup
import CherryPit.Budget.Replenish
import CherryPit.Budget.Regulator
import CherryPit.TokenBucket.Rate
import CherryPit.TokenBucket.Debit
import CherryPit.WorkQueue.Dedup
import CherryPit.WorkQueue.Batch
import CherryPit.WorkerPool.Refinement
import CherryPit.Lock.Former
import CherryPit.Storage.AtomicWrite
import CherryPit.Storage.Signature
import CherryPit.Projection.Concurrent
import CherryPit.Projection.StandIn
import CherryPit.Projection.Replay
import CherryPit.EventStore.Causal
import CherryPit.EventStore.Agreement
import CherryPit.EventStore.PgnoRuns
import CherryPit.Merger.Unknown
import CherryPit.App.Policies
import CherryPit.App.Run
import CherryPit.Web.Freshness
import CherryPit.Web.Origin
import CherryPit.Web.Representation
import CherryPit.Web.Resolution
import CherryPit.Web.Aliases
import CherryPit.Web.Conditional
import CherryPit.Web.Correlation
import CherryPit.Web.Negotiation
import CherryPit.NonExhaustive.Gate
import CherryPit.EventStore.BridgeRuns
import CherryPit.WorkerPool.Backoff
import CherryPit.Web.Updates
import CherryPit.App.EventBus
import CherryPit.Projection.WriteCell
