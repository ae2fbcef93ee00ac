import CherryPit.Core.Event

/-!
# Units of work

Port of `cherry-pit-core/src/work.rs`: the key, the origin and the outcome of a job. An `Instant`
is a number of nanoseconds from a fixed origin, a `Duration` one of elapsed nanoseconds.
-/

namespace CherryPit

/-- Rust `Instant`. -/
abbrev Instant := Int

/-- Rust `Duration`. -/
abbrev Duration := Nat

/-- Identifier of a unit of work, opaque to the queue and the pool (Rust `DomainKey`). -/
abbrev DomainKey := String

/-- Origin of a job (Rust `JobSource`). -/
inductive JobSource where
  | scheduledBatch
  | external (id kind : String)
  | initialLoad
  deriving DecidableEq

/-- Result of processing a unit of work (Rust `JobOutcome`). -/
inductive JobOutcome (R : Type) where
  | success (domainKey : DomainKey) (result : R) (source : JobSource) (duration : Duration)
      (correlation : CorrelationContext)
  | failure (domainKey : DomainKey) (error : String) (source : JobSource) (duration : Duration)
      (correlation : CorrelationContext)
  deriving DecidableEq

namespace JobOutcome

variable {R : Type}

/-- The key of the job. -/
def domainKey : JobOutcome R → DomainKey
  | success k _ _ _ _ | failure k _ _ _ _ => k

/-- The origin of the job. -/
def source : JobOutcome R → JobSource
  | success _ _ s _ _ | failure _ _ s _ _ => s

/-- The correlation of the job. -/
def correlation : JobOutcome R → CorrelationContext
  | success _ _ _ _ c | failure _ _ _ _ c => c

/-- The job failed. -/
def isFailure : JobOutcome R → Bool
  | success _ _ _ _ _ => false
  | failure _ _ _ _ _ => true

end JobOutcome

end CherryPit
