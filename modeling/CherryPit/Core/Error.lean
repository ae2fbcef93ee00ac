import CherryPit.Core.Event

/-!
# Errors and their categories

Port of `cherry-pit-core/src/error.rs` (`ErrorCategory`, `StoreError`, `BusError`), of
`cherry-pit-app/src/error.rs` (`AgentError`) and of `ProjectionError` in
`cherry-pit-projection/src/lib.rs`. A boxed source error is its text.
-/

namespace CherryPit

/-- Retry guidance of an error (Rust `ErrorCategory`). -/
inductive ErrorCategory where
  | retryable
  | terminal
  | reconciliationRequired
  deriving DecidableEq

/-- Errors from event store operations (Rust `StoreError`). -/
inductive StoreError where
  | indeterminate (source : String)
  | concurrencyConflict (aggregateId : AggregateId) (expectedSequence : NonZeroU64)
      (actualSequence : Nat)
  | storeLocked (path : String)
  | corruptData (source : String)
  | infrastructure (source : String)
  | joinFailure (source : String)
  deriving DecidableEq

/-- Rust `StoreError::category`. -/
def StoreError.category : StoreError → ErrorCategory
  | .indeterminate _ => .reconciliationRequired
  | .concurrencyConflict _ _ _ | .storeLocked _ | .infrastructure _ => .retryable
  | .corruptData _ | .joinFailure _ => .terminal

/-- Rust `Display for StoreError`. -/
def StoreError.display : StoreError → String
  | .indeterminate e => "store outcome indeterminate: " ++ e
  | .concurrencyConflict aggregateId expectedSequence actualSequence =>
    "concurrency conflict on " ++ aggregateId.display ++ ": expected sequence " ++
      toString expectedSequence.get ++ ", actual " ++ toString actualSequence
  | .storeLocked path => "store directory is locked by another process: " ++ path
  | .corruptData e => "store corrupt data: " ++ e
  | .infrastructure e => "store infrastructure error: " ++ e
  | .joinFailure e => "store spawn_blocking join failure: " ++ e

/-- Errors of projection drivers and stores (Rust `ProjectionError`), with an `S` for the source of
an unknown outcome. -/
inductive ProjectionError (S : Type) where
  | indeterminate (source : S)
  | corruptData (source : String)
  | infrastructure (source : String)
  | storeLocked
  | checkpointRegression (existing attempted : NonZeroU64)

/-- Rust `ProjectionError::category`. -/
def ProjectionError.category {S : Type} : ProjectionError S → ErrorCategory
  | .indeterminate _ => .reconciliationRequired
  | .corruptData _ | .checkpointRegression _ _ => .terminal
  | .infrastructure _ | .storeLocked => .retryable

/-- Error from event bus publication (Rust `BusError`). -/
structure BusError where
  source : String
  deriving DecidableEq

/-- Rust `Display for BusError`. -/
def BusError.display (e : BusError) : String := "event bus error: " ++ e.source

/-- Rust `BusError::category`. -/
def BusError.category (_ : BusError) : ErrorCategory := .retryable

/-- Errors of the agent composition layer (Rust `AgentError`). -/
inductive AgentError where
  | policy (source : String)
  | deadLetter (source : String)
  | store (e : StoreError)
  | bus (e : BusError)
  deriving DecidableEq

/-- Rust `AgentError::category`. -/
def AgentError.category : AgentError → ErrorCategory
  | .policy _ | .deadLetter _ => .terminal
  | .store e => e.category
  | .bus e => e.category

/-- Rust `Display for AgentError`. -/
def AgentError.display : AgentError → String
  | .policy e => "policy dispatch error: " ++ e
  | .deadLetter e => "dead-letter sink error: " ++ e
  | .store e => "store error: " ++ e.display
  | .bus e => "bus error: " ++ e.display

end CherryPit
