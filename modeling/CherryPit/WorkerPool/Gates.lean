import CherryPit.Budget.Gate
import CherryPit.WorkQueue.Fifo

/-!
# What the workers of a pool share

Port of `cherry-pit-wq/src/rate_limit.rs` (`RateLimitState::should_halt`, `load_reset`) and of the
parts of `cherry-pit-wq/src/worker_pool.rs` that both worker loops use: `wait_for_rate_limit_reset`,
the call of the executor and the outcome made of it.

Rust → Lean: an atomic load is a step; times of the rate limit are whole seconds, as there. The
cancellation token is a flag of `Gates`; a wait may end cancelled only while it is up. Calling
`execute`, polling its future and their panics are events: any of them may happen to any job. A send
into the channel of outcomes waits while the channel is full; taking an outcome is a step of its
receiver. The fields of `RateLimitState` that only telemetry reads are left out.
-/

namespace CherryPit.WorkerPool

open Conc WorkQueue

/-- Rust `REMAINING_UNKNOWN`. -/
def remainingUnknown : Nat := 2 ^ 32 - 1

/-- Rust `RateLimitState`. -/
structure RateLimitState where
  remaining : Nat
  reset : Nat
  windowRolled : Bool
  haltThreshold : Nat
  deriving DecidableEq

/-- Rust `RateLimitState::with_thresholds`. -/
def RateLimitState.withThresholds (haltThreshold : Nat) : RateLimitState where
  remaining := remainingUnknown
  reset := 0
  windowRolled := false
  haltThreshold := haltThreshold

/-- Rust `RateLimitState::load_remaining`. -/
def RateLimitState.loadRemaining (s : RateLimitState) : Option Nat :=
  if s.remaining = remainingUnknown then none else some s.remaining

/-- Rust `RateLimitState::load_reset`. -/
def RateLimitState.loadReset (s : RateLimitState) : Option Nat :=
  if s.reset = 0 then none else some s.reset

/-- The points of a call of `should_halt`. -/
inductive HaltPc where
  | loadRolled
  | loadRemaining
  | returned (halt : Bool)
  deriving DecidableEq

/-- The next step of a call of `should_halt`, if it has not returned. -/
def RateLimitState.shouldHalt (s : RateLimitState) : HaltPc → Option HaltPc
  | .loadRolled =>
    some (if s.haltThreshold = 0 then .returned false
      else if s.windowRolled then .returned false else .loadRemaining)
  | .loadRemaining =>
    some (.returned (match s.loadRemaining with
      | some r => decide (r < s.haltThreshold)
      | none => false))
  | .returned _ => none

/-- The points of a call of `wait_for_rate_limit_reset`. -/
inductive WaitPc where
  | check (backoff : Nat) (h : HaltPc)
  | loadReset (backoff now : Nat)
  | sleep (backoff duration : Nat)
  | returned (reset : Bool)
  deriving DecidableEq

/-- The first point of a call of `wait_for_rate_limit_reset`. -/
def WaitPc.start : WaitPc := .check 1 .loadRolled

/-- How long to sleep and the next backoff, in seconds: until two seconds after the reset, or for
the backoff, which doubles; never more than a minute. -/
def sleepFor (reset : Option Nat) (now backoff : Nat) : Nat × Nat :=
  match reset with
  | some r => if now < r then (min (r - now + 2) 60, backoff) else (backoff, min (backoff * 2) 60)
  | none => (backoff, min (backoff * 2) 60)

/-- What a step of a rate-limit check or wait does. -/
inductive RateEvent where
  | checked
  | halted
  | cleared
  | clock (now : Nat)
  | resetLoaded
  | slept
  | cancelled
  deriving DecidableEq

/-- One step of `wait_for_rate_limit_reset`. -/
inductive WaitLocal (s : RateLimitState) (cancelled : Bool) :
    WaitPc → RateEvent → WaitPc → Prop where
  | check {backoff h h'} :
    s.shouldHalt h = some h' →
    WaitLocal s cancelled (.check backoff h) .checked (.check backoff h')
  | cleared {backoff} :
    WaitLocal s cancelled (.check backoff (.returned false)) .cleared (.returned true)
  | clock {backoff now} :
    WaitLocal s cancelled (.check backoff (.returned true)) (.clock now) (.loadReset backoff now)
  | resetLoaded {backoff now} :
    WaitLocal s cancelled (.loadReset backoff now) .resetLoaded
      (.sleep (sleepFor s.loadReset now backoff).2 (sleepFor s.loadReset now backoff).1)
  | slept {backoff duration} :
    WaitLocal s cancelled (.sleep backoff duration) .slept (.check backoff .loadRolled)
  | cancelled {backoff duration} :
    cancelled = true →
    WaitLocal s cancelled (.sleep backoff duration) .cancelled (.returned false)

/-- The gates of a pool and its cancellation token. -/
structure Gates where
  budget : Budget.BudgetGate
  rateLimit : RateLimitState
  cancelled : Bool

/-- The events of a call of `BudgetGate::acquire` that is not aborted. -/
def inAcquire : Budget.Event → Bool
  | .acquire | .refund | .settle _ | .refundLoaded | .refunded | .aborted => false
  | _ => true

/-- One step of `BudgetGate::acquire`, called with the token of the pool. -/
inductive AcquireLocal : Gates → Budget.Pc → Budget.Event → Gates → Budget.Pc → Prop where
  | step {g p a b p'} :
    Budget.Local g.budget p a b p' →
    inAcquire a = true →
    (a = .cancelled → g.cancelled = true) →
    AcquireLocal g p a { g with budget := b } p'

/-- What others do to the gates: resize the budget, store a rate-limit reading, cancel. -/
inductive GatesEnv where
  | resize (r : Budget.Resize)
  | storeRemaining (r : Nat)
  | storeRolled (rolled : Bool)
  | storeReset (r : Nat)
  | cancel

/-- The effect of the others on the gates. -/
def GatesEnv.apply (g : Gates) : GatesEnv → Gates
  | .resize r => { g with budget := r.apply g.budget }
  | .storeRemaining r => { g with rateLimit := { g.rateLimit with remaining := r } }
  | .storeRolled rolled => { g with rateLimit := { g.rateLimit with windowRolled := rolled } }
  | .storeReset r => { g with rateLimit := { g.rateLimit with reset := r } }
  | .cancel => { g with cancelled := true }

/-- What others do to the gates, as a relation. -/
def gatesEnv (g : Gates) (e : GatesEnv) (g' : Gates) : Prop := g' = e.apply g

/-- Rust `format!("executor panicked: {panic:?}")`: every payload has the same `Debug`. -/
def panicText : String := "executor panicked: Any \x7b .. \x7d"

/-- The outcome of a job from what its future resolved to. -/
def outcomeOf {C R : Type} (job : JobSpec C) (duration : Duration) :
    Except String R → JobOutcome R
  | .ok result => .success job.domainKey result job.source duration job.correlation
  | .error error => .failure job.domainKey error job.source duration job.correlation

/-- What a worker does with a job once it is admitted. -/
inductive Work (C R : Type) where
  | called (m : Message C)
  | callPanicked (m : Message C)
  | resolved (m : Message C) (result : Except String R)
  | pollPanicked (m : Message C)
  | outcomeSent (m : Message C) (outcome : JobOutcome R)
  | outcomeRefused (m : Message C) (outcome : JobOutcome R)
  | exited

/-- The channel of outcomes: how many wait in it, and whether its receiver is there. -/
structure Outcomes where
  capacity : Nat
  waiting : Nat
  isOpen : Bool
  pos : 0 < capacity
  le : waiting ≤ capacity

/-- Rust `mpsc::channel`, which panics for a capacity of 0. -/
def Outcomes.new (capacity : Nat) (pos : 0 < capacity) : Outcomes :=
  ⟨capacity, 0, true, pos, Nat.zero_le _⟩

/-- An outcome is sent. -/
def Outcomes.push (o : Outcomes) (room : o.waiting < o.capacity) : Outcomes :=
  { o with waiting := o.waiting + 1, le := room }

/-- The receiver takes an outcome. -/
def Outcomes.take (o : Outcomes) : Outcomes :=
  { o with waiting := o.waiting - 1, le := (Nat.sub_le _ _).trans o.le }

/-- The receiver is dropped. -/
def Outcomes.drop (o : Outcomes) : Outcomes := { o with isOpen := false }

/-- The shared state of a pool: the queue, the gates and the channel of outcomes. -/
structure Shared (C Γ : Type) where
  queue : Queue C
  gates : Γ
  outcomes : Outcomes

/-- What others do to a pool: act on its gates, take an outcome, or drop the receiver. -/
inductive PoolEnv (E : Type) where
  | gates (e : E)
  | takeOutcome
  | dropOutcomes

/-- The effect of the others on a pool. -/
inductive EnvStep {C Γ E : Type} (env : Γ → E → Γ → Prop) :
    Shared C Γ → PoolEnv E → Shared C Γ → Prop where
  | gates {s e g} :
    env s.gates e g →
    EnvStep env s (.gates e) { s with gates := g }
  | takeOutcome {s} :
    0 < s.outcomes.waiting →
    EnvStep env s .takeOutcome { s with outcomes := s.outcomes.take }
  | dropOutcomes {s} :
    EnvStep env s .dropOutcomes { s with outcomes := s.outcomes.drop }

/-- The others leave the queue alone. -/
lemma EnvStep.queue {C Γ E : Type} {env : Γ → E → Γ → Prop} {s s' : Shared C Γ} {e : PoolEnv E}
    (st : EnvStep env s e s') : s'.queue = s.queue := by
  cases st <;> rfl

/-- The events of a call of `dequeue` that is not abandoned. -/
def inDequeue {C : Type} : WorkQueue.Event C → Bool
  | .dequeue | .receiverLocked | .received _ | .removed => true
  | _ => false

/-- The events of a producer, which calls everything but `dequeue`. -/
def inProducer {C : Type} : WorkQueue.Event C → Bool
  | .dequeue | .receiverLocked | .received _ | .removed | .dequeued _ | .abandoned => false
  | _ => true

/-- What a step inside a gate does. -/
inductive GateEvent where
  | budget (a : Budget.Event)
  | rate (a : RateEvent)

end CherryPit.WorkerPool
