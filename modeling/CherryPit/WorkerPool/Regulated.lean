import CherryPit.Conc.View
import CherryPit.WorkerPool.Gates

/-!
# The regulated worker pool

Port of `cherry-pit-wq/src/worker_pool.rs` (`run_worker_pool_regulated`, `worker_loop_regulated`)
and of the trait in `cherry-pit-wq/src/regulator.rs` (`Regulator`, `Admission`). The chain of
regulators is a parameter: a `Regulator` is what its two methods do step by step on a state that all
regulators share, so that any implementation of the trait is one.

Rust → Lean: at any time a worker has been admitted by the regulators before its position in the
chain, which is all that `admitted_by` holds. A call of `admit` comes to `Admitted`, to `Cancelled`
or to a panic, a call of `settle` returns or panics; `charge_of` is a parameter that says what it
may answer, a panic included. The parts shared with `worker_loop` are as there.
-/

namespace CherryPit.WorkerPool.Regulated

open Conc WorkQueue
open Budget (SettleOutcome)

/-- What a call of `admit` comes to (Rust `Admission`), or a panic. -/
inductive Admission where
  | admitted
  | cancelled
  | panicked
  deriving DecidableEq

/-- An implementation of the trait on a shared state `Γ`, with calls at points `Q` and steps
labelled by `B` (Rust `Regulator`). -/
structure Regulator (Γ Q B : Type) where
  /-- A call of `admit` starts here. -/
  start : Q
  step : Γ → Q → B → Γ → Q → Prop
  /-- What a call of `admit` at this point has come to. -/
  answer : Q → Option Admission
  /-- A call of `settle` starts here. -/
  settle : SettleOutcome → Q
  /-- A call of `settle` at this point has returned, or panicked. -/
  settled : Q → Option Bool

/-- The program points of a thread of the pool. `m` is the job that a worker has dequeued, `pos` the
position of the regulator it calls. -/
inductive Pc (C R Q : Type) where
  | client (p : WorkQueue.Pc C)
  | dequeue (p : WorkQueue.Pc C)
  | admission (m : Message C) (pos : Nat) (q : Q)
  | call (m : Message C)
  | poll (m : Message C)
  | charge (m : Message C) (outcome : JobOutcome R)
  | settle (m : Message C) (outcome : JobOutcome R) (so : SettleOutcome) (pos : Nat)
  | settling (m : Message C) (outcome : JobOutcome R) (so : SettleOutcome) (pos : Nat) (q : Q)
  | send (m : Message C) (outcome : JobOutcome R)
  | leave
  | exited
  | dead

/-- What a step of a thread of the pool does. -/
inductive Event (C R B : Type) where
  | queue (a : WorkQueue.Event C)
  | gate (b : B)
  | admitted (m : Message C) (pos : Nat)
  | cancelled (m : Message C) (pos : Nat)
  | admissionPanicked (m : Message C) (pos : Nat)
  | work (w : Work C R)
  | charged (m : Message C) (so : SettleOutcome)
  | chargePanicked (m : Message C)
  | settle (m : Message C) (pos : Nat) (so : SettleOutcome)
  | settleStep (b : B)
  | settled (m : Message C) (pos : Nat)
  | settlePanicked (m : Message C) (pos : Nat) (so : SettleOutcome)

variable {C R Γ Q B E : Type}

/-- What `charge_of` may answer for a key and a result; `none` is a panic. -/
abbrev ChargeOf (R : Type) := DomainKey → R → Option SettleOutcome → Prop

/-- The next regulator of the chain is asked, or the job is executed. -/
def askNext (chain : List (Regulator Γ Q B)) (m : Message C) (pos : Nat) : Pc C R Q :=
  match chain[pos]? with
  | some reg => .admission m pos reg.start
  | none => .call m

/-- The next regulator of the chain is settled, or the outcome is sent. -/
def settleNext (chain : List (Regulator Γ Q B)) (m : Message C) (outcome : JobOutcome R)
    (so : SettleOutcome) (pos : Nat) : Pc C R Q :=
  if pos < chain.length then .settle m outcome so pos else .send m outcome

/-- One step of thread `c`: a producer, or a worker in `worker_loop_regulated`. -/
inductive Local (chain : List (Regulator Γ Q B)) (chargeOf : ChargeOf R) (c : Nat) :
    Shared C Γ → Pc C R Q → Event C R B → Shared C Γ → Pc C R Q → Prop where
  | client {s p a q p'} :
    WorkQueue.Local c s.queue p a q p' →
    inProducer a = true →
    Local chain chargeOf c s (.client p) (.queue a) { s with queue := q } (.client p')
  | dequeue {s p a q p'} :
    WorkQueue.Local c s.queue p a q p' →
    inDequeue a = true →
    Local chain chargeOf c s (.dequeue p) (.queue a) { s with queue := q } (.dequeue p')
  | dequeued {s p m q p'} :
    WorkQueue.Local c s.queue p (.dequeued (some m)) q p' →
    Local chain chargeOf c s (.dequeue p) (.queue (.dequeued (some m))) { s with queue := q }
      (askNext chain m 0)
  | drained {s p q p'} :
    WorkQueue.Local c s.queue p (.dequeued none) q p' →
    Local chain chargeOf c s (.dequeue p) (.queue (.dequeued none)) { s with queue := q } .leave
  | gate {s m pos q b g q' reg} :
    chain[pos]? = some reg →
    reg.step s.gates q b g q' →
    Local chain chargeOf c s (.admission m pos q) (.gate b) { s with gates := g }
      (.admission m pos q')
  | admitted {s m pos q reg} :
    chain[pos]? = some reg →
    reg.answer q = some .admitted →
    Local chain chargeOf c s (.admission m pos q) (.admitted m pos) s (askNext chain m (pos + 1))
  | cancelled {s m pos q reg} :
    chain[pos]? = some reg →
    reg.answer q = some .cancelled →
    Local chain chargeOf c s (.admission m pos q) (.cancelled m pos) s .leave
  | admissionPanicked {s m pos q reg} :
    chain[pos]? = some reg →
    reg.answer q = some .panicked →
    Local chain chargeOf c s (.admission m pos q) (.admissionPanicked m pos) s .dead
  | called {s m} :
    Local chain chargeOf c s (.call m) (.work (.called m)) s (.poll m)
  | callPanicked {s m} (duration) :
    Local chain chargeOf c s (.call m) (.work (.callPanicked m)) s
      (.charge m (outcomeOf m.job duration (.error panicText)))
  | resolved {s m} (duration result) :
    Local chain chargeOf c s (.poll m) (.work (.resolved m result)) s
      (.charge m (outcomeOf m.job duration result))
  | pollPanicked {s m} :
    Local chain chargeOf c s (.poll m) (.work (.pollPanicked m)) s .dead
  | charged {s m k result source duration correlation so} :
    chargeOf k result (some so) →
    Local chain chargeOf c s (.charge m (.success k result source duration correlation))
      (.charged m so) s (settleNext chain m (.success k result source duration correlation) so 0)
  | chargePanicked {s m k result source duration correlation} :
    chargeOf k result none →
    Local chain chargeOf c s (.charge m (.success k result source duration correlation))
      (.chargePanicked m) s .dead
  | chargedFailure {s m k error source duration correlation} :
    Local chain chargeOf c s (.charge m (.failure k error source duration correlation))
      (.charged m .charged) s
      (settleNext chain m (.failure k error source duration correlation) .charged 0)
  | settle {s m outcome so pos reg} :
    chain[pos]? = some reg →
    Local chain chargeOf c s (.settle m outcome so pos) (.settle m pos so) s
      (.settling m outcome so pos (reg.settle so))
  | settleStep {s m outcome so pos q b g q' reg} :
    chain[pos]? = some reg →
    reg.step s.gates q b g q' →
    Local chain chargeOf c s (.settling m outcome so pos q) (.settleStep b) { s with gates := g }
      (.settling m outcome so pos q')
  | settled {s m outcome so pos q reg} :
    chain[pos]? = some reg →
    reg.settled q = some true →
    Local chain chargeOf c s (.settling m outcome so pos q) (.settled m pos) s
      (settleNext chain m outcome so (pos + 1))
  | settlePanicked {s m outcome so pos q reg} :
    chain[pos]? = some reg →
    reg.settled q = some false →
    Local chain chargeOf c s (.settling m outcome so pos q) (.settlePanicked m pos so) s .dead
  | outcomeSent {s m outcome} (room : s.outcomes.waiting < s.outcomes.capacity) :
    s.outcomes.isOpen = true →
    Local chain chargeOf c s (.send m outcome) (.work (.outcomeSent m outcome))
      { s with outcomes := s.outcomes.push room } (.dequeue .idle)
  | outcomeRefused {s m outcome} :
    s.outcomes.isOpen = false →
    Local chain chargeOf c s (.send m outcome) (.work (.outcomeRefused m outcome)) s .leave
  | exited {s} :
    Local chain chargeOf c s .leave (.work .exited) s .exited

/-- A pool with its workers and producers. -/
abbrev Pool (C R Γ Q : Type) := Threads (Shared C Γ) (Pc C R Q)

/-- The labels of a run of a pool. -/
abbrev Trace (C R B E : Type) := List (Threads.Label (Event C R B) (PoolEnv E))

/-- Steps of a pool. -/
abbrev PoolStep (chain : List (Regulator Γ Q B)) (chargeOf : ChargeOf R) (env : Γ → E → Γ → Prop) :
    Pool C R Γ Q → Threads.Label (Event C R B) (PoolEnv E) → Pool C R Γ Q → Prop :=
  Threads.IStep (Local chain chargeOf) (EnvStep env)

/-- A pool of `workerCount` workers on a fresh queue, with a channel for its outcomes (Rust
`run_worker_pool_regulated`). -/
def Pool.start (workerCount capacity : Nat) (pos : 0 < capacity) (gates : Γ) (outcomes : Outcomes) :
    Pool C R Γ Q where
  shared := ⟨.new C capacity pos, gates, outcomes⟩
  pc i := if i < workerCount then .dequeue .idle else .client .idle

/-- The worker has ended. -/
def Pc.ended : Pc C R Q → Bool
  | .exited | .dead => true
  | _ => false

/-- The pool has returned. -/
def Returned (workerCount : Nat) (s : Pool C R Γ Q) : Prop :=
  ∀ i < workerCount, (s.pc i).ended = true

end CherryPit.WorkerPool.Regulated
