import CherryPit.Conc.View
import CherryPit.WorkerPool.Gates

/-!
# The worker pool

Port of `cherry-pit-wq/src/worker_pool.rs` (`run_worker_pool`, `worker_loop`). The threads below
`worker_count` are the workers, the others are producers that enqueue, close and ask for the length;
a worker's call of `dequeue` is made of the steps of `WorkQueue.Local`, its call of
`BudgetGate::acquire` of those of `Budget.Local`.

`catch_unwind` surrounds the call of `execute` and not the await of its future: a panic of the call
becomes an outcome, a panic while the future is polled ends the worker (`Pc.dead`), as does a panic
inside `acquire`. The pool returns when every worker has ended. Log lines are left out.
-/

namespace CherryPit.WorkerPool.Legacy

open Conc Threads WorkQueue

variable {C R : Type}

/-- The program points of a thread of the pool. `m` is the job that a worker has dequeued. -/
inductive Pc (C R : Type) where
  | client (p : WorkQueue.Pc C)
  | dequeue (p : WorkQueue.Pc C)
  | acquire (m : Message C) (p : Budget.Pc)
  | checkHalt (m : Message C) (h : HaltPc)
  | waitReset (m : Message C) (w : WaitPc)
  | call (m : Message C)
  | poll (m : Message C)
  | send (m : Message C) (outcome : JobOutcome R)
  | leave
  | exited
  | dead

/-- What a step of a thread of the pool does. -/
inductive Event (C R : Type) where
  | queue (a : WorkQueue.Event C)
  | gate (b : GateEvent)
  | acquired (m : Message C) (ok : Bool)
  | acquirePanicked (m : Message C)
  | rateChecked (m : Message C) (ok : Bool)
  | work (w : Work C R)

/-- One step of thread `c`: a producer, or a worker in `worker_loop`. -/
inductive Local (c : Nat) :
    Shared C Gates → Pc C R → Event C R → Shared C Gates → Pc C R → Prop where
  | client {s p a q p'} :
    WorkQueue.Local c s.queue p a q p' →
    inProducer a = true →
    Local c s (.client p) (.queue a) { s with queue := q } (.client p')
  | dequeue {s p a q p'} :
    WorkQueue.Local c s.queue p a q p' →
    inDequeue a = true →
    Local c s (.dequeue p) (.queue a) { s with queue := q } (.dequeue p')
  | dequeued {s p m q p'} :
    WorkQueue.Local c s.queue p (.dequeued (some m)) q p' →
    Local c s (.dequeue p) (.queue (.dequeued (some m))) { s with queue := q }
      (.acquire m .loadLimit)
  | drained {s p q p'} :
    WorkQueue.Local c s.queue p (.dequeued none) q p' →
    Local c s (.dequeue p) (.queue (.dequeued none)) { s with queue := q } .leave
  | acquire {s m p a g p'} :
    AcquireLocal s.gates p a g p' →
    Local c s (.acquire m p) (.gate (.budget a)) { s with gates := g } (.acquire m p')
  | acquired {s m} :
    Local c s (.acquire m (.returned true)) (.acquired m true) s (.checkHalt m .loadRolled)
  | refused {s m} :
    Local c s (.acquire m (.returned false)) (.acquired m false) s .leave
  | acquirePanicked {s m} :
    Local c s (.acquire m .unwound) (.acquirePanicked m) s .dead
  | checkHalt {s m h h'} :
    s.gates.rateLimit.shouldHalt h = some h' →
    Local c s (.checkHalt m h) (.gate (.rate .checked)) s (.checkHalt m h')
  | notHalted {s m} :
    Local c s (.checkHalt m (.returned false)) (.rateChecked m true) s (.call m)
  | halted {s m} :
    Local c s (.checkHalt m (.returned true)) (.gate (.rate .halted)) s (.waitReset m .start)
  | waitReset {s m w a w'} :
    WaitLocal s.gates.rateLimit s.gates.cancelled w a w' →
    Local c s (.waitReset m w) (.gate (.rate a)) s (.waitReset m w')
  | reset {s m} :
    Local c s (.waitReset m (.returned true)) (.rateChecked m true) s (.call m)
  | waitCancelled {s m} :
    Local c s (.waitReset m (.returned false)) (.rateChecked m false) s .leave
  | called {s m} :
    Local c s (.call m) (.work (.called m)) s (.poll m)
  | callPanicked {s m} (duration) :
    Local c s (.call m) (.work (.callPanicked m)) s
      (.send m (outcomeOf m.job duration (.error panicText)))
  | resolved {s m} (duration result) :
    Local c s (.poll m) (.work (.resolved m result)) s (.send m (outcomeOf m.job duration result))
  | pollPanicked {s m} :
    Local c s (.poll m) (.work (.pollPanicked m)) s .dead
  | outcomeSent {s m outcome} (room : s.outcomes.waiting < s.outcomes.capacity) :
    s.outcomes.isOpen = true →
    Local c s (.send m outcome) (.work (.outcomeSent m outcome))
      { s with outcomes := s.outcomes.push room } (.dequeue .idle)
  | outcomeRefused {s m outcome} :
    s.outcomes.isOpen = false →
    Local c s (.send m outcome) (.work (.outcomeRefused m outcome)) s .leave
  | exited {s} :
    Local c s .leave (.work .exited) s .exited

/-- A pool with its workers and producers. -/
abbrev Pool (C R : Type) := Threads (Shared C Gates) (Pc C R)

/-- Steps of a pool. -/
abbrev PoolStep : Pool C R → Label (Event C R) (PoolEnv GatesEnv) → Pool C R → Prop :=
  IStep Local (EnvStep gatesEnv)

/-- A pool of `workerCount` workers on a fresh queue, with a channel for its outcomes (Rust
`run_worker_pool`). -/
def Pool.start (workerCount capacity : Nat) (pos : 0 < capacity) (gates : Gates)
    (outcomes : Outcomes) : Pool C R where
  shared := ⟨.new C capacity pos, gates, outcomes⟩
  pc i := if i < workerCount then .dequeue .idle else .client .idle

/-- The worker has ended. -/
def Pc.ended : Pc C R → Bool
  | .exited | .dead => true
  | _ => false

/-- The pool has returned. -/
def Returned (workerCount : Nat) (s : Pool C R) : Prop := ∀ i < workerCount, (s.pc i).ended = true

section Queue

/-- Where the thread is in its calls of the queue. -/
def Pc.queue : Pc C R → WorkQueue.Pc C
  | .client p | .dequeue p => p
  | _ => .idle

/-- What the queue sees of an event. -/
def Event.onQueue : Event C R → Option (WorkQueue.Event C)
  | .queue a => some a
  | _ => none

/-- The queue of a pool with its callers. -/
def Pool.queue (s : Pool C R) : System C := s.view Shared.queue Pc.queue

/-- What the queue sees of a run. -/
def onQueue (tr : List (Label (Event C R) (PoolEnv GatesEnv))) :
    List (Label (WorkQueue.Event C) Empty) :=
  tr.filterMap (Label.view Event.onQueue fun _ => none)

/-- A call of `dequeue` that returns is over. -/
lemma dequeued_idle {c q m q'} {p p' : WorkQueue.Pc C}
    (st : WorkQueue.Local c q p (.dequeued m) q' p') : p' = .idle := by
  cases st <;> rfl

/-- A step is one of the queue's, or the queue does not see it. -/
lemma Local.queue {c a} {s s' : Shared C Gates} {p p' : Pc C R} (st : Local c s p a s' p') :
    (∃ b, a.onQueue = some b ∧ WorkQueue.Local c s.queue p.queue b s'.queue p'.queue) ∨
    (a.onQueue = none ∧ s'.queue = s.queue ∧ p'.queue = p.queue) := by
  cases st with
  | client st => exact .inl ⟨_, rfl, st⟩
  | dequeue st => exact .inl ⟨_, rfl, st⟩
  | dequeued st | drained st =>
    cases dequeued_idle st
    exact .inl ⟨_, rfl, st⟩
  | _ => exact .inr ⟨rfl, rfl, rfl⟩

/-- A run of the pool is seen as a run of the queue. -/
lemma run_queue {tr} {s s' : Pool C R} (r : Run PoolStep s tr s') :
    Run QueueStep s.queue (onQueue tr) s'.queue := by
  exact irun_seen Shared.queue Pc.queue Event.onQueue (fun _ => none)
    (fun st => st.queue) (fun st => .inr ⟨rfl, st.queue⟩) r

/-- The queue of a pool starts empty and open. -/
lemma queue_start (workerCount capacity : Nat) (pos : 0 < capacity) (gates : Gates)
    (outcomes : Outcomes) :
    (Pool.start workerCount capacity pos gates outcomes : Pool C R).queue =
      .start (.new C capacity pos) := by
  have idle : ∀ i, ((Pool.start workerCount capacity pos gates outcomes : Pool C R).pc i).queue =
      .idle := by
    intro i
    simp only [Pool.start]
    split <;> rfl
  exact congrArg (mk _) (funext idle)

/-- The jobs that were accepted in a run, in the order in which they entered the queue. -/
def acceptedIn (tr : List (Label (Event C R) (PoolEnv GatesEnv))) : List (Message C) :=
  sentIn (onQueue tr)

end Queue

end CherryPit.WorkerPool.Legacy
