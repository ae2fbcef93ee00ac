import CherryPit.Conc.Tokens
import CherryPit.Core.Work

/-!
# The work queue

Port of `cherry-pit-wq/src/work_queue.rs` (`WorkQueue::enqueue`, `dequeue`, `close`, `len`). Every
access to the dedup set, to a lock and to the channel is one step; an interleaving is a run of
`Conc.Threads` over the queue.

Rust → Lean: `scc::HashSet` is a finite set with atomic insertion and removal; the bounded
`tokio::sync::mpsc` channel is a list with a capacity; `sender : Mutex<Option<Sender>>` is
`senderOpen` under `senderLocked`, `receiver` is the channel's far end under `receiverLocked`. A
thread makes any number of `dequeue`, `close` and `len` calls and at most one `enqueue`, which is
named after the thread; a producer that comes back is another thread. A call returns with its last
access to the shared state.

Two things are recorded that the source does not have: a message carries the `enqueue` call that
sent it, and `insertedBy` remembers which call put a key into the dedup set. Log lines are left out.
-/

namespace CherryPit.WorkQueue

open Conc Threads

/-- A unit of work submitted to the queue (Rust `JobSpec`). -/
structure JobSpec (C : Type) where
  domainKey : DomainKey
  context : C
  source : JobSource
  enqueuedAt : Option Instant
  correlation : CorrelationContext
  deriving DecidableEq

/-- Rust `JobSpec::new`. -/
def JobSpec.new {C : Type} (domainKey : DomainKey) (context : C) (source : JobSource)
    (correlation : CorrelationContext) : JobSpec C where
  domainKey := domainKey
  context := context
  source := source
  enqueuedAt := none
  correlation := correlation

/-- Result of an enqueue attempt (Rust `EnqueueResult`). -/
inductive EnqueueResult where
  | accepted
  | deduplicated
  | queueFull
  deriving DecidableEq

/-- A job in the channel, with the `enqueue` call that sent it. -/
structure Message (C : Type) where
  call : Nat
  job : JobSpec C
  deriving DecidableEq

/-- The key of the job. -/
def Message.key {C : Type} (m : Message C) : DomainKey := m.job.domainKey

/-- The shared state of the queue (Rust `WorkQueue`). -/
structure Queue (C : Type) where
  capacity : Nat
  senderOpen : Bool
  senderLocked : Bool
  receiverOpen : Bool
  receiverLocked : Bool
  messages : List (Message C)
  pending : Finset DomainKey
  insertedBy : DomainKey → Nat

/-- Rust `WorkQueue::new`, which refuses a capacity of zero. -/
def Queue.new (C : Type) (capacity : Nat) (_ : 0 < capacity) : Queue C where
  capacity := capacity
  senderOpen := true
  senderLocked := false
  receiverOpen := true
  receiverLocked := false
  messages := []
  pending := ∅
  insertedBy := fun _ => 0

/-- The keys of the jobs in the channel. -/
def Queue.keys {C : Type} (q : Queue C) : List DomainKey := q.messages.map Message.key

/-- The channel takes another message. -/
def Queue.hasRoom {C : Type} (q : Queue C) : Bool :=
  q.receiverOpen && decide (q.messages.length < q.capacity)

/-- The program points of a call, named after what the call is about to do. -/
inductive Pc (C : Type) where
  | idle
  | insert (job : JobSpec C)
  | stamp (job : JobSpec C)
  | lockSender (job : JobSpec C)
  | checkSender (job : JobSpec C)
  | trySend (job : JobSpec C)
  | rollback (job : JobSpec C)
  | unlockSender (result : EnqueueResult)
  | returned (result : EnqueueResult)
  | lockReceiver
  | recv
  | remove (m : Message C)
  | unlockReceiver (m : Message C)
  | lockToClose
  | take
  | unlockClosed

/-- What a step of a call does. -/
inductive Event (C : Type) where
  | enqueue (job : JobSpec C)
  | deduplicated (matched : Nat)
  | inserted
  | stamped (now : Instant)
  | senderLocked
  | senderFound
  | senderGone
  | sent (m : Message C)
  | sendFull
  | sendClosed
  | rolledBack
  | enqueued (result : EnqueueResult)
  | dequeue
  | receiverLocked
  | received (m : Message C)
  | removed
  | dequeued (m : Option (Message C))
  | abandoned
  | close
  | taken
  | closed
  | len (n : Nat)

/-- One atomic step of thread `c` in a call of `enqueue`, `dequeue`, `close` or `len`. -/
inductive Local {C : Type} (c : Nat) : Queue C → Pc C → Event C → Queue C → Pc C → Prop where
  | enqueue {q} (job) :
    Local c q .idle (.enqueue job) q (.insert job)
  | deduplicated {q job} :
    job.domainKey ∈ q.pending →
    Local c q (.insert job) (.deduplicated (q.insertedBy job.domainKey)) q (.returned .deduplicated)
  | inserted {q job} :
    job.domainKey ∉ q.pending →
    Local c q (.insert job) .inserted
      { q with
        pending := insert job.domainKey q.pending
        insertedBy := Function.update q.insertedBy job.domainKey c }
      (.stamp job)
  | stamped {q job} (now) :
    Local c q (.stamp job) (.stamped now) q (.lockSender { job with enqueuedAt := some now })
  | lockSender {q job} :
    q.senderLocked = false →
    Local c q (.lockSender job) .senderLocked { q with senderLocked := true } (.checkSender job)
  | senderFound {q job} :
    q.senderOpen = true →
    Local c q (.checkSender job) .senderFound q (.trySend job)
  | senderGone {q job} :
    q.senderOpen = false →
    Local c q (.checkSender job) .senderGone q (.rollback job)
  | sent {q job} :
    q.receiverOpen = true →
    q.messages.length < q.capacity →
    Local c q (.trySend job) (.sent ⟨c, job⟩) { q with messages := q.messages ++ [⟨c, job⟩] }
      (.unlockSender .accepted)
  | sendFull {q job} :
    q.receiverOpen = true →
    q.capacity ≤ q.messages.length →
    Local c q (.trySend job) .sendFull q (.rollback job)
  | sendClosed {q job} :
    q.receiverOpen = false →
    Local c q (.trySend job) .sendClosed q (.rollback job)
  | rollback {q job} :
    Local c q (.rollback job) .rolledBack { q with pending := q.pending.erase job.domainKey }
      (.unlockSender .queueFull)
  | unlockSender {q result} :
    Local c q (.unlockSender result) (.enqueued result) { q with senderLocked := false }
      (.returned result)
  | dequeue {q} :
    Local c q .idle .dequeue q .lockReceiver
  | lockReceiver {q} :
    q.receiverLocked = false →
    Local c q .lockReceiver .receiverLocked { q with receiverLocked := true } .recv
  | received {q m rest} :
    q.messages = m :: rest →
    Local c q .recv (.received m) { q with messages := rest } (.remove m)
  -- `recv` is over once the sender is dropped and nothing is left
  | drained {q} :
    q.messages = [] →
    q.senderOpen = false →
    Local c q .recv (.dequeued none) { q with receiverLocked := false } .idle
  | removed {q m} :
    Local c q (.remove m) .removed { q with pending := q.pending.erase m.key } (.unlockReceiver m)
  | unlockReceiver {q m} :
    Local c q (.unlockReceiver m) (.dequeued (some m)) { q with receiverLocked := false } .idle
  -- the future is dropped at one of its two awaits
  | abandonLock {q} :
    Local c q .lockReceiver .abandoned q .idle
  | abandonRecv {q} :
    Local c q .recv .abandoned { q with receiverLocked := false } .idle
  | close {q} :
    Local c q .idle .close q .lockToClose
  | lockToClose {q} :
    q.senderLocked = false →
    Local c q .lockToClose .senderLocked { q with senderLocked := true } .take
  | take {q} :
    Local c q .take .taken { q with senderOpen := false } .unlockClosed
  | unlockClosed {q} :
    Local c q .unlockClosed .closed { q with senderLocked := false } .idle
  | len {q} :
    Local c q .idle (.len q.pending.card) q .idle

/-- The queue with its callers. -/
abbrev System (C : Type) := Threads (Queue C) (Pc C)

/-- Steps of the queue. -/
abbrev QueueStep {C : Type} : System C → Label (Event C) Empty → System C → Prop :=
  IStep Local fun _ _ _ => False

/-- A queue before its first call. -/
def System.start {C : Type} (q : Queue C) : System C := Threads.start q .idle

section Shape

variable {C : Type} {c : Nat} {q q' : Queue C} {p p' : Pc C} {a : Event C}

/-- The key of the dedup set that a call has to account for: its own insertion until the job is
sent or the insertion rolled back, or that of the job it has received and not yet removed. -/
def Pc.holds : Pc C → Option DomainKey
  | .stamp job | .lockSender job | .checkSender job | .trySend job | .rollback job =>
    some job.domainKey
  | .remove m => some m.key
  | _ => none

/-- What a step can do to the channel, to the dedup set and to the key its thread holds. -/
inductive Moves (q : Queue C) (p : Pc C) (q' : Queue C) (p' : Pc C) : Prop where
  | stays : q'.messages = q.messages → q'.pending = q.pending → p'.holds = p.holds →
    Moves q p q' p'
  | inserts (k : DomainKey) : k ∉ q.pending → p.holds = none → p'.holds = some k →
    q'.messages = q.messages → q'.pending = insert k q.pending → Moves q p q' p'
  | sends (m : Message C) : p.holds = some m.key → p'.holds = none →
    q'.messages = q.messages ++ [m] → q'.pending = q.pending → Moves q p q' p'
  | receives (m : Message C) : p.holds = none → p'.holds = some m.key →
    q.messages = m :: q'.messages → q'.pending = q.pending → Moves q p q' p'
  | erases (k : DomainKey) : p.holds = some k → p'.holds = none →
    q'.messages = q.messages → q'.pending = q.pending.erase k → Moves q p q' p'

lemma Local.moves (st : Local c q p a q' p') : Moves q p q' p' := by
  cases st with
  | inserted fresh => exact .inserts _ fresh rfl rfl rfl rfl
  | @sent job => exact .sends ⟨c, job⟩ rfl rfl rfl rfl
  | received e => exact .receives _ rfl rfl e rfl
  | rollback => exact .erases _ rfl rfl rfl rfl
  | removed => exact .erases _ rfl rfl rfl rfl
  | _ => exact .stays rfl rfl rfl

/-- The message that a step puts into the channel. -/
def Event.sentMessage : Event C → Option (Message C)
  | .sent m => some m
  | _ => none

/-- The message that a step takes out of the channel. -/
def Event.receivedMessage : Event C → Option (Message C)
  | .received m => some m
  | _ => none

/-- What a step does to the channel, told by its event. -/
lemma Local.channel (st : Local c q p a q' p') :
    q'.messages = q.messages ++ a.sentMessage.toList ∧ a.receivedMessage = none ∨
    q.messages = a.receivedMessage.toList ++ q'.messages ∧ a.sentMessage = none := by
  cases st with
  | sent => exact .inl ⟨rfl, rfl⟩
  | received e => exact .inr ⟨e, rfl⟩
  | _ => exact .inr ⟨rfl, rfl⟩

/-- The points of `enqueue` and `close` at which the sender's lock is held. -/
def Pc.locksSender : Pc C → Bool
  | .checkSender _ | .trySend _ | .rollback _ | .unlockSender _ | .take | .unlockClosed => true
  | _ => false

/-- Every step respects the sender's lock. -/
lemma Local.respects (st : Local c q p a q' p') :
    Respects Queue.senderLocked (fun p => p.locksSender = true) q p q' p' := by
  cases st with
  | lockSender down => exact .inr (.inl ⟨by simp [Pc.locksSender], rfl, down, rfl⟩)
  | lockToClose down => exact .inr (.inl ⟨by simp [Pc.locksSender], rfl, down, rfl⟩)
  | unlockSender => exact .inr (.inr ⟨rfl, by simp [Pc.locksSender], rfl⟩)
  | unlockClosed => exact .inr (.inr ⟨rfl, by simp [Pc.locksSender], rfl⟩)
  | _ => exact .inl ⟨Iff.rfl, rfl⟩

/-- One call is inside the sender's lock exactly while it is locked. -/
abbrev SenderLock : System C → Prop :=
  Mutex Queue.senderLocked fun p => p.locksSender = true

/-- The points of `dequeue` at which the receiver's lock is held. -/
def Pc.locksReceiver : Pc C → Bool
  | .recv | .remove _ | .unlockReceiver _ => true
  | _ => false

/-- Every step respects the receiver's lock. -/
lemma Local.respectsReceiver (st : Local c q p a q' p') :
    Respects Queue.receiverLocked (fun p => p.locksReceiver = true) q p q' p' := by
  cases st with
  | lockReceiver down => exact .inr (.inl ⟨by simp [Pc.locksReceiver], rfl, down, rfl⟩)
  | drained | unlockReceiver | abandonRecv =>
    exact .inr (.inr ⟨rfl, by simp [Pc.locksReceiver], rfl⟩)
  | _ => exact .inl ⟨Iff.rfl, rfl⟩

/-- One call is inside the receiver's lock exactly while it is locked. -/
abbrev ReceiverLock : System C → Prop :=
  Mutex Queue.receiverLocked fun p => p.locksReceiver = true

lemma ReceiverLock.run {tr} {s s' : System C} (lock : ReceiverLock s) (r : Run QueueStep s tr s') :
    ReceiverLock s' :=
  r.invariant (fun lock st => lock.step (fun ⟨_, st⟩ => st.respectsReceiver) False.elim st.forget)
    lock

/-- Only a `close` that holds the lock drops the sender, and nothing brings it back. -/
lemma Local.sender (st : Local c q p a q' p') :
    q'.senderOpen = q.senderOpen ∨ (p = .take ∧ q'.senderOpen = false) := by
  cases st with
  | take => exact .inr ⟨rfl, rfl⟩
  | _ => exact .inl rfl

end Shape

end CherryPit.WorkQueue
