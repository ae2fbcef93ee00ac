import CherryPit.Conc.Ledger
import CherryPit.WorkerPool.Regulated

/-!
# Permits of the regulated pool

A permit is a position of the chain and a job: the regulator there has answered `Admitted` for the
job. Every permit is in the hands of one worker until the regulator is settled for it, or the worker
ends with the permit unsettled (`Local.permits`). A worker does that when a later regulator answers
`Cancelled` and when something panics that `catch_unwind` does not surround.
`conserved_iff_not_abandons` says that permits are conserved exactly if no worker ever does.
-/

namespace CherryPit.WorkerPool.Regulated

open Conc Threads WorkQueue
open Budget (SettleOutcome)

variable {C R Γ Q B E : Type} {n : Nat}

section Permits

variable {lo hi : Nat}

/-- The permits of a job for the positions from `lo` up to `hi`. -/
def permits (m : Message C) (lo hi : Nat) : Multiset (Nat × Message C) :=
  ((List.range' lo (hi - lo)).map fun pos => (pos, m) : List (Nat × Message C))

lemma permits_self (m : Message C) (pos : Nat) : permits m pos pos = 0 := by
  simp [permits]

lemma permits_of_le (m : Message C) (le : hi ≤ lo) : permits m lo hi = 0 := by
  simp [permits, Nat.sub_eq_zero_of_le le]

/-- One more regulator has admitted the job. -/
lemma permits_succ (m : Message C) (pos : Nat) :
    permits m 0 (pos + 1) = {(pos, m)} + permits m 0 pos := by
  simp [permits, List.range'_concat, add_comm]

/-- The first permit and the rest. -/
lemma permits_cons (m : Message C) (lt : lo < hi) :
    permits m lo hi = {(lo, m)} + permits m (lo + 1) hi := by
  obtain ⟨n, rfl⟩ := Nat.exists_eq_add_of_lt lt
  have here : lo + n + 1 - lo = n + 1 := by omega
  have next : lo + n + 1 - (lo + 1) = n := by omega
  simp [permits, here, next, List.range'_succ]

lemma permits_eq_zero {m : Message C} : permits m lo hi = 0 ↔ hi ≤ lo := by
  constructor
  · intro zero
    by_contra lt
    rw [permits_cons m (Nat.not_le.mp lt)] at zero
    simp at zero
  · exact permits_of_le m

end Permits

section Events

/-- The permit that a step grants. -/
@[simp] def Event.granted : Event C R B → Multiset (Nat × Message C)
  | .admitted m pos => {(pos, m)}
  | _ => 0

/-- The permit that a step settles. -/
@[simp] def Event.settles : Event C R B → Multiset (Nat × Message C)
  | .settle m pos _ => {(pos, m)}
  | _ => 0

/-- The permit that a step settles as free. -/
@[simp] def Event.settlesFree : Event C R B → Multiset (Nat × Message C)
  | .settle m pos .free => {(pos, m)}
  | _ => 0

/-- The permits of a job that was executed and is charged. -/
@[simp] def Event.charges (n : Nat) : Event C R B → Multiset (Nat × Message C)
  | .charged m .charged => permits m 0 n
  | _ => 0

/-- The permits with which a worker ends. -/
@[simp] def Event.abandoned (n : Nat) : Event C R B → Multiset (Nat × Message C)
  | .cancelled m pos | .admissionPanicked m pos => permits m 0 pos
  | .work (.pollPanicked m) | .chargePanicked m => permits m 0 n
  | .settlePanicked m pos _ => permits m (pos + 1) n
  | _ => 0

/-- The permits with which a worker ends, except those of a job that is charged. -/
@[simp] def Event.abandonedUncharged (n : Nat) : Event C R B → Multiset (Nat × Message C)
  | .settlePanicked m pos .free => permits m (pos + 1) n
  | .settlePanicked _ _ .charged => 0
  | a => a.abandoned n

/-- The worker ends while it holds a permit: a later regulator has answered `Cancelled`, or a
panic. -/
def Event.abandons (n : Nat) : Event C R B → Bool
  | .cancelled _ pos | .admissionPanicked _ pos => decide (0 < pos)
  | .work (.pollPanicked _) | .chargePanicked _ => decide (0 < n)
  | .settlePanicked _ pos _ => decide (pos + 1 < n)
  | _ => false

/-- Nothing is abandoned unless a worker ends with permits. -/
lemma Event.abandoned_eq_zero {a : Event C R B} : a.abandoned n = 0 ↔ a.abandons n = false := by
  cases a with
  | work w => cases w <;> simp [abandons, permits_eq_zero]
  | _ => simp [abandons, permits_eq_zero]

lemma Event.abandonedUncharged_eq_zero {a : Event C R B} (zero : a.abandoned n = 0) :
    a.abandonedUncharged n = 0 := by
  cases a with
  | settlePanicked m pos so =>
    cases so with
    | charged => rfl
    | free => exact zero
  | _ => exact zero

/-- The permits that a worker holds. -/
@[simp] def Pc.held (n : Nat) : Pc C R Q → Multiset (Nat × Message C)
  | .admission m pos _ => permits m 0 pos
  | .call m | .poll m | .charge m _ => permits m 0 n
  | .settle m _ _ pos => permits m pos n
  | .settling m _ _ pos _ => permits m (pos + 1) n
  | _ => 0

/-- The permits that a worker holds, except those of a job that is charged. -/
@[simp] def Pc.heldUncharged (n : Nat) : Pc C R Q → Multiset (Nat × Message C)
  | .settle _ _ .charged _ | .settling _ _ .charged _ _ => 0
  | p => p.held n

/-- The points of a producer. -/
def Pc.isClient : Pc C R Q → Bool
  | .client _ => true
  | _ => false

end Events

section Balance

variable {chain : List (Regulator Γ Q B)} {chargeOf : ChargeOf R} {c : Nat} {s s' : Shared C Γ}
  {p p' : Pc C R Q} {a : Event C R B} {m : Message C} {o : JobOutcome R}

/-- Permits at the next question (Rust `admit`). -/
lemma held_askNext {pos : Nat} (le : pos ≤ chain.length) :
    (askNext chain m pos : Pc C R Q).held chain.length = permits m 0 pos := by
  unfold askNext
  split
  · rfl
  · next none =>
    have ge := List.getElem?_eq_none_iff.mp none
    rw [le_antisymm le ge]
    rfl

/-- Permits of a job that may still be free. -/
lemma heldUncharged_askNext {pos : Nat} (le : pos ≤ chain.length) :
    (askNext chain m pos : Pc C R Q).heldUncharged chain.length = permits m 0 pos := by
  rw [← held_askNext (R := R) (C := C) le]
  unfold askNext
  split <;> rfl

/-- Permits at the next settling (Rust `settle`). -/
lemma held_settleNext {so : SettleOutcome} {pos : Nat} :
    (settleNext chain m o so pos : Pc C R Q).held chain.length = permits m pos chain.length := by
  unfold settleNext
  split
  · rfl
  · next ge => exact (permits_of_le m (Nat.not_lt.mp ge)).symm

/-- Only a free job has permits to give back. -/
lemma heldUncharged_settleNext {pos : Nat} :
    (settleNext chain m o .free pos : Pc C R Q).heldUncharged chain.length =
      permits m pos chain.length ∧
    (settleNext chain m o .charged pos : Pc C R Q).heldUncharged chain.length = 0 := by
  unfold settleNext
  split
  · exact ⟨rfl, rfl⟩
  · next ge => exact ⟨(permits_of_le m (Nat.not_lt.mp ge)).symm, rfl⟩

lemma lt_of_some {pos : Nat} {reg : Regulator Γ Q B} (at' : chain[pos]? = some reg) :
    pos < chain.length :=
  (List.getElem?_eq_some_iff.mp at').1

/-- What a step does with the permits of its worker. -/
lemma Local.permits (st : Local chain chargeOf c s p a s' p') :
    a.granted + p.held chain.length =
      a.settles + a.abandoned chain.length + p'.held chain.length := by
  cases st with
  | dequeued =>
    rw [held_askNext (Nat.zero_le _), permits_self]
    rfl
  | @admitted m pos q reg at' =>
    rw [held_askNext (lt_of_some at'), permits_succ]
    simp
  | charged | chargedFailure =>
    rw [held_settleNext]
    simp
  | settle at' =>
    simp [permits_cons _ (lt_of_some at')]
  | settled =>
    rw [held_settleNext]
    simp
  | _ => simp

/-- What a step does with the permits that its worker has to settle as free. -/
lemma Local.freePermits (st : Local chain chargeOf c s p a s' p') :
    a.granted + p.heldUncharged chain.length =
      a.settlesFree + a.charges chain.length + a.abandonedUncharged chain.length +
        p'.heldUncharged chain.length := by
  cases st with
  | dequeued =>
    rw [heldUncharged_askNext (Nat.zero_le _), permits_self]
    rfl
  | @admitted m pos q reg at' =>
    rw [heldUncharged_askNext (lt_of_some at'), permits_succ]
    simp
  | @charged m k result source duration correlation so =>
    cases so with
    | charged =>
      rw [heldUncharged_settleNext.2]
      simp
    | free =>
      rw [heldUncharged_settleNext.1]
      simp
  | chargedFailure =>
    rw [heldUncharged_settleNext.2]
    simp
  | @settle m outcome so pos reg at' =>
    cases so <;> simp [permits_cons _ (lt_of_some at')]
  | @settled m outcome so pos =>
    cases so with
    | charged =>
      rw [heldUncharged_settleNext.2]
      rfl
    | free =>
      rw [heldUncharged_settleNext.1]
      simp
  | @settleStep m outcome so =>
    cases so <;> simp
  | @settlePanicked m outcome so =>
    cases so <;> simp
  | _ =>
    simp

/-- A producer stays a producer. -/
lemma Local.isClient (st : Local chain chargeOf c s p a s' p') (client : p.isClient = true) :
    p'.isClient = true := by
  cases st with
  | client => rfl
  | _ => cases client

end Balance

section Conservation

variable {chain : List (Regulator Γ Q B)} {chargeOf : ChargeOf R} {env : Γ → E → Γ → Prop}
  {workerCount capacity : Nat} {pos : 0 < capacity} {gates : Γ} {outcomes : Outcomes}
  {tr : Trace C R B E} {s : Pool C R Γ Q}

/-- A thread that is no worker is a producer. -/
lemma isClient_run
    (r : Run (PoolStep chain chargeOf env) (.start workerCount capacity pos gates outcomes) tr s)
    {i : Nat} (ge : workerCount ≤ i) : (s.pc i).isClient = true := by
  refine irun_thread (J := fun i p _ => workerCount ≤ i → p.isClient = true) ?_ ?_ r i ge
  · intro i g p a g' p' as st client ge
    exact st.isClient (client ge)
  · intro i ge
    simp only [Pool.start, Nat.not_lt.mpr ge, if_false]
    rfl

/-- At the end no thread holds a permit. -/
lemma held_returned
    (r : Run (PoolStep chain chargeOf env) (.start workerCount capacity pos gates outcomes) tr s)
    (returned : Returned workerCount s) (n i : Nat) :
    (s.pc i).held n = 0 ∧ (s.pc i).heldUncharged n = 0 := by
  rcases Nat.lt_or_ge i workerCount with lt | ge
  · have ended := returned i lt
    cases at' : s.pc i <;> rw [at'] at ended <;> first | exact ⟨rfl, rfl⟩ | cases ended
  · have client := isClient_run r ge
    cases at' : s.pc i <;> rw [at'] at client <;> first | exact ⟨rfl, rfl⟩ | cases client

/-- The permits granted in a run that has returned were settled or abandoned. -/
lemma granted_eq
    (r : Run (PoolStep chain chargeOf env) (.start workerCount capacity pos gates outcomes) tr s)
    (returned : Returned workerCount s) :
    total Event.granted tr =
      total Event.settles tr + total (Event.abandoned chain.length) tr := by
  rw [← total_add]
  refine run_settled (Pc.held chain.length) (fun ⟨_, st⟩ => st.permits) ?_
    (r.mono IStep.forget) fun i => (held_returned r returned _ i).1
  intro i
  simp only [Pool.start]
  split <;> rfl

/-- The permits granted in a run that has returned were settled as free, or their job charged, or
abandoned. -/
lemma granted_eq_free
    (r : Run (PoolStep chain chargeOf env) (.start workerCount capacity pos gates outcomes) tr s)
    (returned : Returned workerCount s) :
    total Event.granted tr =
      total Event.settlesFree tr + total (Event.charges chain.length) tr +
        total (Event.abandonedUncharged chain.length) tr := by
  rw [← total_add, ← total_add]
  refine run_settled (Pc.heldUncharged chain.length) (fun ⟨_, st⟩ => st.freePermits) ?_
    (r.mono IStep.forget) fun i => (held_returned r returned _ i).2
  intro i
  simp only [Pool.start]
  split <;> rfl

/-- No worker has ended with a permit. -/
lemma not_abandons_iff {tr : Trace C R B E} :
    (∀ i a, .act i a ∈ tr → a.abandons n = false) ↔ total (Event.abandoned n) tr = 0 := by
  simp only [total_eq_zero, Event.abandoned_eq_zero]

/-- Every permit was settled once, and as free exactly if its job was not charged. -/
def Conserved (n : Nat) (tr : Trace C R B E) : Prop :=
  total Event.granted tr = total Event.settles tr ∧
  total Event.granted tr =
    total Event.settlesFree tr + total (Event.charges n) tr

/-- When the regulated pool has returned, permits are conserved exactly if no worker has ended with
one: no regulator after the first has answered `Cancelled` or panicked, no future panicked while it
was polled, and neither did `charge_of` nor the settling of a regulator before the last. -/
theorem conserved_iff_not_abandons
    (r : Run (PoolStep chain chargeOf env) (.start workerCount capacity pos gates outcomes) tr s)
    (returned : Returned workerCount s) :
    Conserved chain.length tr ↔ ∀ i a, .act i a ∈ tr → a.abandons chain.length = false := by
  have all := granted_eq r returned
  have free := granted_eq_free r returned
  rw [not_abandons_iff]
  constructor
  · rintro ⟨settled, -⟩
    rwa [settled, left_eq_add] at all
  · intro none
    constructor
    · rw [all, none, add_zero]
    · rw [free, add_eq_left, total_eq_zero]
      intro i a mem
      exact Event.abandonedUncharged_eq_zero (total_eq_zero.mp none i a mem)

end Conservation

section Concrete

/-- A regulator that admits at once. -/
def granting : Regulator Bool (Option Admission) Unit where
  start := some .admitted
  step _ _ _ _ _ := False
  answer q := q
  settle _ := none
  settled _ := some true

/-- A regulator that parks its caller until the pool is cancelled. -/
def parking : Regulator Bool (Option Admission) Unit where
  start := none
  step cancelled q _ cancelled' q' :=
    cancelled = true ∧ q = none ∧ cancelled' = true ∧ q' = some .cancelled
  answer q := q
  settle _ := none
  settled _ := some true

/-- The caller of the pool may cancel it. -/
def cancelling (_ : Bool) (_ : Unit) (cancelled' : Bool) : Prop := cancelled' = true

/-- Every result is free. -/
def nothingSpent : ChargeOf Unit := fun _ _ answer => answer = some .free

/-- The message of the concrete runs, from producer 1. -/
def job : Message Unit := ⟨1, { refresh with enqueuedAt := some 0 }⟩

/-- The shared state after the message is sent. -/
def withJob (g : Γ) : Shared Unit Γ where
  queue := { Queue.new Unit 1 Nat.one_pos with
    messages := [job]
    pending := insert "refresh" ∅
    insertedBy := Function.update (fun _ => 0) "refresh" 1 }
  gates := g
  outcomes := .new 1 Nat.one_pos

/-- The shared state after the queue is closed. -/
def closed (g : Γ) : Shared Unit Γ :=
  { withJob g with queue := { (withJob g).queue with senderOpen := false } }

/-- The shared state after the message is received. -/
def emptied (g : Γ) : Shared Unit Γ :=
  { closed g with queue := { (closed g).queue with
    messages := []
    pending := (insert "refresh" ∅ : Finset DomainKey).erase "refresh" } }

/-- The points of the threads while the worker is at `p`. -/
def pcs (p : Pc Unit Unit Q) : Nat → Pc Unit Unit Q :=
  Function.update (Function.update (Function.update
    (Pool.start 1 1 Nat.one_pos () (.new 1 Nat.one_pos) : Pool Unit Unit Unit Q).pc
      1 (.client (.returned .accepted))) 2 (.client .idle)) 0 p

/-- A producer enqueues a job, another closes the queue, and the worker takes the job. -/
lemma run_to_job (chain : List (Regulator Γ Q B)) (chargeOf : ChargeOf Unit)
    (env : Γ → E → Γ → Prop) (g : Γ) : ∃ tr : Trace Unit Unit B E,
    Run (PoolStep chain chargeOf env) (.start 1 1 Nat.one_pos g (.new 1 Nat.one_pos)) tr
      ⟨emptied g, pcs (askNext chain job 0)⟩ ∧
    total Event.granted tr = 0 ∧ total Event.settles tr = 0 ∧
    total Event.settlesFree tr = 0 ∧
    total (Event.abandoned chain.length) tr = 0 := by
  have enqueues : Run (Solo (Local chain chargeOf) 1)
      (⟨.new Unit 1 Nat.one_pos, g, .new 1 Nat.one_pos⟩, .client .idle) _
      (withJob g, .client (.returned .accepted)) :=
    solo_cons (.client (.enqueue refresh) rfl) <|
    solo_cons (.client (.inserted (Finset.notMem_empty _)) rfl) <|
    solo_cons (.client (.stamped 0) rfl) <|
    solo_cons (.client (.lockSender rfl) rfl) <|
    solo_cons (.client (.senderFound rfl) rfl) <|
    solo_cons (.client (.sent rfl Nat.one_pos) rfl) <|
    solo_cons (.client .unlockSender rfl) .nil
  have closes : Run (Solo (Local chain chargeOf) 2)
      (withJob g, .client .idle) _ (closed g, .client .idle) :=
    solo_cons (.client .close rfl) <|
    solo_cons (.client (.lockToClose rfl) rfl) <|
    solo_cons (.client .take rfl) <|
    solo_cons (.client .unlockClosed rfl) .nil
  have takes : Run (Solo (Local chain chargeOf) 0)
      (closed g, .dequeue .idle) _ (emptied g, askNext chain job 0) :=
    solo_cons (.dequeue .dequeue rfl) <|
    solo_cons (.dequeue (.lockReceiver rfl) rfl) <|
    solo_cons (.dequeue (.received rfl) rfl) <|
    solo_cons (.dequeue .removed rfl) <|
    solo_cons (.dequeued .unlockReceiver) .nil
  exact ⟨_, (solo_run enqueues rfl rfl).append ((solo_run closes rfl rfl).append
    (solo_run takes rfl rfl)), rfl, rfl, rfl, rfl⟩

lemma returned_one {s : Pool C R Γ Q} (ended : (s.pc 0).ended = true) : Returned 1 s := by
  intro i lt
  cases Nat.lt_one_iff.mp lt
  exact ended

/-- Both regulators admit the job, which turns out to be free: both permits are settled as free. -/
theorem conserved_free : ∃ (tr : Trace Unit Unit Unit Unit) (s : Pool Unit Unit Bool _),
    Run (PoolStep [granting, granting] nothingSpent cancelling)
      (.start 1 1 Nat.one_pos false (.new 1 Nat.one_pos)) tr s ∧
    Returned 1 s ∧ Conserved 2 tr ∧
    total Event.settlesFree tr =
      ({(0, job), (1, job)} : Multiset (Nat × Message Unit)) := by
  obtain ⟨tr, r, -, -, none, quiet⟩ := run_to_job [granting, granting] nothingSpent cancelling false
  have ends : Run (Solo (Local [granting, granting] nothingSpent) 0)
      (emptied false, .admission job 0 (some .admitted)) _ (_, .exited) :=
    solo_cons (.admitted rfl rfl) <|
    solo_cons (.admitted rfl rfl) <|
    solo_cons .called <|
    solo_cons (.resolved 0 (.ok ())) <|
    solo_cons (.charged rfl) <|
    solo_cons (.settle rfl) <|
    solo_cons (.settled rfl rfl) <|
    solo_cons (.settle rfl) <|
    solo_cons (.settled rfl rfl) <|
    solo_cons (.outcomeSent Nat.one_pos rfl) <|
    solo_cons (.dequeue .dequeue rfl) <|
    solo_cons (.dequeue (.lockReceiver rfl) rfl) <|
    solo_cons (.drained (.drained rfl rfl)) <|
    solo_cons .exited .nil
  have all := r.append (solo_run ends rfl rfl)
  refine ⟨_, _, all, returned_one rfl, ?_, ?_⟩
  · refine (conserved_iff_not_abandons all (returned_one rfl)).mpr ?_
    rw [not_abandons_iff, total_append, quiet]
    rfl
  · rw [total_append, none]
    rfl

/-- The first regulator admits the job, and the pool is cancelled while the second one parks the
worker: the worker exits and the first regulator is not settled. -/
theorem cancelled_unsettled : ∃ (tr : Trace Unit Unit Unit Unit) (s : Pool Unit Unit Bool _),
    Run (PoolStep [granting, parking] nothingSpent cancelling)
      (.start 1 1 Nat.one_pos false (.new 1 Nat.one_pos)) tr s ∧
    Returned 1 s ∧ total Event.granted tr = ({(0, job)} : Multiset (Nat × Message Unit)) ∧
    total Event.settles tr = 0 := by
  obtain ⟨tr, r, granted, settled, -, -⟩ :=
    run_to_job [granting, parking] nothingSpent cancelling false
  have parks : Run (Solo (Local [granting, parking] nothingSpent) 0)
      (emptied false, .admission job 0 (some .admitted)) _ (emptied false, .admission job 1 none) :=
    solo_cons (.admitted rfl rfl) .nil
  have leaves : Run (Solo (Local [granting, parking] nothingSpent) 0)
      (emptied true, .admission job 1 none) _
      (emptied true, .exited) :=
    solo_cons (.gate (b := ()) rfl ⟨rfl, rfl, rfl, rfl⟩) <|
    solo_cons (.cancelled rfl rfl) <|
    solo_cons .exited .nil
  have parked := r.append (solo_run parks rfl rfl)
  have cancelled := parked.snoc (.env (.gates (e := ()) rfl))
  refine ⟨_, _, cancelled.append (solo_run leaves rfl rfl), returned_one rfl, ?_, ?_⟩
  · simp only [total_append, granted]
    rfl
  · simp only [total_append, settled]
    rfl

end Concrete

end CherryPit.WorkerPool.Regulated
