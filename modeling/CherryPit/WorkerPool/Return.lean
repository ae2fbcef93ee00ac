import CherryPit.WorkerPool.Outcomes

/-!
# The pool returns

After the queue is closed nothing enters it. Every step that a worker takes outside the gates, and
every outcome that is taken, then lowers a potential, in which a job in the queue weighs as much as
a worker needs for it (`Closing.potential_le`), and until the pool has returned some worker has such
a step to take, is inside a gate, or waits for the receiver to take an outcome
(`Closing.can_proceed`). With gates that answer and a receiver that takes outcomes, the pool
returns.
-/

namespace CherryPit.WorkerPool.Legacy

open Conc Threads WorkQueue Function

variable {C R : Type}

/-- A step inside a gate. -/
def Event.inGate : Event C R → Bool
  | .gate _ => true
  | _ => false

/-- The worker is inside a gate that has not answered. -/
def Pc.inGate : Pc C R → Bool
  | .acquire _ (.returned _) | .acquire _ .unwound => false
  | .acquire _ _ => true
  | .checkHalt _ (.returned false) => false
  | .checkHalt _ _ => true
  | .waitReset _ (.returned _) => false
  | .waitReset _ _ => true
  | _ => false

section Potential

/-- What a worker has left to do with the job it has, and to find the queue drained. -/
def Pc.rank : Pc C R → Nat
  | .dequeue .idle => 4
  | .dequeue .lockReceiver => 3
  | .dequeue .recv => 2
  | .dequeue (.remove _) => 13
  | .dequeue (.unlockReceiver _) => 12
  | .acquire _ _ => 11
  | .checkHalt _ _ | .waitReset _ _ => 10
  | .call _ => 9
  | .poll _ => 8
  | .send _ _ => 7
  | .leave => 1
  | _ => 0

/-- What is in the queue and in the channel of outcomes. -/
def load (s : Shared C Gates) : Nat := 12 * s.queue.messages.length + s.outcomes.waiting

/-- What the workers and the receiver of outcomes have left to do. -/
def potential (n : Nat) (s : Pool C R) : Nat :=
  load s.shared + ∑ i ∈ Finset.range n, (s.pc i).rank

/-- One if a worker moves outside the gates, or an outcome is taken. -/
def poolStep (n : Nat) : Label (Event C R) (PoolEnv GatesEnv) → Nat
  | .act i a => if i < n ∧ a.inGate = false then 1 else 0
  | .env .takeOutcome => 1
  | .env _ => 0

/-- The number of steps of workers outside the gates and of outcomes taken. -/
def poolSteps (n : Nat) (tr : Trace C R) : Nat := (tr.map (poolStep n)).sum

variable {c : Nat} {a : Event C R} {s s' : Shared C Gates} {p p' : Pc C R}

/-- A worker's step outside the gates lowers what is left. -/
lemma Local.rank_lt (st : Local c s p a s' p') (worker : p.worker = true)
    (outside : a.inGate = false) :
    p'.rank + load s' < p.rank + load s := by
  cases st with
  | client => cases worker
  | dequeue st dequeues =>
    cases st with
    | received e =>
      simp only [load, e, Pc.rank, List.length_cons]
      omega
    | dequeue | lockReceiver | removed => simp [Pc.rank, load]
    | _ => cases dequeues
  | dequeued st | drained st =>
    cases st
    simp [Pc.rank, load]
  | acquire | checkHalt | halted | waitReset => cases outside
  | outcomeSent room =>
    simp only [load, Outcomes.push, Pc.rank]
    omega
  | _ => simp [Pc.rank]

/-- A step inside a gate leaves it as it is. -/
lemma Local.rank_gate (st : Local c s p a s' p') (inside : a.inGate = true) :
    p'.rank = p.rank ∧ load s' = load s := by
  cases st with
  | acquire | checkHalt | halted | waitReset => exact ⟨rfl, rfl⟩
  | _ => cases inside

/-- Once the sender is gone no producer puts anything into the queue. -/
lemma Local.load_le (st : Local c s p a s' p') (producer : p.producer = true)
    (sendable : ∀ job, p.queue = .trySend job → s.queue.senderOpen = true)
    (closed : s.queue.senderOpen = false) : load s' ≤ load s := by
  have outcomes : s'.outcomes = s.outcomes := by
    cases st <;> first | rfl | cases producer
  simp only [load, outcomes]
  rcases st.queue with ⟨b, _, st⟩ | ⟨_, same, _⟩
  · rcases st.channel with ⟨e, _⟩ | ⟨e, _⟩
    · rcases st.sends with ⟨job, _, at', _⟩ | ⟨none, _⟩
      · exact absurd (sendable job at') (by simp [closed])
      · simp [e, none]
    · simp [e]
  · rw [same]

/-- A closed queue stays closed. -/
lemma Local.senderOpen (st : Local c s p a s' p') (closed : s.queue.senderOpen = false) :
    s'.queue.senderOpen = false := by
  rcases st.queue with ⟨b, _, st⟩ | ⟨_, same, _⟩
  · exact st.closed closed
  · rw [same]
    exact closed

end Potential

/-- A pool whose queue is closed. -/
structure Closing (n : Nat) (s : Pool C R) : Prop where
  closed : s.shared.queue.senderOpen = false
  roles : Roles n s
  locking : Locking s.queue
  receiver : ReceiverLock s.queue

/-- A run of the pool after `close`. -/
lemma Closing.of_run {n capacity pos gates outcomes tr} {s : Pool C R}
    (r : Run PoolStep (.start n capacity pos gates outcomes) tr s)
    (closed : s.shared.queue.senderOpen = false) : Closing n s := by
  have queue := run_queue r
  rw [queue_start] at queue
  exact ⟨closed, (Roles.start n capacity pos gates outcomes).run r,
    (Locking.start capacity pos).run queue,
    .run (Mutex.start rfl (by simp [Pc.locksReceiver])) queue⟩

/-- Closing lasts. -/
lemma Closing.step {n l} {s s' : Pool C R} (cl : Closing n s) (st : PoolStep s l s') :
    Closing n s' := by
  have queue := run_queue (.cons st .nil)
  refine ⟨?_, cl.roles.step st, cl.locking.run queue, cl.receiver.run queue⟩
  cases st with
  | act st => exact st.senderOpen cl.closed
  | env st => exact st.queue ▸ cl.closed

/-- A step of a worker outside the gates lowers the potential, as does the receiver when it takes an
outcome, and no step raises it. -/
lemma Closing.potential_le {n l} {s s' : Pool C R} (cl : Closing n s) (st : PoolStep s l s') :
    poolStep n l + potential n s' ≤ potential n s := by
  cases st with
  | env st =>
    cases st with
    | gates | dropOutcomes => simp [poolStep, potential, load, Outcomes.drop]
    | takeOutcome some =>
      simp only [poolStep, potential, load, Outcomes.take]
      omega
  | @act i a g p st =>
    simp only [poolStep, potential]
    rcases Nat.lt_or_ge i n with lt | ge
    · obtain ⟨rest, moved⟩ := sum_hold_update Pc.rank s.pc lt
      have before := moved (s.pc i)
      rw [update_eq_self] at before
      rw [moved p, before]
      rcases inside : a.inGate with _ | _
      · have less := st.rank_lt ((cl.roles i).1 lt) inside
        simp only [lt, true_and, if_true]
        omega
      · obtain ⟨same, load⟩ := st.rank_gate inside
        rw [same, load]
        simp
    · have rest : ∑ j ∈ Finset.range n, (update s.pc i p j).rank =
          ∑ j ∈ Finset.range n, (s.pc j).rank := by
        refine Finset.sum_congr rfl fun j mem => ?_
        have ne : j ≠ i := by
          have := Finset.mem_range.mp mem
          omega
        rw [update_of_ne ne]
      have le := st.load_le ((cl.roles i).2 ge) (cl.locking.sendable i) cl.closed
      simp only [Nat.not_lt.mpr ge, false_and, if_false, rest]
      omega

/-- After the queue is closed the workers take a bounded number of steps outside the gates. -/
lemma Closing.poolSteps_le {n tr} {s s' : Pool C R} (cl : Closing n s)
    (r : Run PoolStep s tr s') : poolSteps n tr + potential n s' ≤ potential n s := by
  induction r with
  | nil => simp [poolSteps]
  | cons st _ ih =>
    have first := cl.potential_le st
    have rest := ih (cl.step st)
    simp only [poolSteps, List.map_cons, List.sum_cons] at rest ⊢
    omega

section Progress

variable {c : Nat} {s : Shared C Gates} {p : Pc C R}

/-- The worker waits to send an outcome: the channel is full and its receiver is there. -/
def Pc.SendWaits (p : Pc C R) (o : Outcomes) : Prop :=
  (∃ m outcome, p = .send m outcome) ∧ o.isOpen = true ∧ o.waiting = o.capacity

/-- A worker that waits to send has no step: only the receiver can let it go on. -/
lemma Pc.SendWaits.no_step {a s' p'} (waits : p.SendWaits s.outcomes) : ¬ Local c s p a s' p' := by
  obtain ⟨⟨m, outcome, rfl⟩, isOpen, full⟩ := waits
  intro st
  cases st with
  | outcomeSent room => exact absurd full room.ne
  | outcomeRefused gone => exact absurd (isOpen.symm.trans gone) nofun

/-- A worker that has not ended, is not inside a gate and waits neither for the receiver's lock nor
to send an outcome has a step to take. -/
lemma exists_step (closed : s.queue.senderOpen = false) (worker : p.worker = true)
    (going : p.ended = false) (outside : p.inGate = false)
    (free : p = .dequeue .lockReceiver → s.queue.receiverLocked = false)
    (room : ¬ p.SendWaits s.outcomes) :
    ∃ a s' p', Local c s p a s' p' ∧ a.inGate = false := by
  cases p with
  | client => cases worker
  | dequeue p =>
    cases p with
    | idle => exact ⟨_, _, _, .dequeue .dequeue rfl, rfl⟩
    | lockReceiver => exact ⟨_, _, _, .dequeue (.lockReceiver (free rfl)) rfl, rfl⟩
    | recv =>
      cases e : s.queue.messages with
      | nil => exact ⟨_, _, _, .drained (.drained e closed), rfl⟩
      | cons m rest => exact ⟨_, _, _, .dequeue (.received e) rfl, rfl⟩
    | remove m => exact ⟨_, _, _, .dequeue .removed rfl, rfl⟩
    | unlockReceiver m => exact ⟨_, _, _, .dequeued .unlockReceiver, rfl⟩
    | _ => cases worker
  | acquire m p =>
    cases p with
    | returned ok =>
      cases ok with
      | true => exact ⟨_, _, _, .acquired, rfl⟩
      | false => exact ⟨_, _, _, .refused, rfl⟩
    | unwound => exact ⟨_, _, _, .acquirePanicked, rfl⟩
    | _ => cases outside
  | checkHalt m h =>
    cases h with
    | returned halt =>
      cases halt with
      | true => cases outside
      | false => exact ⟨_, _, _, .notHalted, rfl⟩
    | _ => cases outside
  | waitReset m w =>
    cases w with
    | returned reset =>
      cases reset with
      | true => exact ⟨_, _, _, .reset, rfl⟩
      | false => exact ⟨_, _, _, .waitCancelled, rfl⟩
    | _ => cases outside
  | call m => exact ⟨_, _, _, .called, rfl⟩
  | poll m => exact ⟨_, _, _, .resolved 0 (.error ""), rfl⟩
  | send m o =>
    rcases isOpen : s.outcomes.isOpen with _ | _
    · exact ⟨_, _, _, .outcomeRefused isOpen, rfl⟩
    · have lt := s.outcomes.le.lt_of_ne fun full => room ⟨⟨m, o, rfl⟩, isOpen, full⟩
      exact ⟨_, _, _, .outcomeSent lt isOpen, rfl⟩
  | leave => exact ⟨_, _, _, .exited, rfl⟩
  | exited => cases going
  | dead => cases going

end Progress

/-- Producers do not take the receiver's lock. -/
lemma Pc.producer.outside {p : Pc C R} (h : p.producer = true) :
    p.queue.locksReceiver = false := by
  cases p with
  | client p => cases p <;> first | rfl | cases h
  | _ => cases h

/-- The worker can go on: it is inside a gate, has a step to take outside the gates, or waits to
send, and the receiver can take an outcome. -/
def Proceeds (s : Pool C R) (i : Nat) : Prop :=
  (s.pc i).inGate = true ∨ (∃ a s', PoolStep s (.act i a) s' ∧ a.inGate = false) ∨
  ((s.pc i).SendWaits s.shared.outcomes ∧ ∃ s', PoolStep s (.env .takeOutcome) s')

/-- The receiver can take from a full channel. -/
lemma Pc.SendWaits.exists_take {s : Pool C R} {i : Nat}
    (waits : (s.pc i).SendWaits s.shared.outcomes) : ∃ s', PoolStep s (.env .takeOutcome) s' := by
  obtain ⟨-, -, full⟩ := waits
  exact ⟨_, .env (.takeOutcome (full ▸ s.shared.outcomes.pos))⟩

/-- Until the pool has returned one of its workers can go on. -/
lemma Closing.can_proceed {n} {s : Pool C R} (cl : Closing n s) :
    Returned n s ∨ ∃ i < n, Proceeds s i := by
  have proceeds : ∀ i < n, (s.pc i).ended = false →
      (s.pc i = .dequeue .lockReceiver → s.shared.queue.receiverLocked = false) →
      Proceeds s i := by
    intro i lt going free
    rcases Classical.em ((s.pc i).SendWaits s.shared.outcomes) with waits | room
    · exact .inr (.inr ⟨waits, waits.exists_take⟩)
    · rcases outside : (s.pc i).inGate with _ | _
      · obtain ⟨a, g, p, st, outside'⟩ :=
          exists_step (c := i) cl.closed ((cl.roles i).1 lt) going outside free room
        exact .inr (.inl ⟨a, _, .act st, outside'⟩)
      · exact .inl outside
  rcases Classical.em (Returned n s) with returned | notYet
  · exact .inl returned
  · right
    simp only [Returned, not_forall, Bool.not_eq_true] at notYet
    obtain ⟨i, lt, going⟩ := notYet
    rcases locked : s.shared.queue.receiverLocked with _ | _
    · exact ⟨i, lt, proceeds i lt going fun _ => locked⟩
    · -- the lock is held by a worker, and that one can go on
      obtain ⟨j, inside⟩ := cl.receiver.held.mp locked
      change (s.pc j).queue.locksReceiver = true at inside
      have worker : j < n := by
        by_contra ge
        rw [Pc.producer.outside ((cl.roles j).2 (Nat.not_lt.mp ge))] at inside
        cases inside
      refine ⟨j, worker, proceeds j worker ?_ fun at' => ?_⟩
      · cases at' : s.pc j <;> rw [at'] at inside <;> first | rfl | cases inside
      · rw [at'] at inside
        cases inside

/-- Every accepted job yields exactly one outcome, unless its future panics while polled. For any
number of workers and any channel of outcomes, on any run in which the gates admit and the receiver
of outcomes is not dropped:

* after the queue is closed the workers take a bounded number of steps outside the gates and the
  receiver a bounded number of outcomes, and until the pool has returned one of the workers has such
  a step to take, is inside a gate, or waits to send, and then the receiver can take an outcome;
* a worker that waits to send has no step itself, so that the receiver must take outcomes for the
  pool to return;
* when the pool has returned, exactly one outcome was sent for every accepted job, about this job
  and with panics as failures, if and only if no future has panicked while it was polled. -/
theorem delivered_iff_noPollPanic {n capacity : Nat} {pos : 0 < capacity} {gates : Gates}
    {outcomes : Outcomes} {tr : Trace C R} {s : Pool C R} (workers : 0 < n)
    (r : Run PoolStep (.start n capacity pos gates outcomes) tr s) (admits : Admits tr) :
    (s.shared.queue.senderOpen = false →
      (∀ tr' s', Run PoolStep s tr' s' → poolSteps n tr' ≤ potential n s) ∧
      (Returned n s ∨ ∃ i < n, Proceeds s i)) ∧
    (∀ i a s', (s.pc i).SendWaits s.shared.outcomes → ¬ PoolStep s (.act i a) s') ∧
    (Returned n s → (Delivered tr ↔ NoPollPanic tr)) := by
  refine ⟨?_, ?_, ?_⟩
  · intro closed
    have closing := Closing.of_run r closed
    refine ⟨fun tr' s' r' => ?_, closing.can_proceed⟩
    have le := closing.poolSteps_le r'
    omega
  · rintro i a s' waits ⟨⟩
    exact waits.no_step ‹_›
  · intro returned
    exact ⟨noPollPanic_of_delivered r returned, delivered_of_noPollPanic r workers returned admits⟩

section Concrete

/-- The gates of the concrete runs: a budget of one call and no rate limit. -/
def oneCall : Gates := ⟨.new .min, .withThresholds 0, false⟩

/-- The message of the concrete runs, from producer 1. -/
def refreshed : Message Unit := ⟨1, { refresh with enqueuedAt := some 0 }⟩

/-- The shared state after the message is sent. -/
def withJob : Shared Unit Gates where
  queue := { Queue.new Unit 1 Nat.one_pos with
    messages := [refreshed]
    pending := insert "refresh" ∅
    insertedBy := update (fun _ => 0) "refresh" 1 }
  gates := oneCall
  outcomes := .new 1 Nat.one_pos

/-- The shared state after the queue is closed. -/
def closed : Shared Unit Gates :=
  { withJob with queue := { withJob.queue with senderOpen := false } }

/-- The shared state after the message is received and its call paid for. -/
def paid : Shared Unit Gates where
  queue := { closed.queue with
    messages := []
    pending := (insert "refresh" ∅ : Finset DomainKey).erase "refresh" }
  gates := { oneCall with budget := { oneCall.budget with calls := 1, totalCalls := 1 } }
  outcomes := .new 1 Nat.one_pos

/-- The points of the threads while the worker is at `p`: producer 1 has enqueued the job and
producer 2 has closed the queue. -/
def pcs (p : Pc Unit Unit) : Nat → Pc Unit Unit :=
  update (update (update
    (Pool.start 1 1 Nat.one_pos oneCall (.new 1 Nat.one_pos)).pc 1 (.client (.returned .accepted)))
    2 (.client .idle)) 0 p

/-- A producer enqueues a job, another closes the queue, and the worker takes the job to its
executor. -/
lemma run_to_call : ∃ tr : Trace Unit Unit,
    Run PoolStep (.start 1 1 Nat.one_pos oneCall (.new 1 Nat.one_pos)) tr
      ⟨paid, pcs (.call refreshed)⟩ ∧
    collect Event.turnedAway tr = [] ∧ collect Event.panicked tr = [] ∧
    outcomesIn tr = [] ∧ acceptedIn tr = [refreshed] := by
  have enqueues : Run (Solo (Local (R := Unit)) 1)
      (⟨.new Unit 1 Nat.one_pos, oneCall, .new 1 Nat.one_pos⟩, .client .idle) _
      (withJob, .client (.returned .accepted)) :=
    solo_cons (.client (.enqueue refresh) rfl) <|
    solo_cons (.client (.inserted (Finset.notMem_empty _)) rfl) <|
    solo_cons (.client (.stamped 0) rfl) <|
    solo_cons (.client (.lockSender rfl) rfl) <|
    solo_cons (.client (.senderFound rfl) rfl) <|
    solo_cons (.client (.sent rfl Nat.one_pos) rfl) <|
    solo_cons (.client .unlockSender rfl) .nil
  have closes : Run (Solo (Local (R := Unit)) 2)
      (withJob, .client .idle) _ (closed, .client .idle) :=
    solo_cons (.client .close rfl) <|
    solo_cons (.client (.lockToClose rfl) rfl) <|
    solo_cons (.client .take rfl) <|
    solo_cons (.client .unlockClosed rfl) .nil
  have takes : Run (Solo (Local (R := Unit)) 0)
      (closed, .dequeue .idle) _ (paid, .call refreshed) :=
    solo_cons (.dequeue .dequeue rfl) <|
    solo_cons (.dequeue (.lockReceiver rfl) rfl) <|
    solo_cons (.dequeue (.received rfl) rfl) <|
    solo_cons (.dequeue .removed rfl) <|
    solo_cons (.dequeued .unlockReceiver) <|
    solo_cons (.acquire (.step .loadLimit rfl (by rintro ⟨⟩))) <|
    solo_cons (.acquire (.step (.below Nat.one_pos) rfl (by rintro ⟨⟩))) <|
    solo_cons (.acquire (.step (.grant rfl) rfl (by rintro ⟨⟩))) <|
    solo_cons (.acquire (.step .count rfl (by rintro ⟨⟩))) <|
    solo_cons .acquired <|
    solo_cons (.checkHalt rfl) <|
    solo_cons .notHalted .nil
  exact ⟨_, (solo_run enqueues rfl rfl).append
    ((solo_run closes rfl rfl).append (solo_run takes rfl rfl)), rfl, rfl, rfl, rfl⟩

/-- One worker has ended. -/
lemma returned_one {s : Pool C R} (ended : (s.pc 0).ended = true) : Returned 1 s := by
  intro i lt
  cases Nat.lt_one_iff.mp lt
  exact ended

/-- The call of the job's executor panics: the panic is delivered as a failure, and the worker finds
the queue drained. -/
theorem delivered_call_panic : ∃ (tr : Trace Unit Unit) (s : Pool Unit Unit),
    Run PoolStep (.start 1 1 Nat.one_pos oneCall (.new 1 Nat.one_pos)) tr s ∧ Returned 1 s ∧
    Delivered tr ∧
    (outcomesIn tr).map (fun x => (x.1, x.2.isFailure)) = [(refreshed, true)] := by
  obtain ⟨tr, r, admits, quiet, none, accepted⟩ := run_to_call
  have ends : Run (Solo (Local (R := Unit)) 0) (paid, .call refreshed) _ (_, .exited) :=
    solo_cons (.callPanicked 0) <|
    solo_cons (.outcomeSent Nat.one_pos rfl) <|
    solo_cons (.dequeue .dequeue rfl) <|
    solo_cons (.dequeue (.lockReceiver rfl) rfl) <|
    solo_cons (.drained (.drained rfl rfl)) <|
    solo_cons .exited .nil
  have all := r.append (solo_run ends rfl rfl)
  refine ⟨_, _, all, returned_one rfl, ?_, ?_⟩
  · refine ((delivered_iff_noPollPanic Nat.one_pos all ?_).2.2 (returned_one rfl)).mpr ?_
    · rw [admits_iff, collect_append, admits]
      rfl
    · rw [noPollPanic_iff, collect_append, quiet]
      rfl
  · rw [outcomesIn, collect_append, ← outcomesIn, none]
    rfl

/-- The future of the job panics while it is polled: the worker is gone, the pool returns, and the
accepted job has no outcome. -/
theorem poll_panic_undelivered : ∃ (tr : Trace Unit Unit) (s : Pool Unit Unit),
    Run PoolStep (.start 1 1 Nat.one_pos oneCall (.new 1 Nat.one_pos)) tr s ∧ Admits tr ∧
    s.shared.queue.senderOpen = false ∧ Returned 1 s ∧ acceptedIn tr = [refreshed] ∧
    outcomesIn tr = [] := by
  obtain ⟨tr, r, admits, quiet, none, accepted⟩ := run_to_call
  have ends : Run (Solo (Local (R := Unit)) 0) (paid, .call refreshed) _ (paid, .dead) :=
    solo_cons .called <|
    solo_cons .pollPanicked .nil
  refine ⟨_, _, r.append (solo_run ends rfl rfl), ?_, rfl, returned_one rfl, ?_, ?_⟩
  · rw [admits_iff, collect_append, admits]
    rfl
  · rw [acceptedIn, onQueue, List.filterMap_append, sentIn, collect_append]
    exact congrArg (· ++ _) accepted
  · rw [outcomesIn, collect_append, ← outcomesIn, none]
    rfl

end Concrete

end CherryPit.WorkerPool.Legacy
