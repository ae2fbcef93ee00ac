import CherryPit.Conc.Ledger
import CherryPit.WorkerPool.Legacy

/-!
# One outcome per accepted job

Every job that is received is in the hands of one worker until its outcome is sent or it is lost
(`Local.balance`). A worker loses its job when a gate turns it away, when the receiver of outcomes
is gone, or when the job's future panics while it is polled. With gates that admit and a receiver
that stays, the last is the only way, and it costs the worker as well:
`delivered_iff_no_pollPanicked`.

After the queue is closed the pool is bound to return: each step of a worker outside the gates
lowers a potential (`workerSteps_le`), and one is possible until all workers have ended, unless a
worker is inside a gate (`can_proceed`).
-/

namespace CherryPit.WorkerPool.Legacy

open Conc Threads WorkQueue

variable {C R : Type}

/-- The labels of a run of a pool. -/
abbrev Trace (C R : Type) := List (Label (Event C R) (PoolEnv GatesEnv))

section Hands

/-- The job that a thread has received and not disposed of. -/
def Pc.holds : Pc C R → Multiset (Message C)
  | .dequeue (.remove m) | .dequeue (.unlockReceiver m) => {m}
  | .acquire m _ | .checkHalt m _ | .waitReset m _ | .call m | .poll m | .send m _ => {m}
  | _ => 0

/-- The job that a step receives from the queue. -/
def Event.received (a : Event C R) : Option (Message C) := a.onQueue.bind Event.receivedMessage

/-- The outcome that a step sends, with its job. -/
def Event.delivered : Event C R → Option (Message C × JobOutcome R)
  | .work (.outcomeSent m o) => some (m, o)
  | _ => none

/-- A gate has turned the worker away, or nobody takes its outcome. -/
def Event.turnedAway : Event C R → Option (Message C)
  | .acquired m false | .acquirePanicked m | .rateChecked m false => some m
  | .work (.outcomeRefused m _) => some m
  | _ => none

/-- The future of a job has panicked while it was polled. -/
def Event.panicked : Event C R → Option (Message C)
  | .work (.pollPanicked m) => some m
  | _ => none

/-- The outcomes sent in a run, with their jobs. -/
def outcomesIn (tr : Trace C R) : List (Message C × JobOutcome R) :=
  collect Event.delivered tr

/-- What a step does with the job of its worker. -/
lemma Local.balance {c a} {s s' : Shared C Gates} {p p' : Pc C R} (st : Local c s p a s' p') :
    (a.received.toList : Multiset (Message C)) + p.holds =
      ((a.delivered.map Prod.fst).toList + a.turnedAway.toList + a.panicked.toList) + p'.holds := by
  cases st with
  | client st producer => cases st <;> first | rfl | cases producer
  | dequeue st dequeues => cases st <;> first | rfl | cases dequeues
  | dequeued st | drained st =>
    cases st
    rfl
  | _ => rfl

end Hands

section Roles

/-- The points of a call of `dequeue`. -/
def dequeuing : WorkQueue.Pc C → Bool
  | .idle | .lockReceiver | .recv | .remove _ | .unlockReceiver _ => true
  | _ => false

/-- The points of the other calls of the queue. -/
def producing : WorkQueue.Pc C → Bool
  | .lockReceiver | .recv | .remove _ | .unlockReceiver _ => false
  | _ => true

/-- The points of a worker. -/
def Pc.worker : Pc C R → Bool
  | .client _ => false
  | .dequeue p => dequeuing p
  | _ => true

/-- The points of a producer. -/
def Pc.producer : Pc C R → Bool
  | .client p => producing p
  | _ => false

/-- Workers stay workers and producers stay producers. -/
lemma Local.role {c a} {s s' : Shared C Gates} {p p' : Pc C R} (st : Local c s p a s' p') :
    (p.worker = true → p'.worker = true) ∧ (p.producer = true → p'.producer = true) := by
  cases st with
  | client st producer =>
    refine ⟨nofun, fun _ => ?_⟩
    cases st <;> first | rfl | cases producer
  | dequeue st dequeues =>
    refine ⟨fun _ => ?_, nofun⟩
    cases st <;> first | rfl | cases dequeues
  | _ => exact ⟨fun _ => rfl, nofun⟩

/-- The threads below `workerCount` are workers, the others producers. -/
def Roles (workerCount : Nat) (s : Pool C R) : Prop :=
  ∀ i, (i < workerCount → (s.pc i).worker = true) ∧ (workerCount ≤ i → (s.pc i).producer = true)

/-- Rust `run_worker_pool` spawns `worker_count` workers. -/
lemma Roles.start (workerCount capacity : Nat) (pos : 0 < capacity) (gates : Gates)
    (outcomes : Outcomes) :
    Roles workerCount (.start workerCount capacity pos gates outcomes : Pool C R) := by
  intro i
  constructor
  · intro lt
    simp only [Pool.start, lt, if_true]
    rfl
  · intro ge
    simp only [Pool.start, Nat.not_lt.mpr ge, if_false]
    rfl

/-- No step changes the roles. -/
lemma Roles.step {n l} {s s' : Pool C R} (roles : Roles n s) (st : PoolStep s l s') :
    Roles n s' := by
  intro j
  cases st with
  | env st => exact roles j
  | @act i a g p st =>
    rcases eq_or_ne j i with rfl | ne
    · simp only [Function.update_self]
      exact ⟨fun lt => st.role.1 ((roles j).1 lt), fun ge => st.role.2 ((roles j).2 ge)⟩
    · simp only [Function.update_of_ne ne]
      exact roles j

/-- Roles last. -/
lemma Roles.run {n tr} {s s' : Pool C R} (roles : Roles n s) (r : Run PoolStep s tr s') :
    Roles n s' :=
  r.invariant (fun roles st => roles.step st) roles

/-- Once the pool has returned nobody has a job. -/
lemma Roles.holds {n} {s : Pool C R} (roles : Roles n s) (returned : Returned n s) (i : Nat) :
    (s.pc i).holds = 0 := by
  rcases Nat.lt_or_ge i n with lt | ge
  · have ended := returned i lt
    cases at' : s.pc i <;> rw [at'] at ended <;> first | rfl | cases ended
  · have producer := (roles i).2 ge
    cases at' : s.pc i <;> rw [at'] at producer <;> first | rfl | cases producer

end Roles

section History

/-- The outcome carries the key, the source and the correlation of the job. -/
def About (m : Message C) (o : JobOutcome R) : Prop :=
  o.domainKey = m.job.domainKey ∧ o.source = m.job.source ∧ o.correlation = m.job.correlation

/-- The outcome of a job is about it. -/
lemma about_outcomeOf (m : Message C) (duration : Duration) (result : Except String R) :
    About m (outcomeOf m.job duration result) := by
  cases result <;> exact ⟨rfl, rfl, rfl⟩

/-- The worker has left its loop. -/
def Pc.left : Pc C R → Bool
  | .leave | .exited | .dead => true
  | _ => false

section Inversion

variable {c : Nat} {a : Event C R} {s s' : Shared C Gates} {p p' : Pc C R} {m : Message C}
  {o : JobOutcome R}

/-- What a worker is to send is about its job. -/
lemma Local.to_send (st : Local c s p a s' (.send m o)) : About m o := by
  cases st with
  | callPanicked => exact about_outcomeOf ..
  | resolved => exact about_outcomeOf ..

/-- A worker sends its outcome or finds the receiver gone. -/
lemma Local.of_send (st : Local c s (.send m o) a s' p') :
    a = .work (.outcomeSent m o) ∨ a.turnedAway ≠ none := by
  cases st with
  | outcomeSent => exact .inl rfl
  | outcomeRefused => exact .inr (by simp [Event.turnedAway])

/-- The outcome that is sent is the one at hand. -/
lemma Local.of_outcomeSent (st : Local c s p (.work (.outcomeSent m o)) s' p') : p = .send m o := by
  cases st with
  | outcomeSent => rfl

/-- A panic of `execute` becomes a failure. -/
lemma Local.of_callPanicked (st : Local c s p (.work (.callPanicked m)) s' p') :
    ∃ o, p' = .send m o ∧ o.isFailure = true := by
  cases st with
  | callPanicked => exact ⟨_, rfl, rfl⟩

/-- A worker leaves its loop because the queue is drained or its job is lost. -/
lemma Local.leaves (st : Local c s p a s' p') (h : p'.left = true) :
    p.left = true ∨ a = .queue (.dequeued none) ∨ a.turnedAway ≠ none ∨ a.panicked ≠ none := by
  cases st with
  | drained => exact .inr (.inl rfl)
  | refused | acquirePanicked | waitCancelled | outcomeRefused =>
    exact .inr (.inr (.inl (by simp [Event.turnedAway])))
  | pollPanicked => exact .inr (.inr (.inr (by simp [Event.panicked])))
  | exited => exact .inl rfl
  | _ => cases h

end Inversion

/-- What a worker has done by the time it is at a point: outcomes are about their jobs, a panicking
call has become a failure, and the loop was left for a reason. -/
structure Did (p : Pc C R) (as : List (Event C R)) : Prop where
  sending : ∀ m o, p = .send m o → About m o
  sent : ∀ m o, .work (.outcomeSent m o) ∈ as → About m o
  callPanicked : ∀ m, .work (.callPanicked m) ∈ as →
    (∃ o, o.isFailure = true ∧ (p = .send m o ∨ .work (.outcomeSent m o) ∈ as)) ∨
    ∃ a ∈ as, a.turnedAway ≠ none
  left : p.left = true → .queue (.dequeued none) ∈ as ∨
    ∃ a ∈ as, a.turnedAway ≠ none ∨ a.panicked ≠ none

/-- At the start nothing was done. -/
lemma Did.start {p : Pc C R} (at' : p = .dequeue .idle ∨ p = .client .idle) : Did p [] where
  sending m o e := by rcases at' with rfl | rfl <;> cases e
  sent m o mem := (List.not_mem_nil mem).elim
  callPanicked m mem := (List.not_mem_nil mem).elim
  left h := by rcases at' with rfl | rfl <;> cases h

/-- One step of the thread. -/
lemma Did.keep {c a as} {s s' : Shared C Gates} {p p' : Pc C R} (st : Local c s p a s' p')
    (did : Did p as) : Did p' (as ++ [a]) where
  sending m o at' := by
    subst at'
    exact st.to_send
  sent m o mem := by
    rcases List.mem_append.mp mem with old | new
    · exact did.sent m o old
    · cases List.mem_singleton.mp new
      exact did.sending m o st.of_outcomeSent
  callPanicked m mem := by
    rcases List.mem_append.mp mem with old | new
    · rcases did.callPanicked m old with ⟨o, failure, rfl | sent⟩ | ⟨a', mem, lost⟩
      · rcases st.of_send with rfl | lost
        · exact .inl ⟨o, failure, .inr (by simp)⟩
        · exact .inr ⟨a, by simp, lost⟩
      · exact .inl ⟨o, failure, .inr (List.mem_append_left _ sent)⟩
      · exact .inr ⟨a', List.mem_append_left _ mem, lost⟩
    · cases List.mem_singleton.mp new
      obtain ⟨o, at', failure⟩ := st.of_callPanicked
      exact .inl ⟨o, failure, .inl at'⟩
  left h := by
    rcases st.leaves h with before | rfl | lost
    · rcases did.left before with drained | ⟨a', mem, lost⟩
      · exact .inl (List.mem_append_left _ drained)
      · exact .inr ⟨a', List.mem_append_left _ mem, lost⟩
    · exact .inl (by simp)
    · exact .inr ⟨a, by simp, lost⟩

variable {n capacity : Nat} {pos : 0 < capacity} {gates : Gates} {outcomes : Outcomes}
  {tr : Trace C R} {s : Pool C R}

/-- What holds of a thread and its events in a run. -/
lemma Did.run (r : Run PoolStep (.start n capacity pos gates outcomes) tr s) (i : Nat) :
    Did (s.pc i) (eventsOf i tr) := by
  refine irun_thread (J := fun _ => Did) (fun st did => did.keep st) (fun i => ?_) r i
  simp only [Pool.start]
  split
  · exact .start (.inl rfl)
  · exact .start (.inr rfl)

end History

section Delivered

variable {n capacity : Nat} {pos : 0 < capacity} {gates : Gates} {outcomes : Outcomes}
  {tr : Trace C R} {s : Pool C R}

/-- The gates let every worker pass and the receiver of outcomes takes every outcome. -/
def Admits (tr : Trace C R) : Prop := ∀ i a, .act i a ∈ tr → a.turnedAway = none

/-- No future has panicked while it was polled. -/
def NoPollPanic (tr : Trace C R) : Prop := ∀ i m, .act i (.work (.pollPanicked m)) ∉ tr

/-- Exactly one outcome was sent for every accepted job, with the key, the source and the
correlation of the job, and a panic is reported as a failure. -/
structure Delivered (tr : Trace C R) : Prop where
  once : ((outcomesIn tr).map Prod.fst : Multiset (Message C)) = acceptedIn tr
  about : ∀ x ∈ outcomesIn tr, About x.1 x.2
  panics : ∀ i m, .act i (.work (.callPanicked m)) ∈ tr ∨ .act i (.work (.pollPanicked m)) ∈ tr →
    ∃ o, (m, o) ∈ outcomesIn tr ∧ o.isFailure = true

lemma NoPollPanic.panicked (ok : NoPollPanic tr) {i a} (mem : .act i a ∈ tr) :
    a.panicked = none := by
  cases a with
  | work w =>
    cases w with
    | pollPanicked m => exact (ok i m mem).elim
    | _ => rfl
  | _ => rfl

lemma admits_iff : Admits tr ↔ collect Event.turnedAway tr = [] :=
  collect_eq_nil.symm

lemma noPollPanic_iff : NoPollPanic tr ↔ collect Event.panicked tr = [] := by
  rw [collect_eq_nil]
  refine ⟨fun ok i a mem => ok.panicked mem, fun none i m mem => ?_⟩
  cases none i _ mem

/-- Outcomes are those that workers sent. -/
lemma mem_outcomesIn {m : Message C} {o : JobOutcome R} :
    (m, o) ∈ outcomesIn tr ↔ ∃ i, .act i (.work (.outcomeSent m o)) ∈ tr := by
  rw [outcomesIn, mem_collect]
  constructor
  · rintro ⟨i, a, mem, e⟩
    cases a with
    | work w =>
      cases w with
      | outcomeSent m' o' =>
        cases e
        exact ⟨i, mem⟩
      | _ => cases e
    | _ => cases e
  · rintro ⟨i, mem⟩
    exact ⟨i, _, mem, rfl⟩

section Run

variable (r : Run PoolStep (.start n capacity pos gates outcomes) tr s)

include r

/-- Once the pool has returned, what was received was delivered or lost. -/
lemma received_eq (returned : Returned n s) :
    (receivedIn (onQueue tr) : Multiset (Message C)) = ((outcomesIn tr).map Prod.fst +
      collect Event.turnedAway tr + collect Event.panicked tr :
        Multiset (Message C)) := by
  have ledger := run_settled Pc.holds (fun ⟨_, st⟩ => st.balance)
    (fun i => by simp only [Pool.start]; split <;> rfl) (r.mono IStep.forget)
    (((Roles.start n capacity pos gates outcomes).run r).holds returned)
  rw [total_add, total_add, total_collect, total_collect,
    total_collect, total_collect, collect_map] at ledger
  rw [receivedIn, onQueue, collect_view]
  exact ledger

/-- What was received was accepted. -/
lemma received_prefix_accepted : receivedIn (onQueue tr) <+: acceptedIn tr := by
  have queue := run_queue r
  rw [queue_start] at queue
  exact ⟨_, received_append_messages (s := .start (.new C capacity pos)) rfl queue⟩

/-- A worker that has ended without losing a job has seen the queue drained: then everything that
was accepted was received. -/
lemma received_eq_accepted {i} (admits : Admits tr) (quiet : NoPollPanic tr)
    (ended : (s.pc i).ended = true) : receivedIn (onQueue tr) = acceptedIn tr := by
  have left : (s.pc i).left = true := by
    cases at' : s.pc i <;> rw [at'] at ended <;> first | rfl | cases ended
  rcases (Did.run r i).left left with drained | ⟨a, mem, lost⟩
  · have queue := run_queue r
    rw [queue_start] at queue
    have none : .act i (.dequeued none) ∈ onQueue tr :=
      List.mem_filterMap.mpr ⟨_, mem_eventsOf.mp drained, rfl⟩
    have fifo := received_append_messages (s := .start (.new C capacity pos)) rfl queue
    rw [(drained_of_none (.start capacity pos) queue none).2, List.append_nil] at fifo
    exact fifo
  · have mem := mem_eventsOf.mp mem
    rcases lost with away | panicked
    · exact (away (admits i a mem)).elim
    · exact (panicked (quiet.panicked mem)).elim

/-- Without a panic of a future every job is delivered. -/
lemma delivered_of_noPollPanic (pos' : 0 < n) (returned : Returned n s) (admits : Admits tr)
    (quiet : NoPollPanic tr) : Delivered tr where
  once := by
    have ledger := received_eq r returned
    rw [admits_iff.mp admits, noPollPanic_iff.mp quiet,
      received_eq_accepted r admits quiet (returned 0 pos')] at ledger
    simpa using ledger.symm
  about := by
    rintro ⟨m, o⟩ mem
    obtain ⟨i, sent⟩ := mem_outcomesIn.mp mem
    exact (Did.run r i).sent m o (mem_eventsOf.mpr sent)
  panics i m panic := by
    rcases panic with call | poll
    · rcases (Did.run r i).callPanicked m (mem_eventsOf.mpr call) with
        ⟨o, failure, sending | sent⟩ | ⟨a, mem, away⟩
      · have lt : i < n := by
          by_contra ge
          have producer :=
            ((Roles.start n capacity pos gates outcomes).run r i).2 (Nat.not_lt.mp ge)
          rw [sending] at producer
          cases producer
        have ended := returned i lt
        rw [sending] at ended
        cases ended
      · exact ⟨o, mem_outcomesIn.mpr ⟨i, mem_eventsOf.mp sent⟩, failure⟩
      · exact (away (admits i a (mem_eventsOf.mp mem))).elim
    · exact (quiet i m poll).elim

/-- A job whose future panics while polled has no outcome. -/
lemma noPollPanic_of_delivered (returned : Returned n s) (delivered : Delivered tr) :
    NoPollPanic tr := by
  intro i m panic
  have received : (receivedIn (onQueue tr) : Multiset (Message C)) ≤ acceptedIn tr :=
    Multiset.coe_le.mpr (received_prefix_accepted r).sublist.subperm
  rw [received_eq r returned, ← delivered.once, add_assoc] at received
  have lost : collect Event.turnedAway tr + collect Event.panicked tr =
      (0 : Multiset (Message C)) :=
    Multiset.le_zero.mp ((add_le_iff_nonpos_right _).mp received)
  have mem : m ∈ collect Event.panicked tr :=
    mem_collect.mpr ⟨i, _, panic, rfl⟩
  have : m ∈ (0 : Multiset (Message C)) := by
    rw [← lost]
    exact Multiset.mem_add.mpr (.inr mem)
  exact Multiset.notMem_zero m this

end Run

end Delivered

end CherryPit.WorkerPool.Legacy
