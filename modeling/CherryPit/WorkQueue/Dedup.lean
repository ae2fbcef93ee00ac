import CherryPit.Conc.Ledger
import CherryPit.WorkQueue.Fifo

/-!
# What a deduplicated job can rely on

`enqueue` returns `Deduplicated` when the key is in the dedup set. The key may be there on behalf of
a call that has not sent its job yet, and that call may still find the queue full or closed, roll
its insertion back and return `QueueFull`: then neither job is queued (`deduplicated_then_refused`).
`covered_iff_willAccept` says exactly when the matched call is sure to queue its job.
-/

namespace CherryPit.WorkQueue

open Conc Threads Function

variable {C : Type} {s s' : System C} {tr : List (Label (Event C) Empty)}

section Hands

/-- The message a `dequeue` has received and not yet returned. -/
def Pc.inHand : Pc C → Option (Message C)
  | .remove m | .unlockReceiver m => some m
  | _ => none

/-- The message that a `dequeue` returns. -/
def Event.returnedMessage : Event C → Option (Message C)
  | .dequeued m => m
  | _ => none

/-- A `dequeue` returns what it has received. -/
lemma Local.hands {c q p a q'} {p' : Pc C} (st : Local c q p a q' p') :
    (a.receivedMessage.toList + p.inHand.toList : Multiset (Message C)) =
      a.returnedMessage.toList + p'.inHand.toList := by
  cases st <;> rfl

/-- A message returned or in hand was received, once for each time. -/
lemma returned_add_inHand_le {q : Queue C} (r : Run QueueStep (.start q) tr s) (i : Nat) :
    (collect Event.returnedMessage tr + (s.pc i).inHand.toList : Multiset (Message C)) ≤
      receivedIn tr := by
  have ledger := run_ledger_le (fun p => (p.inHand.toList : Multiset (Message C)))
    (fun ⟨_, st⟩ => st.hands) (fun _ => rfl) (r.mono IStep.forget) i
  rwa [total_collect, total_collect] at ledger

end Hands

section Owner

/-- The job that a call has inserted and neither sent nor rolled back. -/
def Pc.job : Pc C → Option (JobSpec C)
  | .stamp job | .lockSender job | .checkSender job | .trySend job | .rollback job => some job
  | _ => none

variable {c : Nat} {q q' : Queue C} {p p' : Pc C} {a : Event C}

lemma Pc.holds_eq_some {k} : p.holds = some k ↔
    (∃ job, p.job = some job ∧ job.domainKey = k) ∨ ∃ m, p = .remove m ∧ m.key = k := by
  cases p <;> simp [Pc.holds, Pc.job]

/-- The record of a key that is in the set stays. -/
lemma Local.insertedBy_eq {k} (st : Local c q p a q' p') (mem : k ∈ q.pending) :
    q'.insertedBy k = q.insertedBy k := by
  cases st with
  | @inserted job fresh =>
    refine update_of_ne ?_ ..
    rintro rfl
    exact fresh mem
  | _ => rfl

lemma Local.job {job} (st : Local c q p a q' p') (h : p'.job = some job) :
    q'.insertedBy job.domainKey = c ∨
    ∃ job0, p.job = some job0 ∧ job0.domainKey = job.domainKey := by
  cases st with
  | inserted =>
    cases h
    exact .inl (update_self ..)
  | stamped | lockSender | senderFound | senderGone | sendFull | sendClosed =>
    cases h
    exact .inr ⟨_, rfl, rfl⟩
  | _ => cases h

lemma Local.remove {m} (st : Local c q p a q' (.remove m)) : m ∈ q.messages := by
  cases st with
  | received e =>
    rw [e]
    exact List.mem_cons_self

lemma Local.mem_messages {m} (st : Local c q p a q' p') (mem : m ∈ q'.messages) :
    m ∈ q.messages ∨ (p = .trySend m.job ∧ m.call = c) := by
  cases st with
  | sent =>
    rcases List.mem_append.mp mem with old | new
    · exact .inl old
    · cases List.mem_singleton.mp new
      exact .inr ⟨rfl, rfl⟩
  | received e =>
    rw [e]
    exact .inl (List.mem_cons_of_mem _ mem)
  | _ => exact .inl mem

/-- The record of a key names the call whose job it stands for. -/
structure Owned (s : System C) : Prop where
  message : ∀ m ∈ s.shared.messages, s.shared.insertedBy m.key = m.call
  received : ∀ i m, s.pc i = .remove m → s.shared.insertedBy m.key = m.call
  inFlight : ∀ i job, (s.pc i).job = some job → s.shared.insertedBy job.domainKey = i

lemma Owned.start (q : Queue C) (empty : q.messages = []) : Owned (.start q) where
  message m mem := by
    rw [show (System.start q).shared.messages = [] from empty] at mem
    cases mem
  received i m at' := by cases at'
  inFlight i job h := by cases h

/-- The keys of messages and calls are in the set, so a step keeps their records. -/
lemma Owned.step {l} (ow : Owned s) (ag : Agrees s) (st : QueueStep s l s') : Owned s' := by
  cases st with
  | env no => exact no.elim
  | @act i a q p st =>
    have message : ∀ m ∈ s.shared.messages, q.insertedBy m.key = m.call := by
      intro m mem
      rw [st.insertedBy_eq (ag.pending _ (List.mem_map_of_mem mem)), ow.message m mem]
    have inFlight : ∀ j job, (s.pc j).job = some job → q.insertedBy job.domainKey = j := by
      intro j job h
      have held := ag.held (Pc.holds_eq_some.mpr (.inl ⟨job, h, rfl⟩))
      rw [st.insertedBy_eq held.1, ow.inFlight j job h]
    refine ⟨fun m mem => ?_, fun j m at' => ?_, fun j job h => ?_⟩
    · rcases st.mem_messages mem with old | ⟨at', rfl⟩
      · exact message m old
      · exact inFlight _ m.job (by rw [at']; rfl)
    · rcases eq_or_ne j i with rfl | ne
      · simp only [update_self] at at'
        subst at'
        exact message m st.remove
      · simp only [update_of_ne ne] at at'
        have held := ag.held (Pc.holds_eq_some.mpr (.inr ⟨m, at', rfl⟩))
        rw [st.insertedBy_eq held.1, ow.received j m at']
    · rcases eq_or_ne j i with rfl | ne
      · simp only [update_self] at h
        rcases st.job h with new | ⟨job0, h0, same⟩
        · exact new
        · rw [← same]
          exact inFlight j job0 h0
      · simp only [update_of_ne ne] at h
        exact inFlight j job h

/-- What is kept along a run: the set, the lock and the records. -/
structure Inv (s : System C) : Prop where
  agrees : Agrees s
  locking : Locking s
  owned : Owned s

lemma Inv.start (capacity : Nat) (pos : 0 < capacity) : Inv (.start (.new C capacity pos)) :=
  ⟨.start capacity pos, .start capacity pos, .start _ rfl⟩

lemma Inv.run (inv : Inv s) (r : Run QueueStep s tr s') : Inv s' := by
  refine r.invariant (fun inv st => ?_) inv
  exact ⟨inv.agrees.run (.cons st .nil), inv.locking.step st, inv.owned.step inv.agrees st⟩

/-- A key of the set stands for a job in the channel, for one that a `dequeue` is about to remove
from the set, or for one that its call has not sent yet. -/
lemma Inv.entry {k} (inv : Inv s) (mem : k ∈ s.shared.pending) :
    (∃ m ∈ s.shared.messages, m.call = s.shared.insertedBy k) ∨
    (∃ i m, s.pc i = .remove m ∧ m.call = s.shared.insertedBy k) ∨
    ∃ job, (s.pc (s.shared.insertedBy k)).job = some job ∧ job.domainKey = k := by
  by_cases queued : k ∈ s.shared.keys
  · obtain ⟨m, sent, rfl⟩ := List.mem_map.mp queued
    exact .inl ⟨m, sent, (inv.owned.message m sent).symm⟩
  · obtain ⟨i, h⟩ := (inv.agrees.tokens.held k).mp (by simp [Queue.available, mem, queued])
    rcases Pc.holds_eq_some.mp h with ⟨job, mine, rfl⟩ | ⟨m, at', rfl⟩
    · rw [inv.owned.inFlight i job mine]
      exact .inr (.inr ⟨job, mine, rfl⟩)
    · exact .inr (.inl ⟨i, m, at', (inv.owned.received i m at').symm⟩)

end Owner

section Matched

variable {capacity : Nat} {pos : 0 < capacity}
  (r : Run QueueStep (.start (.new C capacity pos)) tr s)

include r

lemma accepted_of_received {m} (mem : m ∈ receivedIn tr) : (s.pc m.call).accepted = true := by
  have fifo := received_append_messages (s := .start (.new C capacity pos)) rfl r
  have sent : m ∈ sentIn tr := fifo ▸ List.mem_append_left _ mem
  exact ((SentOnce.run r).accepted m.call).mp (List.mem_map_of_mem sent)

lemma accepted_of_message {m} (mem : m ∈ s.shared.messages) : (s.pc m.call).accepted = true := by
  have fifo := received_append_messages (s := .start (.new C capacity pos)) rfl r
  have sent : m ∈ sentIn tr := fifo ▸ List.mem_append_right _ mem
  exact ((SentOnce.run r).accepted m.call).mp (List.mem_map_of_mem sent)

lemma received_of_inHand {i m} (h : (s.pc i).inHand = some m) : m ∈ receivedIn tr := by
  have le := returned_add_inHand_le r i
  rw [h] at le
  exact Multiset.mem_coe.mp (Multiset.mem_of_le le (by simp))

/-- The call that a duplicate is matched against has sent its job, or is under way with it. -/
lemma accepted_or_job {k} (mem : k ∈ s.shared.pending) :
    (s.pc (s.shared.insertedBy k)).accepted = true ∨
    ∃ job, (s.pc (s.shared.insertedBy k)).job = some job ∧ job.domainKey = k := by
  rcases ((Inv.start capacity pos).run r).entry mem with ⟨m, sent, e⟩ | ⟨i, m, at', e⟩ | inFlight
  · exact .inl (e ▸ accepted_of_message r sent)
  · exact .inl (e ▸ accepted_of_received r (received_of_inHand r (by rw [at']; rfl)))
  · exact .inr inFlight

/-- A job that a `dequeue` has returned is not the one that a key of the set stands for. -/
lemma not_returned {k i m} (mem : k ∈ s.shared.pending)
    (returned : .act i (.dequeued (some m)) ∈ tr) : m.call ≠ s.shared.insertedBy k := by
  intro same
  have back : m ∈ collect Event.returnedMessage tr :=
    mem_collect.mpr ⟨i, _, returned, rfl⟩
  have received : m ∈ receivedIn tr :=
    Multiset.mem_coe.mp (Multiset.mem_of_le (returned_add_inHand_le r 0) (by simp [back]))
  have fifo := received_append_messages (s := .start (.new C capacity pos)) rfl r
  have once := (SentOnce.run r).nodup
  rw [← fifo, List.map_append, List.nodup_append] at once
  obtain ⟨once, -, apart⟩ := once
  rcases ((Inv.start capacity pos).run r).entry mem with
    ⟨m', sent, e⟩ | ⟨j, m', at', e⟩ | ⟨job, h, -⟩
  · exact apart _ (List.mem_map_of_mem received) _ (List.mem_map_of_mem sent) (same.trans e.symm)
  · -- one call cannot have been returned and be in hand
    have le := Multiset.map_le_map (f := Message.call) (returned_add_inHand_le r j)
    have nodup := Multiset.nodup_of_le le (by simpa using once)
    rw [at', Multiset.map_add] at nodup
    have apart := (Multiset.nodup_add.mp nodup).2.2
    refine Multiset.disjoint_left.mp apart (Multiset.mem_map_of_mem _ back) ?_
    simp [Pc.inHand, same, e]
  · have acc := accepted_of_received r received
    rw [same] at acc
    cases at' : s.pc (s.shared.insertedBy k) <;> rw [at'] at h acc <;> cases h <;> cases acc

end Matched

section WillAccept

variable {c : Nat} {q q' : Queue C} {p p' : Pc C} {a : Event C}

/-- The send of a call at `p` cannot fail any more: its job is sent, or the call is inside the
sender's lock of an open queue with a free slot. -/
def Queue.willAccept (q : Queue C) : Pc C → Bool
  | .checkSender _ => q.senderOpen && q.hasRoom
  | .trySend _ => q.hasRoom
  | .unlockSender r | .returned r => decide (r = .accepted)
  | _ => false

lemma Pc.accepted.willAccept (h : p.accepted = true) : q.willAccept p = true := by
  cases p <;> first | exact h | cases h

lemma Queue.hasRoom_iff :
    q.hasRoom = true ↔ q.receiverOpen = true ∧ q.messages.length < q.capacity := by
  simp [Queue.hasRoom]

lemma Local.willAccept (st : Local c q p a q' p') (h : q.willAccept p = true) :
    q'.willAccept p' = true := by
  cases st with
  | senderFound isOpen =>
    simp only [Queue.willAccept, isOpen, Bool.true_and] at h
    exact h
  | senderGone closed => simp [Queue.willAccept, closed] at h
  | sent => rfl
  | sendFull _ full => exact absurd (Queue.hasRoom_iff.mp h).2 (Nat.not_lt.mpr full)
  | sendClosed closed => simp [Queue.willAccept, Queue.hasRoom, closed] at h
  | unlockSender => exact h
  | _ => cases h

/-- Outside the sender's lock a step neither closes the queue nor fills it. -/
lemma Local.outside (st : Local c q p a q' p') (out : p.locksSender = false) :
    q'.senderOpen = q.senderOpen ∧ (q.hasRoom = true → q'.hasRoom = true) := by
  cases st with
  | sent => cases out
  | take => cases out
  | received e =>
    refine ⟨rfl, fun room => ?_⟩
    rw [Queue.hasRoom_iff, e, List.length_cons] at room
    exact Queue.hasRoom_iff.mpr ⟨room.1, Nat.lt_of_succ_lt room.2⟩
  | _ => exact ⟨rfl, id⟩

/-- What a call has secured under the lock, the others cannot take from it. -/
lemma Local.willAccept_other {p0 : Pc C} (st : Local c q p a q' p')
    (apart : p0.locksSender = true → p.locksSender = false) (h : q.willAccept p0 = true) :
    q'.willAccept p0 = true := by
  cases p0 with
  | checkSender job =>
    obtain ⟨same, room⟩ := st.outside (apart rfl)
    simp only [Queue.willAccept, Bool.and_eq_true] at h ⊢
    exact ⟨same.trans h.1, room h.2⟩
  | trySend job => exact (st.outside (apart rfl)).2 h
  | unlockSender r => exact h
  | returned r => exact h
  | _ => cases h

lemma willAccept_run (inv : Inv s) (r : Run QueueStep s tr s')
    (h : s.shared.willAccept (s.pc c) = true) : s'.shared.willAccept (s'.pc c) = true := by
  have both : Inv s' ∧ s'.shared.willAccept (s'.pc c) = true := by
    refine r.invariant (I := fun s => Inv s ∧ s.shared.willAccept (s.pc c) = true) ?_ ⟨inv, h⟩
    rintro s l s' ⟨inv, h⟩ st
    refine ⟨inv.run (.cons st .nil), ?_⟩
    cases st with
    | env no => exact no.elim
    | @act i a q p st =>
      rcases eq_or_ne c i with rfl | ne
      · simpa only [update_self] using st.willAccept h
      · have apart : (s.pc c).locksSender = true → (s.pc i).locksSender = false := by
          intro inside
          simpa using inv.locking.lock.outside inside ne.symm
        simpa only [update_of_ne ne] using st.willAccept_other apart h
  exact both.2

end WillAccept

section Alone

/-- What thread `c` can do on its own. -/
abbrev Alone (c : Nat) (x y : Queue C × Pc C) : Prop :=
  ∃ as, Run (Solo Local c) x as y

variable {c : Nat} {q q' : Queue C} {p p' : Pc C} {a : Event C}

lemma Alone.step {y} (st : Local c q p a q' p') (rest : Alone c (q', p') y) : Alone c (q, p) y := by
  obtain ⟨as, r⟩ := rest
  exact ⟨a :: as, .cons st r⟩

lemma Alone.one (st : Local c q p a q' p') : Alone c (q, p) (q', p') := ⟨[a], .cons st .nil⟩

lemma Alone.run (al : Alone c (s.shared, p) (q', p')) (at' : s.pc c = p) :
    ∃ tr, Run QueueStep s tr ⟨q', update s.pc c p'⟩ := by
  obtain ⟨as, r⟩ := al
  exact ⟨_, solo_run r rfl at'⟩

/-- An `enqueue` inside the sender's lock can return at once, and how is settled. -/
lemma alone_returns (inside : p.locksSender = true) (enqueues : p ≠ .take ∧ p ≠ .unlockClosed) :
    ∃ q' r, Alone c (q, p) (q', .returned r) ∧ q'.senderLocked = false ∧
      (r = .accepted ↔ q.willAccept p = true) := by
  have rollback : ∀ {q : Queue C} job, ∃ q', Alone c (q, .rollback job) (q', .returned .queueFull) ∧
      q'.senderLocked = false :=
    fun job => ⟨_, .step .rollback (.one .unlockSender), rfl⟩
  have trySend : ∀ {q : Queue C} job, ∃ q' r, Alone c (q, .trySend job) (q', .returned r) ∧
      q'.senderLocked = false ∧ (r = .accepted ↔ q.hasRoom = true) := by
    intro q job
    rcases receiver : q.receiverOpen with _ | _
    · obtain ⟨q', al, free⟩ := rollback (q := q) job
      exact ⟨q', _, .step (.sendClosed receiver) al, free, by simp [Queue.hasRoom, receiver]⟩
    · rcases Nat.lt_or_ge q.messages.length q.capacity with room | full
      · exact ⟨_, _, .step (.sent receiver room) (.one .unlockSender), rfl,
          by simp [Queue.hasRoom, receiver, room]⟩
      · obtain ⟨q', al, free⟩ := rollback (q := q) job
        exact ⟨q', _, .step (.sendFull receiver full) al, free,
          by simp [Queue.hasRoom, receiver, Nat.not_lt.mpr full]⟩
  cases p with
  | checkSender job =>
    rcases sender : q.senderOpen with _ | _
    · obtain ⟨q', al, free⟩ := rollback (q := q) job
      exact ⟨q', _, .step (.senderGone sender) al, free, by simp [Queue.willAccept, sender]⟩
    · obtain ⟨q', r, al, free, how⟩ := trySend (q := q) job
      exact ⟨q', r, .step (.senderFound sender) al, free, by simp [Queue.willAccept, sender, how]⟩
  | trySend job => exact trySend job
  | rollback job =>
    obtain ⟨q', al, free⟩ := rollback (q := q) job
    exact ⟨q', _, al, free, by simp [Queue.willAccept]⟩
  | unlockSender r => exact ⟨_, r, .one .unlockSender, rfl, by simp [Queue.willAccept]⟩
  | take => exact absurd rfl enqueues.1
  | unlockClosed => exact absurd rfl enqueues.2
  | _ => cases inside

/-- Whoever is inside the sender's lock can leave it. -/
lemma alone_unlocks (inside : p.locksSender = true) :
    ∃ q' p', Alone c (q, p) (q', p') ∧ q'.senderLocked = false := by
  cases p with
  | take => exact ⟨_, _, .step .take (.one .unlockClosed), rfl⟩
  | unlockClosed => exact ⟨_, _, .one .unlockClosed, rfl⟩
  | checkSender | trySend | rollback | unlockSender =>
    obtain ⟨q', r, al, free, -⟩ := alone_returns (c := c) (q := q) inside ⟨by simp, by simp⟩
    exact ⟨q', _, al, free⟩
  | _ => cases inside

/-- A `close` on its own. -/
lemma alone_closes (free : q.senderLocked = false) :
    ∃ q', Alone c (q, .idle) (q', .idle) ∧ q'.senderLocked = false ∧ q'.senderOpen = false :=
  ⟨_, .step .close (.step (.lockToClose free) (.step .take (.one .unlockClosed))), rfl, rfl⟩

/-- The sender's lock can become free while those outside it stay where they are. -/
lemma lock_can_be_freed (inv : Inv s) : ∃ tr s', Run QueueStep s tr s' ∧
    s'.shared.senderLocked = false ∧ ∀ i, (s.pc i).locksSender = false → s'.pc i = s.pc i := by
  rcases locked : s.shared.senderLocked with _ | _
  · exact ⟨_, s, .nil, locked, fun _ _ => rfl⟩
  · obtain ⟨j, inside⟩ := inv.locking.lock.held.mp locked
    obtain ⟨q', p', al, free⟩ := alone_unlocks (c := j) (q := s.shared) inside
    obtain ⟨tr, r⟩ := al.run rfl
    refine ⟨tr, _, r, free, fun i outside => ?_⟩
    have ne : i ≠ j := by
      rintro rfl
      rw [outside] at inside
      cases inside
    exact update_of_ne ne ..

/-- A call that has nothing secured can still be turned away: someone closes the queue first. -/
lemma can_be_refused {e job} (inv : Inv s) (idle : s.pc e = .idle) (mine : (s.pc c).job = some job)
    (open' : s.shared.willAccept (s.pc c) = false) :
    ∃ tr s' r, Run QueueStep s tr s' ∧ s'.pc c = .returned r ∧ r ≠ .accepted := by
  have enqueues : ∀ {p : Pc C}, p.job = some job → p ≠ .take ∧ p ≠ .unlockClosed := by
    intro p h
    constructor <;> rintro rfl <;> cases h
  rcases inside : (s.pc c).locksSender with _ | _
  · obtain ⟨tr1, s1, r1, free1, stay⟩ := lock_can_be_freed inv
    have ne : c ≠ e := by
      rintro rfl
      rw [idle] at mine
      cases mine
    have idle1 : s1.pc e = .idle := (stay e (by rw [idle]; rfl)).trans idle
    obtain ⟨q2, closes, free2, closed⟩ := alone_closes (c := e) free1
    obtain ⟨tr2, r2⟩ := closes.run idle1
    -- the call now takes the lock of a closed queue
    have lockSender : ∀ job, ∃ q r, Alone c (q2, .lockSender job) (q, .returned r) ∧
        r ≠ .accepted := by
      intro job
      obtain ⟨q3, r, al, -, how⟩ :=
        alone_returns (c := c) (q := { q2 with senderLocked := true }) (p := .checkSender job)
          rfl ⟨by simp, by simp⟩
      refine ⟨q3, r, .step (.lockSender free2) al, fun acc => ?_⟩
      simpa [Queue.willAccept, closed] using how.mp acc
    have here : update s1.pc e .idle c = s.pc c := by
      rw [update_of_ne ne, stay c inside]
    have turned : ∃ q r, Alone c (q2, s.pc c) (q, .returned r) ∧ r ≠ .accepted := by
      cases at' : s.pc c with
      | stamp job =>
        obtain ⟨q, r, al, no⟩ := lockSender { job with enqueuedAt := some 0 }
        exact ⟨q, r, .step (.stamped 0) al, no⟩
      | lockSender job => exact lockSender job
      | checkSender | trySend | rollback =>
        rw [at'] at inside
        cases inside
      | _ =>
        rw [at'] at mine
        cases mine
    obtain ⟨q3, r, al, no⟩ := turned
    obtain ⟨tr3, r3⟩ := al.run (s := ⟨q2, update s1.pc e .idle⟩) here
    exact ⟨_, _, r, r1.append (r2.append r3), update_self .., no⟩
  · obtain ⟨q', r, al, -, how⟩ :=
      alone_returns (c := c) (q := s.shared) inside (enqueues mine)
    obtain ⟨tr, run⟩ := al.run rfl
    refine ⟨tr, _, r, run, update_self .., fun acc => ?_⟩
    rw [how.mp acc] at open'
    cases open'

end Alone

section Covered

lemma Local.insert {c q p a q'} {job : JobSpec C} (st : Local c q p a q' (.insert job)) :
    a = .enqueue job := by
  cases st with
  | enqueue => rfl

lemma Local.mem_pending {c q p a q' k} {p' : Pc C} (st : Local c q p a q' p')
    (mem : k ∈ q'.pending) :
    (k ∈ q.pending ∧ q'.insertedBy k = q.insertedBy k) ∨
    ∃ job, p = .insert job ∧ job.domainKey = k ∧ q'.insertedBy k = c := by
  cases st with
  | @inserted job fresh =>
    rcases Finset.mem_insert.mp mem with rfl | old
    · exact .inr ⟨job, rfl, rfl, update_self ..⟩
    · have ne : k ≠ job.domainKey := by
        rintro rfl
        exact fresh old
      exact .inl ⟨old, update_of_ne ne ..⟩
  | rollback => exact .inl ⟨Finset.mem_of_mem_erase mem, rfl⟩
  | removed => exact .inl ⟨Finset.mem_of_mem_erase mem, rfl⟩
  | _ => exact .inl ⟨mem, rfl⟩

lemma enqueued_of_insert {q : Queue C} {i job} (r : Run QueueStep (.start q) tr s)
    (at' : s.pc i = .insert job) : .act i (.enqueue job) ∈ tr := by
  have events := irun_thread (J := fun _ p as => ∀ job, p = .insert job → .enqueue job ∈ as)
    (fun st _ job at' => by
      subst at'
      rw [st.insert]
      exact List.mem_append_right _ List.mem_cons_self)
    (fun _ job at' => by cases at') r i job at'
  exact mem_eventsOf.mp events

/-- A key of the set stands for a call that was made with a job of that key. -/
lemma enqueued_of_pending {q : Queue C} (empty : q.pending = ∅)
    (r : Run QueueStep (.start q) tr s) : ∀ k ∈ s.shared.pending, ∃ job : JobSpec C,
      .act (s.shared.insertedBy k) (.enqueue job) ∈ tr ∧ job.domainKey = k := by
  refine r.snocInduction (motive := fun tr s => ∀ k ∈ s.shared.pending, ∃ job : JobSpec C,
    .act (s.shared.insertedBy k) (.enqueue job) ∈ tr ∧ job.domainKey = k) ?_ ?_
  · intro k mem
    rw [show (System.start q).shared.pending = ∅ from empty] at mem
    exact (Finset.notMem_empty k mem).elim
  · intro tr s1 l s2 r1 st ih k mem
    cases st with
    | env no => exact no.elim
    | @act i a q p st =>
      rcases st.mem_pending mem with ⟨old, same⟩ | ⟨job, at', rfl, mine⟩
      · obtain ⟨job, made, e⟩ := ih k old
        exact ⟨job, List.mem_append_left _ (by rw [same]; exact made), e⟩
      · exact ⟨job, List.mem_append_left _ (by rw [mine]; exact enqueued_of_insert r1 at'), rfl⟩

/-- The call `c` that a duplicate for `key` was matched against, after `tr` and in the state `s`
right after the check, covers the duplicate: it was made for the same key, no `dequeue` had returned
its job, and its own `enqueue` returns `Accepted`: whatever happens it never returns anything else,
and it can always still return that. -/
structure Covers (tr : List (Label (Event C) Empty)) (s : System C) (key : DomainKey)
    (c : Nat) : Prop where
  sameKey : ∃ job : JobSpec C, .act c (.enqueue job) ∈ tr ∧ job.domainKey = key
  notReturned : ∀ i m, m.call = c → .act i (.dequeued (some m)) ∉ tr
  accepted : ∀ tr' s', Run QueueStep s tr' s' →
    (∀ result, s'.pc c = .returned result → result = .accepted) ∧
    ∃ tr'' s'', Run QueueStep s' tr'' s'' ∧ s''.pc c = .returned .accepted

lemma Local.of_deduplicated {c matched q p q'} {p' : Pc C}
    (st : Local c q p (.deduplicated matched) q' p') :
    ∃ job, p = .insert job ∧ job.domainKey ∈ q.pending ∧ matched = q.insertedBy job.domainKey ∧
      q' = q ∧ p' = .returned .deduplicated := by
  cases st with
  | deduplicated mem => exact ⟨_, rfl, mem, rfl, rfl, rfl⟩

/-- A call whose send is secured can return `Accepted`. -/
lemma can_return {c} (sure : s.shared.willAccept (s.pc c) = true) :
    ∃ tr s', Run QueueStep s tr s' ∧ s'.pc c = .returned .accepted := by
  rcases inside : (s.pc c).locksSender with _ | _
  · cases at' : s.pc c with
    | returned r =>
      rw [at'] at sure
      exact ⟨_, s, .nil, by rw [at', of_decide_eq_true sure]⟩
    | checkSender | trySend | unlockSender =>
      rw [at'] at inside
      cases inside
    | _ =>
      rw [at'] at sure
      cases sure
  · have enqueues : s.pc c ≠ .take ∧ s.pc c ≠ .unlockClosed := by
      constructor <;> intro at' <;> rw [at'] at sure <;> cases sure
    obtain ⟨q', r, al, -, how⟩ := alone_returns (c := c) (q := s.shared) inside enqueues
    cases how.mpr sure
    obtain ⟨tr, run⟩ := al.run rfl
    exact ⟨tr, _, run, update_self ..⟩

/-- Deduplication is safe exactly when the matched call has its send secured. In any run, an
`enqueue` that is deduplicated is covered by the call its key was matched against if and only if,
when the key was checked, that call had sent its job or was inside the sender's lock of an open
queue with a free slot. -/
theorem covered_iff_willAccept {capacity : Nat} {pos : 0 < capacity} {i matched job}
    (r : Run QueueStep (.start (.new C capacity pos)) tr s) (at' : s.pc i = .insert job)
    (st : QueueStep s (.act i (.deduplicated matched)) s') :
    Covers tr s' job.domainKey matched ↔ s.shared.willAccept (s.pc matched) = true := by
  have inv := (Inv.start capacity pos).run r
  have inv' := inv.run (.cons st .nil)
  obtain ⟨n, idle⟩ := irun_idle (r.snoc st)
  cases st with
  | @act i a q p st =>
    obtain ⟨job', e, mem, rfl, rfl, rfl⟩ := st.of_deduplicated
    cases at'.symm.trans e
    -- the matched call is not the one that is turned away, so the check leaves it where it is
    have here : update s.pc i (.returned .deduplicated)
        (s.shared.insertedBy job.domainKey) = s.pc (s.shared.insertedBy job.domainKey) := by
      refine update_of_ne (fun same => ?_) ..
      rcases accepted_or_job r mem with acc | ⟨_, mine, _⟩
      · rw [same, at'] at acc
        cases acc
      · rw [same, at'] at mine
        cases mine
    constructor
    · intro covers
      rcases accepted_or_job r mem with acc | ⟨job', mine, -⟩
      · exact Pc.accepted.willAccept acc
      · by_contra unsure
        obtain ⟨tr', s', result, run, back, no⟩ := can_be_refused
          (s := ⟨s.shared, update s.pc i (.returned .deduplicated)⟩)
          (c := s.shared.insertedBy job.domainKey) (e := n) inv'
          (idle n le_rfl) (by dsimp only; rw [here]; exact mine)
          (by dsimp only; rw [here]; simpa using unsure)
        exact no ((covers.accepted tr' s' run).1 result back)
    · intro sure
      refine ⟨enqueued_of_pending rfl r _ mem, fun j m same back => ?_, fun tr' s' run => ?_⟩
      · exact not_returned r mem back same
      · have sure' : s'.shared.willAccept (s'.pc (s.shared.insertedBy job.domainKey)) = true :=
          willAccept_run inv' run (by dsimp only; rw [here]; exact sure)
        refine ⟨fun result back => ?_, can_return sure'⟩
        rw [back] at sure'
        exact of_decide_eq_true sure'

/-- A job is queued and its duplicate dropped: the queued job covers it. -/
theorem covered_by_queued :
    ∃ tr s s', Run QueueStep (.start (.new Unit 1 Nat.one_pos)) tr s ∧
      QueueStep s (.act 1 (.deduplicated 0)) s' ∧ Covers tr s' "refresh" 0 := by
  have r : Run QueueStep (.start (.new Unit 1 Nat.one_pos)) _ _ :=
    .cons (.act (i := 0) (.enqueue refresh)) <|
    .cons (.act (i := 0) (.inserted (Finset.notMem_empty _))) <|
    .cons (.act (i := 0) (.stamped 0)) <|
    .cons (.act (i := 0) (.lockSender rfl)) <|
    .cons (.act (i := 0) (.senderFound rfl)) <|
    .cons (.act (i := 0) (.sent rfl Nat.one_pos)) <|
    .cons (.act (i := 1) (.enqueue refresh)) .nil
  refine ⟨_, _, _, r, .act (.deduplicated (Finset.mem_insert_self ..)), ?_⟩
  refine (covered_iff_willAccept r (i := 1) rfl ?_).mpr rfl
  exact .act (.deduplicated (Finset.mem_insert_self ..))

/-- The capacity is used up by another key. A job is inserted into the dedup set, its duplicate is
dropped as `Deduplicated`, and then the job itself is refused: neither is queued. -/
theorem deduplicated_then_refused :
    ∃ tr s s' tr' s'', Run QueueStep (.start (.new Unit 1 Nat.one_pos)) tr s ∧
      QueueStep s (.act 2 (.deduplicated 1)) s' ∧ Run QueueStep s' tr' s'' ∧
      s''.pc 2 = .returned .deduplicated ∧ s''.pc 1 = .returned .queueFull ∧
      "refresh" ∉ s''.shared.pending ∧ s''.shared.keys = ["other"] := by
  have r : Run QueueStep (.start (.new Unit 1 Nat.one_pos)) _ _ :=
    .cons (.act (i := 0) (.enqueue { refresh with domainKey := "other" })) <|
    .cons (.act (i := 0) (.inserted (Finset.notMem_empty _))) <|
    .cons (.act (i := 0) (.stamped 0)) <|
    .cons (.act (i := 0) (.lockSender rfl)) <|
    .cons (.act (i := 0) (.senderFound rfl)) <|
    .cons (.act (i := 0) (.sent rfl Nat.one_pos)) <|
    .cons (.act (i := 0) .unlockSender) <|
    .cons (.act (i := 1) (.enqueue refresh)) <|
    .cons (.act (i := 1) (.inserted (by decide))) <|
    .cons (.act (i := 2) (.enqueue refresh)) .nil
  exact ⟨_, _, _, _, _, r, .act (.deduplicated (Finset.mem_insert_self ..)),
    .cons (.act (i := 1) (.stamped 0)) <|
    .cons (.act (i := 1) (.lockSender rfl)) <|
    .cons (.act (i := 1) (.senderFound rfl)) <|
    .cons (.act (i := 1) (.sendFull rfl le_rfl)) <|
    .cons (.act (i := 1) .rollback) <|
    .cons (.act (i := 1) .unlockSender) .nil,
    rfl, rfl, by decide, rfl⟩

end Covered

end CherryPit.WorkQueue
