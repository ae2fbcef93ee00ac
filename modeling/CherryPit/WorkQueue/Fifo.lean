import CherryPit.WorkQueue.Queue

/-!
# The queue is a duplicate-free FIFO

The channel and the dedup set are updated in separate steps, so they agree only up to the calls
that are under way. `Agrees` says how: a key of the set is the key of one job in the channel or is
held by one call, never both. The set and the channel then agree exactly when no call is under way.

The source notes that two calls for one key can both pass the insertion. They cannot: the insertion
is atomic and the key stays in the set until its job is received or its insertion rolled back.
-/

namespace CherryPit.WorkQueue

open Conc Threads Function

variable {C : Type} {s s' : System C} {tr : List (Label (Event C) Empty)} {p' : Pc C}

/-- No call holds the key: it is not in the set, or its job is in the channel. -/
def Queue.available (q : Queue C) (k : DomainKey) : Prop := k ∉ q.pending ∨ k ∈ q.keys

/-- The dedup set and the channel agree up to the calls under way. -/
structure Agrees (s : System C) : Prop where
  nodup : s.shared.keys.Nodup
  pending : ∀ k ∈ s.shared.keys, k ∈ s.shared.pending
  tokens : Tokens Queue.available Pc.holds s

lemma Agrees.start (capacity : Nat) (pos : 0 < capacity) :
    Agrees (.start (.new C capacity pos)) where
  nodup := List.nodup_nil
  pending _ mem := by cases mem
  tokens := .start (fun _ => .inl (Finset.notMem_empty _)) fun _ => rfl

/-- A key that a call holds is in the set and not in the channel. -/
lemma Agrees.held {i k} (ag : Agrees s) (h : (s.pc i).holds = some k) :
    k ∈ s.shared.pending ∧ k ∉ s.shared.keys := by
  simpa only [Queue.available, not_or, not_not] using ag.tokens.not_free h

/-- Every move passes the keys on between the set, the channel and the call. -/
lemma Agrees.passes {i q p} (ag : Agrees s) (mv : Moves s.shared (s.pc i) q p) :
    Threads.Passes Queue.available Pc.holds s.shared (s.pc i) q p := by
  have sub := ag.pending
  cases mv with
  | stays em ep eh =>
    have same : ∀ k, q.available k ↔ s.shared.available k := by
      simp only [Queue.available, Queue.keys, em, ep, implies_true]
    constructor
    · intro k
      rw [same, eh]
    · intro k free
      rw [eh]
      exact fun h => ag.tokens.not_free h ((same k).mp free)
  | inserts k fresh hp hp' em ep =>
    have outside : k ∉ s.shared.keys := fun mem => fresh (sub k mem)
    have keys : q.keys = s.shared.keys := by simp only [Queue.keys, em]
    constructor <;> intro t <;>
      simp only [Queue.available, keys, ep, hp, hp', Finset.mem_insert, Option.some.injEq] <;> grind
  | sends m hp hp' em ep =>
    have keys : q.keys = s.shared.keys ++ [m.key] := by simp [Queue.keys, em]
    constructor <;> intro t <;>
      simp only [Queue.available, keys, ep, hp, hp', List.mem_append, List.mem_singleton,
        Option.some.injEq] <;> grind
  | receives m hp hp' em ep =>
    have keys : s.shared.keys = m.key :: q.keys := by simp [Queue.keys, em]
    have nodup := ag.nodup
    rw [keys, List.nodup_cons] at nodup
    constructor <;> intro t <;>
      simp only [Queue.available, keys, ep, hp, hp', List.mem_cons, Option.some.injEq] <;> grind
  | erases k hp hp' em ep =>
    have keys : q.keys = s.shared.keys := by simp only [Queue.keys, em]
    have held := ag.held hp
    constructor <;> intro t <;>
      simp only [Queue.available, keys, ep, hp, hp', Finset.mem_erase, Option.some.injEq] <;> grind

lemma Agrees.moves {i q p} (ag : Agrees s) (mv : Moves s.shared (s.pc i) q p) :
    Agrees ⟨q, update s.pc i p⟩ := by
  refine ⟨?_, ?_, ag.tokens.step (ag.passes mv)⟩
  · have nodup := ag.nodup
    cases mv with
    | stays em | inserts _ _ _ _ em | erases _ _ _ em =>
      simpa only [Queue.keys, em] using nodup
    | sends m hp _ em =>
      have keys : q.keys = s.shared.keys ++ [m.key] := by simp [Queue.keys, em]
      rw [keys, List.nodup_append]
      simp only [nodup, List.nodup_singleton, List.mem_singleton, true_and]
      rintro k mem _ rfl rfl
      exact (ag.held hp).2 mem
    | receives m _ _ em =>
      simp only [Queue.keys, em, List.map_cons, List.nodup_cons] at nodup
      exact nodup.2
  · have sub := ag.pending
    intro k mem
    cases mv with
    | stays em ep =>
      simpa only [Queue.keys, em, ep] using sub k (by simpa [Queue.keys, em] using mem)
    | inserts _ _ _ _ em ep =>
      simp only [ep, Finset.mem_insert]
      exact .inr (sub k (by simpa [Queue.keys, em] using mem))
    | sends m hp _ em ep =>
      simp only [Queue.keys, em, List.map_append, List.mem_append, List.map_cons, List.map_nil,
        List.mem_singleton] at mem
      rcases mem with mem | rfl
      · simpa only [ep] using sub k mem
      · simpa only [ep] using (ag.held hp).1
    | receives m _ _ em ep =>
      simpa only [ep] using sub k (by simpa [Queue.keys, em] using .inr (List.mem_map.mp mem))
    | erases t hp _ em ep =>
      have mem : k ∈ s.shared.keys := by simpa [Queue.keys, em] using mem
      simp only [ep, Finset.mem_erase]
      refine ⟨?_, sub k mem⟩
      rintro rfl
      exact (ag.held hp).2 mem

lemma Agrees.run (ag : Agrees s) (r : Run QueueStep s tr s') : Agrees s' := by
  refine r.invariant (fun ag st => ?_) ag
  cases st with
  | act st => exact ag.moves st.moves
  | env no => exact no.elim

/-- The messages sent in a run, in the order in which they entered the channel. -/
def sentIn (tr : List (Label (Event C) Empty)) : List (Message C) :=
  collect Event.sentMessage tr

/-- The messages received in a run, in the order in which they left the channel. -/
def receivedIn (tr : List (Label (Event C) Empty)) : List (Message C) :=
  collect Event.receivedMessage tr

/-- What was sent is what was received and what is still in the channel, in this order. -/
lemma received_append_messages (empty : s.shared.messages = []) (r : Run QueueStep s tr s') :
    receivedIn tr ++ s'.shared.messages = sentIn tr := by
  refine r.snocInduction (motive := fun tr s' => receivedIn tr ++ s'.shared.messages = sentIn tr)
    (show [] ++ s.shared.messages = [] from empty) ?_
  intro tr s1 l s2 _ st ih
  cases st with
  | env no => exact no.elim
  | act st =>
    simp only [receivedIn, sentIn, collect_act] at ih ⊢
    rcases st.channel with ⟨e, none⟩ | ⟨e, none⟩
    · simp only [none, e, Option.toList_none, List.append_nil, ← ih, List.append_assoc]
    · simp only [none, Option.toList_none, List.append_nil, ← ih, e, List.append_assoc]

/-- The call has sent its job. -/
def Pc.accepted : Pc C → Bool
  | .unlockSender r | .returned r => decide (r = .accepted)
  | _ => false

/-- A call passes from not having sent its job to having sent it with its one send. -/
lemma Local.sends {c q p a q'} (st : Local c q p a q' p') :
    (∃ job, a = .sent ⟨c, job⟩ ∧ p = .trySend job ∧ p'.accepted = true) ∨
    (a.sentMessage = none ∧ p'.accepted = p.accepted) := by
  cases st with
  | @sent job => exact .inl ⟨job, rfl, rfl, rfl⟩
  | _ => exact .inr ⟨rfl, rfl⟩

/-- The calls that have sent are those that return `Accepted`, and each has sent once. -/
structure SentOnce (tr : List (Label (Event C) Empty)) (s : System C) : Prop where
  nodup : ((sentIn tr).map Message.call).Nodup
  accepted : ∀ c, c ∈ (sentIn tr).map Message.call ↔ (s.pc c).accepted = true

lemma SentOnce.run {q : Queue C} (r : Run QueueStep (.start q) tr s) : SentOnce tr s := by
  refine r.snocInduction (motive := SentOnce) ⟨List.nodup_nil, fun c => ?_⟩ ?_
  · simp [sentIn, collect, System.start, start, Pc.accepted]
  intro tr s1 l s2 _ st once
  obtain ⟨nodup, accepted⟩ := once
  cases st with
  | env no => exact no.elim
  | @act i a g p st =>
    rcases st.sends with ⟨job, rfl, at', acc⟩ | ⟨none, same⟩
    · -- the call that sends was not among those that had sent
      have fresh : i ∉ (sentIn tr).map Message.call := by
        rw [accepted, at']
        simp [Pc.accepted]
      have sent : (sentIn (tr ++ [.act i (.sent ⟨i, job⟩)])).map Message.call =
          (sentIn tr).map Message.call ++ [i] := by
        simp [sentIn, collect_act, Event.sentMessage]
      constructor
      · rw [sent, ← List.concat_eq_append]
        exact List.Nodup.concat fresh nodup
      · intro c
        rw [sent, List.mem_append, List.mem_singleton, accepted]
        rcases eq_or_ne c i with rfl | ne
        · simp [acc]
        · simp [ne]
    · have sent : sentIn (tr ++ [.act i a]) = sentIn tr := by
        simp [sentIn, collect_act, none]
      refine ⟨by rwa [sent], fun c => ?_⟩
      rw [sent, accepted]
      rcases eq_or_ne c i with rfl | ne
      · simp [same]
      · simp [ne]

/-- A call about to send has seen the sender, and it is still there. -/
def Sendable (s : System C) : Prop :=
  ∀ i job, s.pc i = .trySend job → s.shared.senderOpen = true

lemma Local.reaches_trySend {c q p a q'} {job : JobSpec C} (st : Local c q p a q' (.trySend job)) :
    q.senderOpen = true := by
  cases st with
  | senderFound isOpen => exact isOpen

lemma Sendable.step {l} (ok : Sendable s) (lock : SenderLock s) (st : QueueStep s l s') :
    Sendable s' := by
  intro j job at'
  cases st with
  | env no => exact no.elim
  | @act i a g p st =>
    dsimp only at at' ⊢
    rcases st.sender with same | ⟨take, -⟩
    · rw [same]
      rcases eq_or_ne j i with rfl | ne
      · rw [update_self] at at'
        subst at'
        exact st.reaches_trySend
      · rw [update_of_ne ne] at at'
        exact ok j job at'
    · -- the one that drops the sender is alone inside the lock
      rcases eq_or_ne j i with rfl | ne
      · rw [update_self] at at'
        subst at'
        rw [take] at st
        cases st
      · rw [update_of_ne ne] at at'
        have inside : (s.pc i).locksSender = true := by rw [take]; rfl
        exact (lock.outside inside ne (by rw [at']; rfl)).elim

/-- The locking discipline of the sender. -/
structure Locking (s : System C) : Prop where
  lock : SenderLock s
  sendable : Sendable s

lemma Locking.start (capacity : Nat) (pos : 0 < capacity) :
    Locking (.start (.new C capacity pos)) where
  lock := Mutex.start rfl (by simp [Pc.locksSender])
  sendable i job at' := by cases at'

lemma Locking.step {l} (ok : Locking s) (st : QueueStep s l s') : Locking s' where
  lock := ok.lock.step (fun ⟨_, st⟩ => st.respects) False.elim st.forget
  sendable := ok.sendable.step ok.lock st

lemma Locking.run (ok : Locking s) (r : Run QueueStep s tr s') : Locking s' :=
  r.invariant (fun ok st => ok.step st) ok

lemma Local.closed {c q p a q'} (st : Local c q p a q' p') (closed : q.senderOpen = false) :
    q'.senderOpen = false := by
  rcases st.sender with same | ⟨_, closed'⟩
  · exact same.trans closed
  · exact closed'

/-- A queue that is closed and empty stays so. -/
def Drained (q : Queue C) : Prop := q.senderOpen = false ∧ q.messages = []

lemma Drained.step {l} (dr : Drained s.shared) (ok : Locking s) (st : QueueStep s l s') :
    Drained s'.shared := by
  obtain ⟨closed, empty⟩ := dr
  cases st with
  | env no => exact no.elim
  | act st =>
    refine ⟨st.closed closed, ?_⟩
    rcases st.channel with ⟨e, _⟩ | ⟨e, _⟩
    · rcases st.sends with ⟨job, _, at', _⟩ | ⟨none, _⟩
      · exact absurd (ok.sendable _ _ at') (by simp [closed])
      · simpa [none, empty] using e
    · rw [empty] at e
      exact (List.append_eq_nil_iff.mp e.symm).2

lemma Local.drains {c q p q'} (st : Local c q p (.dequeued none) q' p') : Drained q' := by
  cases st with
  | drained empty closed => exact ⟨closed, empty⟩

/-- A `dequeue` has returned `None` only if the queue is closed and empty from then on. -/
lemma drained_of_none {i} (ok : Locking s) (r : Run QueueStep s tr s')
    (none : .act i (.dequeued none) ∈ tr) : Drained s'.shared := by
  have both : (.act i (.dequeued .none) ∈ tr → Drained s'.shared) ∧ Locking s' := by
    refine r.snocInduction
      (motive := fun tr s' => (.act i (.dequeued .none) ∈ tr → Drained s'.shared) ∧ Locking s')
      ⟨fun mem => (List.not_mem_nil mem).elim, ok⟩ ?_
    intro tr s1 l s2 _ st ⟨ih, ok⟩
    refine ⟨fun mem => ?_, ok.step st⟩
    rcases List.mem_append.mp mem with old | new
    · exact (ih old).step ok st
    · cases List.mem_singleton.mp new
      cases st with
      | act st => exact st.drains
  exact both.1 none

/-- No call is under way. -/
def Quiet (s : System C) : Prop := ∀ i, s.pc i = .idle ∨ ∃ r, s.pc i = .returned r

lemma Quiet.holds (quiet : Quiet s) (i : Nat) : (s.pc i).holds = none := by
  rcases quiet i with e | ⟨r, e⟩ <;> rw [e] <;> rfl

/-- When no call is under way the set is that of the keys in the channel. -/
lemma Agrees.quiet (ag : Agrees s) (quiet : Quiet s) :
    s.shared.pending = s.shared.keys.toFinset := by
  ext k
  rw [List.mem_toFinset]
  refine ⟨fun mem => ?_, ag.pending k⟩
  by_contra outside
  obtain ⟨i, h⟩ := (ag.tokens.held k).mp (by simp [Queue.available, mem, outside])
  rw [quiet.holds i] at h
  cases h

/-- The work queue is a duplicate-free, loss-free FIFO. In every state that any number of calls can
reach: the channel has at most one job per key and its keys are in the dedup set; the jobs received
are a prefix of the jobs sent, and all of them once a `dequeue` has returned `None`; an `enqueue`
has sent its job exactly if it returns `Accepted`, and once; a job that was received is one whose
`enqueue` returns `Accepted`; and when no call is under way the dedup set is the set of keys in the
channel and `len` its length. -/
theorem duplicate_free_fifo {capacity : Nat} {pos : 0 < capacity}
    (r : Run QueueStep (.start (.new C capacity pos)) tr s) :
    s.shared.keys.Nodup ∧ (∀ k ∈ s.shared.keys, k ∈ s.shared.pending) ∧
    receivedIn tr <+: sentIn tr ∧
    (∀ i, .act i (.dequeued none) ∈ tr →
      s.shared.senderOpen = false ∧ receivedIn tr = sentIn tr) ∧
    ((sentIn tr).map Message.call).Nodup ∧
    (∀ c, c ∈ (sentIn tr).map Message.call ↔
      s.pc c = .unlockSender .accepted ∨ s.pc c = .returned .accepted) ∧
    (∀ m ∈ receivedIn tr, ∀ result, s.pc m.call = .returned result → result = .accepted) ∧
    (Quiet s → s.shared.pending = s.shared.keys.toFinset ∧
      s.shared.pending.card = s.shared.messages.length) := by
  have agrees := (Agrees.start capacity pos).run r
  have once := SentOnce.run r
  have fifo := received_append_messages (s := .start (.new C capacity pos)) rfl r
  refine ⟨agrees.nodup, agrees.pending, ⟨_, fifo⟩, ?_, once.nodup, ?_, ?_, ?_⟩
  · intro i none
    obtain ⟨closed, empty⟩ := drained_of_none (.start capacity pos) r none
    refine ⟨closed, ?_⟩
    rw [← fifo, empty, List.append_nil]
  · intro c
    rw [once.accepted]
    cases s.pc c <;> simp [Pc.accepted]
  · intro m mem result at'
    have sent : m ∈ sentIn tr := fifo ▸ List.mem_append_left _ mem
    have acc := (once.accepted m.call).mp (List.mem_map_of_mem sent)
    simpa [at', Pc.accepted] using acc
  · intro quiet
    have same := agrees.quiet quiet
    refine ⟨same, ?_⟩
    rw [same, List.toFinset_card_of_nodup agrees.nodup, Queue.keys, List.length_map]

/-- The job of the concrete runs. -/
def refresh : JobSpec Unit := .new "refresh" () .initialLoad ⟨none, none⟩

/-- A job is enqueued and dequeued, the queue closed, and the next `dequeue` returns `None`. -/
theorem duplicate_free_fifo_drained :
    ∃ tr s, Run QueueStep (.start (.new Unit 1 Nat.one_pos)) tr s ∧
      .act 1 (.dequeued none) ∈ tr ∧ s.shared.senderOpen = false ∧
      receivedIn tr = sentIn tr ∧ (sentIn tr).map Message.key = ["refresh"] := by
  have r : Run QueueStep (.start (.new Unit 1 Nat.one_pos)) _ _ :=
    .cons (.act (i := 0) (.enqueue refresh)) <|
    .cons (.act (i := 0) (.inserted (Finset.notMem_empty _))) <|
    .cons (.act (i := 0) (.stamped 0)) <|
    .cons (.act (i := 0) (.lockSender rfl)) <|
    .cons (.act (i := 0) (.senderFound rfl)) <|
    .cons (.act (i := 0) (.sent rfl Nat.one_pos)) <|
    .cons (.act (i := 0) .unlockSender) <|
    .cons (.act (i := 1) .dequeue) <|
    .cons (.act (i := 1) (.lockReceiver rfl)) <|
    .cons (.act (i := 1) (.received rfl)) <|
    .cons (.act (i := 1) .removed) <|
    .cons (.act (i := 1) .unlockReceiver) <|
    .cons (.act (i := 2) .close) <|
    .cons (.act (i := 2) (.lockToClose rfl)) <|
    .cons (.act (i := 2) .take) <|
    .cons (.act (i := 2) .unlockClosed) <|
    .cons (.act (i := 1) .dequeue) <|
    .cons (.act (i := 1) (.lockReceiver rfl)) <|
    .cons (.act (i := 1) (.drained rfl rfl)) .nil
  have fifo := duplicate_free_fifo r
  have none := fifo.2.2.2.1 1 (by simp)
  exact ⟨_, _, r, by simp, none.1, none.2, rfl⟩

end CherryPit.WorkQueue
