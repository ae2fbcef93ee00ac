import CherryPit.Core.Error

/-!
# The event store contract

The contract of `cherry-pit-core/src/store.rs` (`EventStore`), as a relation between the store
before a call, the store after it and the answer. A `Store` carries the invariants of the port in
its fields: a stream is numbered from 1 without gaps, its envelopes name it, and no stream exists
under an id the counter has not reached.

`faults` switches on the failures the port documents: any call may fail for reasons of its own, in
which case nothing was persisted, and a write may answer `Indeterminate` after it has landed. With
`faults := False` a store fails only where the contract makes it: a sequence that does not match,
an aggregate that was never created, an empty `create`, an exhausted counter. `appendNow` and
`createNow` are such a store, as functions.

`Store.eq_of_last` is what optimistic concurrency rests on: a loaded history whose last sequence is
still the stream's last sequence is the whole stream.
-/

namespace CherryPit

open Function

/-- The envelopes a store makes of `events` in stream `id` after sequence `start`. -/
structure Stamped {E : Type} (id : AggregateId) (start : Nat) (ctx : CorrelationContext)
    (events : List E) (envs : List (EventEnvelope E)) : Prop where
  payloads : envs.map (·.payload) = events
  numbered : ∀ {n env}, envs[n]? = some env → env.sequence.get = start + n + 1
  owned : ∀ {env}, env ∈ envs → env.aggregateId = id
  correlated : ∀ {env}, env ∈ envs →
    env.correlationId = ctx.correlationId ∧ env.causationId = ctx.causationId

lemma Stamped.singleton {E : Type} {id start ctx event envs}
    (st : Stamped (E := E) id start ctx [event] envs) :
    ∃ env, envs = [env] ∧ env.payload = event ∧ env.aggregateId = id := by
  obtain ⟨env, rfl, e⟩ := List.map_eq_singleton_iff.mp st.payloads
  exact ⟨env, rfl, e, st.owned (List.mem_singleton_self env)⟩

lemma Stamped.lt_sequence {E : Type} {id start ctx} {events : List E} {envs}
    (st : Stamped id start ctx events envs) {env : EventEnvelope E} (mem : env ∈ envs) :
    start < env.sequence.get := by
  obtain ⟨n, lt, rfl⟩ := List.mem_iff_getElem.mp mem
  rw [st.numbered (List.getElem?_eq_getElem lt)]
  omega

/-- The state of an event store. `nextId` is the counter of `create`. -/
structure Store (E : Type) where
  streams : AggregateId → List (EventEnvelope E)
  nextId : Nat
  positive : 0 < nextId
  owned : ∀ {id env}, env ∈ streams id → env.aggregateId = id
  numbered : ∀ {id n env}, (streams id)[n]? = some env → env.sequence.get = n + 1
  unallocated : ∀ {id}, nextId ≤ id.get → streams id = []

namespace Store

variable {E : Type} {s s' : Store E}

/-- A new store: no streams, ids from 1 on. -/
def empty : Store E where
  streams _ := []
  nextId := 1
  positive := Nat.one_pos
  owned h := by simp at h
  numbered h := by simp at h
  unallocated _ := rfl

/-- Put stamped envelopes at the end of a stream; `next` is the counter afterwards. -/
def write (s : Store E) {id ctx events envs} (next : Nat)
    (st : Stamped (E := E) id (s.streams id).length ctx events envs)
    (le : s.nextId ≤ next) (alloc : id.get < next) : Store E where
  streams := update s.streams id (s.streams id ++ envs)
  nextId := next
  positive := s.positive.trans_le le
  owned {id' env} h := by
    rcases eq_or_ne id' id with rfl | ne
    · rw [update_self, List.mem_append] at h
      exact h.elim s.owned st.owned
    · rw [update_of_ne ne] at h
      exact s.owned h
  numbered {id' n env} h := by
    rcases eq_or_ne id' id with rfl | ne
    · rw [update_self, List.getElem?_append] at h
      split at h
      · exact s.numbered h
      · -- the new envelopes continue the numbering at the old length
        rw [st.numbered h]
        omega
    · rw [update_of_ne ne] at h
      exact s.numbered h
  unallocated {id'} h := by
    have ne : id' ≠ id := by
      rintro rfl
      omega
    rw [update_of_ne ne]
    exact s.unallocated (le.trans h)

/-- Allocate an id without persisting anything under it. -/
def burn (s : Store E) : Store E where
  streams := s.streams
  nextId := s.nextId + 1
  positive := Nat.succ_pos _
  owned := s.owned
  numbered := s.numbered
  unallocated h := s.unallocated (Nat.le_of_succ_le h)

/-- An id below the counter, from a stream that has events. -/
lemma allocated (s : Store E) {id last} (h : (s.streams id).getLast? = some last) :
    id.get < s.nextId := by
  by_contra le
  rw [s.unallocated (not_lt.mp le)] at h
  cases h

/-- The stream of an id that the counter is about to give out is empty. -/
lemma length_next (s : Store E) {id} (h : id.get = s.nextId) : (s.streams id).length = 0 := by
  rw [s.unallocated h.ge]
  rfl

/-- The write of a successful `append`. -/
def append (s : Store E) {id ctx events envs last}
    (st : Stamped (E := E) id (s.streams id).length ctx events envs)
    (h : (s.streams id).getLast? = some last) : Store E :=
  s.write s.nextId st le_rfl (s.allocated h)

/-- The write of a successful `create`. -/
def create (s : Store E) {id ctx events envs}
    (st : Stamped (E := E) id 0 ctx events envs) (h : id.get = s.nextId) : Store E :=
  s.write (s.nextId + 1) ((s.length_next h).symm ▸ st) (Nat.le_succ _) (by omega)

@[simp] lemma streams_append {id ctx events envs last}
    {st : Stamped (E := E) id (s.streams id).length ctx events envs}
    {h : (s.streams id).getLast? = some last} :
    (s.append st h).streams = update s.streams id (s.streams id ++ envs) := rfl

@[simp] lemma streams_create {id ctx events envs} {st : Stamped (E := E) id 0 ctx events envs}
    {h : id.get = s.nextId} :
    (s.create st h).streams = update s.streams id (s.streams id ++ envs) := rfl

/-- Growth of a store: every stream is extended at its end. -/
def Extends (s s' : Store E) : Prop :=
  ∀ id, s.streams id <+: s'.streams id

lemma Extends.refl (s : Store E) : s.Extends s :=
  fun _ => List.prefix_rfl

lemma Extends.trans {s'' : Store E} (h : s.Extends s') (h' : s'.Extends s'') : s.Extends s'' :=
  fun id => (h id).trans (h' id)

/-- A stream replaced by one that extends it. -/
lemma extends_update {id envs} (e : s'.streams = update s.streams id envs)
    (h : s.streams id <+: envs) :
    s.Extends s' := by
  intro id'
  rw [e]
  rcases eq_or_ne id' id with rfl | ne
  · rwa [update_self]
  · rw [update_of_ne ne]

/-- Occurrences in the streams after one of them has grown. -/
lemma countP_streams {id envs} (P : EventEnvelope E → Bool) (t : AggregateId)
    (es : s'.streams = update s.streams id (s.streams id ++ envs)) :
    (s'.streams t).countP P = (s.streams t).countP P + if id = t then envs.countP P else 0 := by
  rw [es]
  rcases eq_or_ne id t with rfl | ne
  · rw [update_self, List.countP_append, if_pos rfl]
  · rw [update_of_ne ne.symm, if_neg ne, Nat.add_zero]

/-- The last envelope of a history carries the length of the history as its sequence. -/
lemma last_sequence (s : Store E) {id h last} (pre : h <+: s.streams id)
    (l : h.getLast? = some last) : last.sequence.get = h.length := by
  obtain ⟨t, e⟩ := pre
  -- the last envelope of `h` stands at position `h.length - 1` of the stream
  rw [List.getLast?_eq_getElem?] at l
  have lt : h.length - 1 < h.length := (List.getElem?_eq_some_iff.mp l).1
  have at' : (s.streams id)[h.length - 1]? = some last := by
    rw [← e, List.getElem?_append_left lt]
    exact l
  rw [s.numbered at']
  omega

/-- Optimistic concurrency: a history that ends at the stream's last sequence is the stream. -/
lemma eq_of_last (s : Store E) {id h last last'} (pre : h <+: s.streams id)
    (l : h.getLast? = some last) (l' : (s.streams id).getLast? = some last')
    (e : last'.sequence = last.sequence) : h = s.streams id := by
  apply pre.eq_of_length
  rw [← s.last_sequence pre l, ← s.last_sequence List.prefix_rfl l', e]

/-- Answers of `load`. -/
inductive Load (faults : Prop) (s : Store E) (id : AggregateId) :
    Except StoreError (List (EventEnvelope E)) → Prop where
  | ok :
    Load faults s id (.ok (s.streams id))
  | fault {e} :
    faults →
    Load faults s id (.error e)

/-- Effects and answers of `append`: the store afterwards, what landed in it, and the answer. -/
inductive Append (faults : Prop) (s : Store E) (id : AggregateId) (expected : NonZeroU64)
    (events : List E) (ctx : CorrelationContext) :
    Store E → List (EventEnvelope E) → Except StoreError (List (EventEnvelope E)) → Prop where
  | nothing :
    events = [] →
    Append faults s id expected events ctx s [] (.ok [])
  | ok {last envs} (st : Stamped id (s.streams id).length ctx events envs)
      (h : (s.streams id).getLast? = some last) :
    events ≠ [] →
    last.sequence = expected →
    Append faults s id expected events ctx (s.append st h) envs (.ok envs)
  | conflict {last} :
    events ≠ [] →
    (s.streams id).getLast? = some last →
    last.sequence ≠ expected →
    Append faults s id expected events ctx s []
      (.error (.concurrencyConflict id expected last.sequence.get))
  | missing {text} :
    events ≠ [] →
    s.streams id = [] →
    Append faults s id expected events ctx s [] (.error (.infrastructure text))
  | overflow {text} :
    2 ^ 64 ≤ (s.streams id).length + events.length →
    Append faults s id expected events ctx s [] (.error (.infrastructure text))
  | fault {e} :
    faults →
    Append faults s id expected events ctx s [] (.error e)
  -- the write landed and its answer was lost
  | landed {last envs text} (st : Stamped id (s.streams id).length ctx events envs)
      (h : (s.streams id).getLast? = some last) :
    faults →
    events ≠ [] →
    last.sequence = expected →
    Append faults s id expected events ctx (s.append st h) envs (.error (.indeterminate text))

/-- Effects and answers of `create`. A failed call may have used up an id. -/
inductive Create (faults : Prop) (s : Store E) (events : List E) (ctx : CorrelationContext) :
    Store E → List (EventEnvelope E) →
      Except StoreError (AggregateId × List (EventEnvelope E)) → Prop where
  | ok {id envs} (st : Stamped id 0 ctx events envs) (h : id.get = s.nextId) :
    events ≠ [] →
    Create faults s events ctx (s.create st h) envs (.ok (id, envs))
  | zero {text} :
    events = [] →
    Create faults s events ctx s [] (.error (.infrastructure text))
  | exhausted {text} :
    2 ^ 64 ≤ s.nextId ∨ 2 ^ 64 ≤ events.length →
    Create faults s events ctx s [] (.error (.infrastructure text))
  | fault {e} :
    faults →
    Create faults s events ctx s [] (.error e)
  -- the id was taken and the write failed
  | burnt {e} :
    faults →
    Create faults s events ctx s.burn [] (.error e)
  | landed {id envs text} (st : Stamped id 0 ctx events envs) (h : id.get = s.nextId) :
    faults →
    events ≠ [] →
    Create faults s events ctx (s.create st h) envs (.error (.indeterminate text))

/-- Either nothing landed and the call failed (or had nothing to write), or the sequence matched,
the events landed and the answer reports them or does not know. -/
lemma Append.inv {faults s id expected events ctx s' envs r}
    (h : Append (E := E) faults s id expected events ctx s' envs r) :
    (s' = s ∧ envs = [] ∧ (r = .ok [] ∧ events = [] ∨ ∃ e, r = .error e)) ∨
    (∃ last, (s.streams id).getLast? = some last ∧ last.sequence = expected ∧
      Stamped id (s.streams id).length ctx events envs ∧
      s'.streams = update s.streams id (s.streams id ++ envs) ∧
      (r = .ok envs ∨ ∃ text, r = .error (.indeterminate text))) := by
  cases h with
  | nothing e => exact .inl ⟨rfl, rfl, .inl ⟨rfl, e⟩⟩
  | ok st h _ e => exact .inr ⟨_, h, e, st, streams_append, .inl rfl⟩
  | conflict => exact .inl ⟨rfl, rfl, .inr ⟨_, rfl⟩⟩
  | missing => exact .inl ⟨rfl, rfl, .inr ⟨_, rfl⟩⟩
  | overflow => exact .inl ⟨rfl, rfl, .inr ⟨_, rfl⟩⟩
  | fault => exact .inl ⟨rfl, rfl, .inr ⟨_, rfl⟩⟩
  | landed st h _ _ e => exact .inr ⟨_, h, e, st, streams_append, .inr ⟨_, rfl⟩⟩

/-- An append of one event: it failed and nothing landed, or its envelope did. -/
lemma Append.inv_one {faults s id expected event ctx s' envs r}
    (h : Append (E := E) faults s id expected [event] ctx s' envs r) :
    (s' = s ∧ envs = [] ∧ ∃ e, r = .error e) ∨
    (∃ last env, (s.streams id).getLast? = some last ∧ last.sequence = expected ∧
      envs = [env] ∧ env.payload = event ∧ env.aggregateId = id ∧
      s'.streams = update s.streams id (s.streams id ++ [env]) ∧
      (r = .ok [env] ∨ ∃ text, r = .error (.indeterminate text))) := by
  rcases h.inv with ⟨rfl, rfl, ⟨_, no⟩ | failed⟩ | ⟨last, hl, seq, st, es, re⟩
  · cases no
  · exact .inl ⟨rfl, rfl, failed⟩
  · obtain ⟨env, rfl, payload, owned⟩ := st.singleton
    exact .inr ⟨last, env, hl, seq, rfl, payload, owned, es, re⟩

/-- Either nothing landed and the call failed, or the events landed in the (empty) stream of the
next id. -/
lemma Create.inv {faults s events ctx s' envs r}
    (h : Create (E := E) faults s events ctx s' envs r) :
    (s'.streams = s.streams ∧ envs = [] ∧ ∃ e, r = .error e) ∨
    (∃ id, id.get = s.nextId ∧ Stamped id 0 ctx events envs ∧
      s'.streams = update s.streams id (s.streams id ++ envs) ∧
      (r = .ok (id, envs) ∨ ∃ text, r = .error (.indeterminate text))) := by
  cases h with
  | ok st h => exact .inr ⟨_, h, st, streams_create, .inl rfl⟩
  | zero => exact .inl ⟨rfl, rfl, _, rfl⟩
  | exhausted => exact .inl ⟨rfl, rfl, _, rfl⟩
  | fault => exact .inl ⟨rfl, rfl, _, rfl⟩
  | burnt => exact .inl ⟨rfl, rfl, _, rfl⟩
  | landed st h => exact .inr ⟨_, h, st, streams_create, .inr ⟨_, rfl⟩⟩

/-- Stamping nothing takes no events. -/
lemma Stamped.of_nil {id : AggregateId} {start ctx} {events : List E}
    (st : Stamped id start ctx events []) : events = [] :=
  st.payloads.symm

/-- A call after which nothing is new has failed or had nothing to write. -/
lemma Append.of_nil {faults s id expected events ctx s' r}
    (h : Append (E := E) faults s id expected events ctx s' [] r) :
    s' = s ∧ (r = .ok [] ∨ ∃ e, r = .error e) := by
  cases h with
  | nothing => exact ⟨rfl, .inl rfl⟩
  | ok st _ ne => exact absurd (Stamped.of_nil st) ne
  | conflict => exact ⟨rfl, .inr ⟨_, rfl⟩⟩
  | missing => exact ⟨rfl, .inr ⟨_, rfl⟩⟩
  | overflow => exact ⟨rfl, .inr ⟨_, rfl⟩⟩
  | fault => exact ⟨rfl, .inr ⟨_, rfl⟩⟩
  | landed st _ _ ne => exact absurd (Stamped.of_nil st) ne

/-- A call after which nothing is new has failed. -/
lemma Create.of_nil {faults s events ctx s' r} (h : Create (E := E) faults s events ctx s' [] r) :
    s'.streams = s.streams ∧ ∃ e, r = .error e := by
  cases h with
  | ok st _ ne => exact absurd (Stamped.of_nil st) ne
  | zero => exact ⟨rfl, _, rfl⟩
  | exhausted => exact ⟨rfl, _, rfl⟩
  | fault => exact ⟨rfl, _, rfl⟩
  | burnt => exact ⟨rfl, _, rfl⟩
  | landed st _ _ ne => exact absurd (Stamped.of_nil st) ne

/-- Rust `append` only adds. -/
lemma Append.grows {faults s id expected events ctx s' envs r}
    (h : Append (E := E) faults s id expected events ctx s' envs r) : s.Extends s' := by
  rcases h.inv with ⟨rfl, _⟩ | ⟨_, _, _, _, e, _⟩
  · exact .refl _
  · exact extends_update e (List.prefix_append _ _)

/-- Rust `create` only adds. -/
lemma Create.grows {faults s events ctx s' envs r}
    (h : Create (E := E) faults s events ctx s' envs r) : s.Extends s' := by
  rcases h.inv with ⟨e, _⟩ | ⟨_, _, _, e, _⟩
  · exact fun id => by rw [e]
  · exact extends_update e (List.prefix_append _ _)

section Now

variable {faults' faults : Prop}

/-- Stamp events with the sequences after `start`, as long as they fit 64 bits. The identity and
the time of an envelope are not read by anything modelled here. -/
def stampFrom (id : AggregateId) (ctx : CorrelationContext) :
    Nat → List E → Option (List (EventEnvelope E))
  | _, [] => some []
  | start, event :: events =>
    if h : start + 1 < 2 ^ 64 then
      (stampFrom id ctx (start + 1) events).map fun envs =>
        { eventId := 1
          aggregateId := id
          sequence := ⟨start + 1, Nat.succ_pos _, h⟩
          timestamp := 0
          correlationId := ctx.correlationId
          causationId := ctx.causationId
          payload := event } :: envs
    else none

lemma stampFrom_stamped {id ctx start envs} {events : List E}
    (h : stampFrom id ctx start events = some envs) : Stamped id start ctx events envs := by
  induction events generalizing start envs with
  | nil =>
    cases h
    exact ⟨rfl, by simp, by simp, by simp⟩
  | cons event events ih =>
    rw [stampFrom] at h
    split at h
    case isFalse => cases h
    case isTrue lt =>
      obtain ⟨envs, e, rfl⟩ := Option.map_eq_some_iff.mp h
      have st := ih e
      refine ⟨by simp [st.payloads], ?_, ?_, ?_⟩
      · intro n env at'
        cases n with
        | zero =>
          cases at'
          rfl
        | succ n =>
          rw [st.numbered (n := n) at']
          omega
      · intro env mem
        rcases List.mem_cons.mp mem with rfl | mem
        · rfl
        · exact st.owned mem
      · intro env mem
        rcases List.mem_cons.mp mem with rfl | mem
        · exact ⟨rfl, rfl⟩
        · exact st.correlated mem

/-- Stamping fails only for want of sequences. -/
lemma stampFrom_none {id ctx start} {events : List E}
    (h : stampFrom id ctx start events = none) : 2 ^ 64 ≤ start + events.length := by
  induction events generalizing start with
  | nil => cases h
  | cons event events ih =>
    rw [stampFrom] at h
    split at h
    case isFalse ge =>
      rw [List.length_cons]
      omega
    case isTrue lt =>
      have le := ih (Option.map_eq_none_iff.mp h)
      rw [List.length_cons]
      omega

/-- `append` of a store that does not fail on its own. -/
def appendNow (s : Store E) (id : AggregateId) (expected : NonZeroU64) (events : List E)
    (ctx : CorrelationContext) :
    Store E × List (EventEnvelope E) × Except StoreError (List (EventEnvelope E)) :=
  match events with
  | [] => (s, [], .ok [])
  | event :: rest =>
    match hl : (s.streams id).getLast? with
    | none =>
      (s, [], .error (.infrastructure
        ("cannot append to aggregate " ++ id.display ++ ": not created (use create() first)")))
    | some last =>
      if last.sequence = expected then
        match hs : stampFrom id ctx (s.streams id).length (event :: rest) with
        | some envs => (s.append (stampFrom_stamped hs) hl, envs, .ok envs)
        | none => (s, [], .error (.infrastructure "sequence overflow"))
      else (s, [], .error (.concurrencyConflict id expected last.sequence.get))

/-- `create` of a store that does not fail on its own. -/
def createNow (s : Store E) (events : List E) (ctx : CorrelationContext) :
    Store E × List (EventEnvelope E) × Except StoreError (AggregateId × List (EventEnvelope E)) :=
  match events with
  | [] => (s, [], .error (.infrastructure "cannot create aggregate with zero events"))
  | event :: rest =>
    if lt : s.nextId < 2 ^ 64 then
      let id : AggregateId := ⟨⟨s.nextId, s.positive, lt⟩⟩
      match hs : stampFrom id ctx 0 (event :: rest) with
      | some envs => (s.create (stampFrom_stamped hs) rfl, envs, .ok (id, envs))
      | none => (s, [], .error (.infrastructure "sequence overflow"))
    else (s, [], .error (.infrastructure "aggregate ID overflow"))

/-- `appendNow` obeys the contract of `append`. -/
lemma appendNow_append (s : Store E) (id expected) (events : List E) (ctx) :
    Append False s id expected events ctx (s.appendNow id expected events ctx).1
      (s.appendNow id expected events ctx).2.1 (s.appendNow id expected events ctx).2.2 := by
  cases events with
  | nil => exact .nothing rfl
  | cons event rest =>
    simp only [appendNow]
    split
    · rename_i hl
      exact .missing (by simp) (List.getLast?_eq_none_iff.mp hl)
    · rename_i last hl
      split_ifs with seq
      · split
        · rename_i hs
          exact .ok (stampFrom_stamped hs) hl (by simp) seq
        · rename_i hs
          exact .overflow (stampFrom_none hs)
      · exact .conflict (by simp) hl seq

/-- `createNow` obeys the contract of `create`. -/
lemma createNow_create (s : Store E) (events : List E) (ctx) :
    Create False s events ctx (s.createNow events ctx).1
      (s.createNow events ctx).2.1 (s.createNow events ctx).2.2 := by
  cases events with
  | nil => exact .zero rfl
  | cons event rest =>
    simp only [createNow]
    split_ifs with lt
    · split
      · rename_i hs
        exact .ok (stampFrom_stamped hs) rfl (by simp)
      · rename_i hs
        have le := stampFrom_none hs
        exact .exhausted (.inr (by omega))
    · exact .exhausted (.inl (not_lt.mp lt))

/-- What a store may do without faults it may do with them. -/
lemma Load.mono {id r} (imp : faults → faults') (h : Load faults s id r) : Load faults' s id r := by
  cases h with
  | ok => exact .ok
  | fault f => exact .fault (imp f)

lemma Append.mono {id expected events ctx envs r} (imp : faults → faults')
    (h : Append faults s id expected events ctx s' envs r) :
    Append faults' s id expected events ctx s' envs r := by
  cases h with
  | nothing e => exact .nothing e
  | ok st h ne e => exact .ok st h ne e
  | conflict ne h e => exact .conflict ne h e
  | missing ne e => exact .missing ne e
  | overflow le => exact .overflow le
  | fault f => exact .fault (imp f)
  | landed st h f ne e => exact .landed st h (imp f) ne e

lemma Create.mono {events ctx envs r} (imp : faults → faults')
    (h : Create faults s events ctx s' envs r) :
    Create faults' s events ctx s' envs r := by
  cases h with
  | ok st h ne => exact .ok st h ne
  | zero e => exact .zero e
  | exhausted le => exact .exhausted le
  | fault f => exact .fault (imp f)
  | burnt f => exact .burnt (imp f)
  | landed st h f ne => exact .landed st h (imp f) ne

/-- Without faults, the outcome of a write is known. -/
lemma Append.known {id expected events ctx envs r text}
    (h : Append False s id expected events ctx s' envs r) : r ≠ .error (.indeterminate text) := by
  rintro rfl
  cases h <;> contradiction

lemma Create.known {events ctx envs r text} (h : Create False s events ctx s' envs r) :
    r ≠ .error (.indeterminate text) := by
  rintro rfl
  cases h <;> contradiction

end Now

/-- Calls of the port (Rust `EventStore`). -/
inductive Call (E : Type) where
  | load (id : AggregateId)
  | create (events : List E) (ctx : CorrelationContext)
  | append (id : AggregateId) (expected : NonZeroU64) (events : List E) (ctx : CorrelationContext)

/-- The events of a call. -/
def Call.events : Call E → List E
  | .load _ => []
  | .create events _ | .append _ _ events _ => events

/-- The context that a call supplies. -/
def Call.context : Call E → Option CorrelationContext
  | .load _ => none
  | .create _ ctx | .append _ _ _ ctx => some ctx

/-- What a call of the port returns. -/
inductive Reply (E : Type) where
  | loaded (envs : List (EventEnvelope E))
  | created (id : AggregateId) (envs : List (EventEnvelope E))
  | appended (envs : List (EventEnvelope E))

end Store

end CherryPit
