import CherryPit.Conc.Run
import CherryPit.Core.Store
import CherryPit.Core.Stream

/-!
# The in-memory event store

Port of `InMemoryEventStore` and `build_envelopes` in `cherry-pit-core/src/testing.rs`. Every call
holds the mutex from its first look at the state to its last, so a call is one step and an
interleaving of the calls of any number of clients is a sequence of calls.

Rust → Lean: a `HashMap` is a function to `Option`; `Clock` is what `Timestamp::now` and the calls
of `Uuid::now_v7` of one call answer. A step of the store assumes of `now_v7` that it answers
identities that are not nil, differ from each other and are not in the store (`Fresh`).
-/

namespace CherryPit.InMemory

open Conc Store

variable {E : Type}

/-- Rust `EventStoreState`. -/
structure EventStoreState (E : Type) where
  streams : AggregateId → Option (List (EventEnvelope E))
  nextId : NonZeroU64

/-- Rust `InMemoryEventStore::new`. -/
def EventStoreState.new : EventStoreState E := ⟨fun _ => none, .min⟩

/-- The time of a call and the identities it draws. -/
structure Clock where
  now : Timestamp
  uuid : Nat → Uuid

/-- The loop of `build_envelopes`, at event number `i`. -/
def buildFrom (id : AggregateId) (startSequence : Nat) (ctx : CorrelationContext) (clock : Clock) :
    Nat → List E → Except StoreError (List (EventEnvelope E))
  | _, [] => .ok []
  | i, payload :: rest =>
    if fits : startSequence + min i (2 ^ 64 - 1) + 1 < 2 ^ 64 then
      match EventEnvelope.new (clock.uuid i) id
          ⟨startSequence + min i (2 ^ 64 - 1) + 1, Nat.succ_pos _, fits⟩
          clock.now ctx.correlationId ctx.causationId payload with
      | .error e => .error (.infrastructure e.display)
      | .ok envelope => (buildFrom id startSequence ctx clock (i + 1) rest).map (envelope :: ·)
    else .error (.infrastructure "sequence overflow")

/-- Rust `build_envelopes`. -/
def buildEnvelopes (id : AggregateId) (startSequence : Nat) (events : List E)
    (ctx : CorrelationContext) (clock : Clock) : Except StoreError (List (EventEnvelope E)) :=
  buildFrom id startSequence ctx clock 0 events

/-- Rust `InMemoryEventStore::load`. -/
def load (s : EventStoreState E) (id : AggregateId) :
    Except StoreError (List (EventEnvelope E)) :=
  let stream := (s.streams id).getD []
  match EventEnvelope.validateStream id stream with
  | .error e => .error (.corruptData e.display)
  | .ok () => .ok stream

/-- Rust `InMemoryEventStore::create`. -/
def create (s : EventStoreState E) (events : List E) (ctx : CorrelationContext) (clock : Clock) :
    EventStoreState E × Except StoreError (AggregateId × List (EventEnvelope E)) :=
  if events = [] then (s, .error (.infrastructure "cannot create aggregate with zero events"))
  else
    let id : AggregateId := ⟨s.nextId⟩
    if fits : s.nextId.get + 1 < 2 ^ 64 then
      let s := { s with nextId := ⟨s.nextId.get + 1, Nat.succ_pos _, fits⟩ }
      match buildEnvelopes id 0 events ctx clock with
      | .error e => (s, .error e)
      | .ok envelopes =>
        ({ s with streams := Function.update s.streams id (some envelopes) }, .ok (id, envelopes))
    else (s, .error (.infrastructure "aggregate ID overflow"))

/-- The sequence of the last envelope, zero if there is none. -/
def lastSequence (stream : List (EventEnvelope E)) : Nat :=
  stream.getLast?.elim 0 (·.sequence.get)

/-- Rust `InMemoryEventStore::append`. -/
def append (s : EventStoreState E) (id : AggregateId) (expected : NonZeroU64) (events : List E)
    (ctx : CorrelationContext) (clock : Clock) :
    EventStoreState E × Except StoreError (List (EventEnvelope E)) :=
  if events = [] then (s, .ok [])
  else
    match s.streams id with
    | none =>
      (s, .error (.infrastructure
        ("cannot append to aggregate " ++ id.display ++ ": not created (use create() first)")))
    | some stream =>
      if lastSequence stream ≠ expected.get then
        (s, .error (.concurrencyConflict id expected (lastSequence stream)))
      else
        match buildEnvelopes id expected.get events ctx clock with
        | .error e => (s, .error e)
        | .ok envelopes =>
          ({ s with streams := Function.update s.streams id (some (stream ++ envelopes)) },
            .ok envelopes)

/-- A call of the store. -/
def perform (s : EventStoreState E) (clock : Clock) :
    Call E → EventStoreState E × Except StoreError (Reply E)
  | .load id => (s, (load s id).map .loaded)
  | .create events ctx =>
    let (s, answer) := create s events ctx clock
    (s, answer.map fun (id, envs) => .created id envs)
  | .append id expected events ctx =>
    let (s, answer) := append s id expected events ctx clock
    (s, answer.map .appended)

/-- What is assumed of `now_v7`, for a call that draws `n` identities. -/
structure Fresh (s : EventStoreState E) (clock : Clock) (n : Nat) : Prop where
  named : ∀ i < n, clock.uuid i ≠ 0
  distinct : ∀ i < n, ∀ j < n, clock.uuid i = clock.uuid j → i = j
  unused : ∀ i < n, ∀ id stream, s.streams id = some stream →
    ∀ env ∈ stream, env.eventId ≠ clock.uuid i

lemma Fresh.drawn {s : EventStoreState E} {clock : Clock} {n : Nat} (fresh : Fresh s clock n) :
    ∀ j, 0 ≤ j → j < 0 + n → clock.uuid j ≠ 0 := by
  intro j _ lt
  exact fresh.named j (by omega)

/-- A call that was made and what it returned. -/
structure Done (E : Type) where
  call : Call E
  answer : Except StoreError (Reply E)

/-- Steps of the store. -/
inductive StoreStep : EventStoreState E → Done E → EventStoreState E → Prop where
  | call {s c clock} :
    Fresh s clock c.events.length →
    StoreStep s ⟨c, (perform s clock c).2⟩ (perform s clock c).1

/-! ## What a call does -/

section Build

variable {id : AggregateId} {start i : Nat} {ctx : CorrelationContext} {clock : Clock}
  {events : List E} {envs : List (EventEnvelope E)}

/-- The envelopes of a batch carry the identities in the order in which they are drawn. -/
structure Built (id : AggregateId) (start : Nat) (ctx : CorrelationContext) (clock : Clock)
    (i : Nat) (events : List E) (envs : List (EventEnvelope E)) : Prop where
  stamped : Stamped id (start + i) ctx events envs
  drawn : envs.map (·.eventId) = (List.range' i events.length).map clock.uuid

lemma Built.nil : Built id start ctx clock i ([] : List E) [] :=
  ⟨⟨rfl, by simp, by simp, by simp⟩, rfl⟩

lemma Built.cons {payload : E} {env : EventEnvelope E}
    (h : Built id start ctx clock (i + 1) events envs) (eventId : env.eventId = clock.uuid i)
    (owned : env.aggregateId = id) (number : env.sequence.get = start + i + 1)
    (correlation : env.correlationId = ctx.correlationId)
    (causation : env.causationId = ctx.causationId) (carries : env.payload = payload) :
    Built id start ctx clock i (payload :: events) (env :: envs) := by
  obtain ⟨⟨payloads, numbered, owneds, correlated⟩, drawn⟩ := h
  refine ⟨⟨by simp [payloads, carries], ?_, by simp_all, by simp_all⟩, ?_⟩
  · intro n env' at'
    cases n with
    | zero =>
      cases at'
      exact number
    | succ n =>
      rw [numbered (n := n) at']
      omega
  · rw [List.map_cons, eventId, drawn]
    rfl

/-- What is built, and when: only for want of sequences is nothing built. -/
lemma buildFrom_spec (id : AggregateId) (start : Nat) (ctx : CorrelationContext) (events : List E)
    (named : ∀ j, i ≤ j → j < i + events.length → clock.uuid j ≠ 0)
    (small : start + i < 2 ^ 64) :
    (∃ envs, buildFrom id start ctx clock i events = .ok envs ∧
      Built id start ctx clock i events envs ∧ start + i + events.length < 2 ^ 64) ∨
    (buildFrom id start ctx clock i events = .error (.infrastructure "sequence overflow") ∧
      2 ^ 64 ≤ start + i + events.length) := by
  induction events generalizing i with
  | nil => exact .inl ⟨[], rfl, .nil, small⟩
  | cons payload events ih =>
    rw [List.length_cons] at named ⊢
    have least : min i (2 ^ 64 - 1) = i := by omega
    rw [buildFrom]
    split
    · rename_i fits
      rw [least] at fits
      rw [EventEnvelope.new_eq_ok (named i le_rfl (by omega))]
      rcases ih (i := i + 1) (fun j ge lt => named j (by omega) (by omega)) (by omega) with
        ⟨envs, e, built, room⟩ | ⟨e, full⟩
      · refine .inl ⟨_, by rw [e]; rfl, built.cons rfl rfl ?_ rfl rfl rfl, by omega⟩
        simp only [least]
      · exact .inr ⟨by rw [e]; rfl, by omega⟩
    · rename_i over'
      rw [least] at over'
      exact .inr ⟨rfl, by omega⟩

end Build

end CherryPit.InMemory
