import CherryPit.Conc.Adapter
import CherryPit.EventStore.PgnoSystem
import CherryPit.Scheduler.Dto

/-!
# Stores over the durable event store

Port of `PgnoSchedulerStore` and `PgnoSerdeStore` in
`pardosa-cherry-pit-test-support/src/scheduler_store.rs` and `serde_bridge.rs`. Both convert events
to the values that a `PgnoEventStore` keeps, call it, and convert its envelopes back; they differ in
the two conversions (`Bridge`). A conversion that fails before the call has done nothing; one that
fails after a write is reported as landed.

A bridged store is an adapter of the store behind it: every call of it is one call there
(`Bridge.program_eq`), so every run of it goes with a run of the store behind it
(`Bridge.system_matches`).
-/

namespace CherryPit.Pgno

open Conc Store

/-- The call that is made in a step. -/
def Label.made {E : Type} : Label E → Option (Nat × Call E)
  | .step l => l.made
  | .reopen => none

/-- The two conversions of a bridged store; an error of the first one is its text. -/
structure Bridge (Ev D : Type) where
  toDto : Ev → Except String D
  fromDto : D → Except StoreError Ev

namespace Bridge

variable {Ev D : Type} (b : Bridge Ev D) (codec : Codec D)

/-! ## The store -/

/-- Rust `remap_envelope`. -/
def remapEnvelope (envelope : EventEnvelope D) : Except StoreError (EventEnvelope Ev) :=
  match b.fromDto envelope.payload with
  | .error e => .error e
  | .ok payload =>
    (EventEnvelope.new envelope.eventId envelope.aggregateId envelope.sequence envelope.timestamp
      envelope.correlationId envelope.causationId payload).mapError fun e => .corruptData e.display

/-- Rust `events.iter().map(to_dto).collect().map_err(conversion_error)`. -/
def dtos (events : List Ev) : Except Failure (List D) :=
  (events.mapM b.toDto).mapError fun e => .store (.infrastructure e)

/-- Rust `envelopes.iter().map(remap_envelope).collect()`. -/
def remap (envelopes : List (EventEnvelope D)) : Except StoreError (List (EventEnvelope Ev)) :=
  envelopes.mapM b.remapEnvelope

/-- Rust `PgnoSchedulerStore::load` and `PgnoSerdeStore::load`. -/
def load (id : AggregateId) : Prog sig Failure (List (EventEnvelope Ev)) := do
  let envelopes ← Pgno.load codec id
  .ofExcept ((b.remap envelopes).mapError .store)

/-- Rust `PgnoSchedulerStore::create` and `PgnoSerdeStore::create`. -/
def create (events : List Ev) (context : CorrelationContext) :
    Prog sig Failure (AggregateId × List (EventEnvelope Ev)) := do
  let dtos ← .ofExcept (b.dtos events)
  let (id, envelopes) ← Pgno.create codec dtos context
  let remapped ← .ofExcept ((b.remap envelopes).mapError fun e => Failure.afterLanded (.store e))
  .ret (id, remapped)

/-- Rust `PgnoSchedulerStore::append` and `PgnoSerdeStore::append`. -/
def append (id : AggregateId) (expected : NonZeroU64) (events : List Ev)
    (context : CorrelationContext) : Prog sig Failure (List (EventEnvelope Ev)) := do
  let dtos ← .ofExcept (b.dtos events)
  let envelopes ← Pgno.append codec id expected dtos context
  .ofExcept ((b.remap envelopes).mapError fun e => Failure.afterLanded (.store e))

/-- The program of a call. -/
def program : Call Ev → Prog sig Failure (Reply Ev)
  | .load id => b.load codec id >>= fun envs => .ret (.loaded envs)
  | .create events ctx => b.create codec events ctx >>= fun (id, envs) => .ret (.created id envs)
  | .append id expected events ctx =>
    b.append codec id expected events ctx >>= fun envs => .ret (.appended envs)

end Bridge

/-! ## The two stores -/

/-- Rust `Display for SchedulerEventConversionError`. -/
def conversionText : Scheduler.SchedulerEventConversionError → String
  | .callerEventTypeTooLong actual =>
    "caller_event_type is " ++ toString actual ++ " bytes, exceeds bound " ++
      toString Scheduler.callerEventTypeMax
  | .payloadTooLong actual =>
    "payload is " ++ toString actual ++ " bytes, exceeds bound " ++ toString Scheduler.payloadMax

/-- The conversions of `PgnoSchedulerStore`. -/
def schedulerBridge (jiff : Scheduler.Jiff) :
    Bridge Scheduler.SchedulerEvent Scheduler.SchedulerEventDto where
  toDto event := (Scheduler.toDto event).mapError conversionText
  fromDto := Scheduler.fromDto jiff

/-- `serde_json` on the events of a caller. -/
structure Serde (Ev : Type) where
  toVec : Ev → Except String (List UInt8)
  fromSlice : List UInt8 → Except String Ev

/-- Rust `SerdeEnvelopeDto`. -/
structure SerdeEnvelopeDto where
  bytes : List UInt8

/-- Rust `SERDE_ENVELOPE_MAX`. -/
def serdeEnvelopeMax : Nat := 262144

/-- Rust `SerdeBridgeError`. -/
inductive SerdeBridgeError where
  | tooLarge (actual : Nat)
  | codec (e : String)

/-- Rust `Display for SerdeBridgeError`. -/
def SerdeBridgeError.display : SerdeBridgeError → String
  | .tooLarge actual =>
    "serde-bridge event is " ++ toString actual ++ " bytes, exceeds bound " ++
      toString serdeEnvelopeMax
  | .codec e => "serde-bridge codec error: " ++ e

section Serde

variable {Ev : Type} (serde : Serde Ev)

/-- Rust `to_dto` in `serde_bridge.rs`. -/
def Serde.toDto (event : Ev) : Except SerdeBridgeError SerdeEnvelopeDto :=
  match serde.toVec event with
  | .error e => .error (.codec e)
  | .ok json =>
    if serdeEnvelopeMax < json.length then .error (.tooLarge json.length) else .ok ⟨json⟩

/-- Rust `from_dto` in `serde_bridge.rs`. -/
def Serde.fromDto (dto : SerdeEnvelopeDto) : Except SerdeBridgeError Ev :=
  (serde.fromSlice dto.bytes).mapError .codec

/-- The conversions of `PgnoSerdeStore`. -/
def serdeBridge : Bridge Ev SerdeEnvelopeDto where
  toDto event := (serde.toDto event).mapError (·.display)
  fromDto dto := (serde.fromDto dto).mapError fun e => .infrastructure e.display

end Serde

namespace Bridge

variable {Ev D : Type} (b : Bridge Ev D) (codec : Codec D)

/-! ## The calls behind the calls -/

/-- The call of the store behind a call, and what is made of its answer. -/
def adapter : Adapter (Call Ev) (Call D) Failure Failure (Reply Ev) (Reply D) where
  ask
    | .load id => .ok (.load id)
    | .create events ctx => ((b.dtos events).mapError .error).map (.create · ctx)
    | .append id expected events ctx =>
      ((b.dtos events).mapError .error).map (.append id expected · ctx)
  answer _
    | .error f => .error f
    | .ok (.loaded envs) => ((b.remap envs).mapError .store).map .loaded
    | .ok (.created id envs) =>
      ((b.remap envs).mapError fun e => Failure.afterLanded (.store e)).map (.created id)
    | .ok (.appended envs) =>
      ((b.remap envs).mapError fun e => Failure.afterLanded (.store e)).map .appended

/-- Every call of a bridged store is one call of the store behind it. -/
lemma program_eq (c : Call Ev) : b.program codec c = b.adapter.body (Pgno.program codec) c := by
  cases c with
  | load id =>
    show (b.load codec id >>= _) = (Pgno.load codec id >>= _).finish _
    rw [Prog.finish_bind_ret _ _ fun _ => rfl, Bridge.load, Prog.bind_assoc]
    congr 1
    funext envs
    show _ = Prog.ofExcept (((b.remap envs).mapError _).map _)
    cases b.remap envs <;> rfl
  | create events ctx =>
    unfold program create Adapter.body adapter
    dsimp only
    cases b.dtos events with
    | error f => rfl
    | ok dtos =>
      show ((Pgno.create codec dtos ctx >>= _) >>= _) = (Pgno.create codec dtos ctx >>= _).finish _
      rw [Prog.finish_bind_ret _ _ fun _ => rfl, Prog.bind_assoc]
      congr 1
      funext made
      show _ = Prog.ofExcept (((b.remap made.2).mapError _).map _)
      cases b.remap made.2 <;> rfl
  | append id expected events ctx =>
    unfold program append Adapter.body adapter
    dsimp only
    cases b.dtos events with
    | error f => rfl
    | ok dtos =>
      show ((Pgno.append codec id expected dtos ctx >>= _) >>= _) =
        (Pgno.append codec id expected dtos ctx >>= _).finish _
      rw [Prog.finish_bind_ret _ _ fun _ => rfl, Prog.bind_assoc]
      congr 1
      funext envs
      show _ = Prog.ofExcept (((b.remap envs).mapError _).map _)
      cases b.remap envs <;> rfl

/-- What the operations of a call do: they are those of the call behind it. -/
def Performs : Semantics sig (Call Ev) World := fun i c w o w' r =>
  ∀ c', b.adapter.ask c = .ok c' → Pgno.Performs codec i c' w o w' r

/-- The steps of a system with a bridged store. -/
inductive SystemStep : Calls Ev → Label Ev → Calls Ev → Prop where
  | step {P l P'} :
    Pool.Step (b.Performs codec) (fun _ _ => False) (b.program codec) (fun _ => True) P l P' →
    SystemStep P (.step l) P'
  | reopen {P w} :
    Reopens codec P.world w →
    SystemStep P .reopen { world := w, slots := fun i => cut (P.slots i) }

variable {b codec}

/-- The call that is made behind a step. -/
def made (b : Bridge Ev D) : Label Ev → Option (Nat × Call D)
  | .step l => b.adapter.made l
  | .reopen => none

/-- The end of the process, for a call and the one behind it. -/
lemma behind_cut {sl : Slot sig (Call Ev) Failure (Reply Ev)}
    {sl' : Slot sig (Call D) Failure (Reply D)} (h : b.adapter.Behind sl sl') :
    b.adapter.Behind (cut sl) (cut sl') := by
  cases h with
  | idle => exact .idle
  | @answered c x asked =>
    have kept : cut (.run c (.ofExcept x)) = .run c (.ofExcept x) := by cases x <;> rfl
    rw [kept]
    exact .answered asked
  | dropped asked => exact .dropped asked
  | gone asked => exact .gone asked
  | @run c c' p asked =>
    have ended : ∀ y, p = .ofExcept y →
        b.adapter.Behind (cut (.run c (p.finish (b.adapter.answer c)))) (cut (.run c' p)) := by
      rintro y rfl
      have same : ∀ z : Except Failure (Reply Ev),
          cut (.run c (.ofExcept z)) = .run c (.ofExcept z) := by
        intro z
        cases z <;> rfl
      have kept : cut (.run c' (.ofExcept y)) = .run c' (.ofExcept y) := by cases y <;> rfl
      rw [kept, Prog.finish_ofExcept, same, ← Prog.finish_ofExcept]
      exact .run asked
    cases p with
    | ret reply => exact ended (.ok reply) rfl
    | raise f => exact ended (.error f) rfl
    | op o k => exact .gone asked

/-- A bridged store does what the store behind it does. -/
lemma system_matches :
    Matches (b.SystemStep codec) (Pgno.SystemStep codec (Pgno.Performs codec)) b.made Label.made
      b.adapter.Covers := by
  have sim : Matches
      (Pool.Step (b.Performs codec) (fun _ _ => False) (b.adapter.body (Pgno.program codec))
        fun _ => True)
      (Pool.Step (Pgno.Performs codec) (fun _ _ => False) (Pgno.program codec) fun _ => True)
      b.adapter.made Pool.Label.made b.adapter.Covers :=
    Adapter.covers_matches (fun asked ex => ex _ asked) fun _ _ => trivial
  intro P Q l P' covers st
  cases st with
  | @step l _ st =>
    rw [funext (b.program_eq codec)] at st
    obtain ⟨tr, Q', r, seen, covers'⟩ := sim covers st
    have run : Run (Pgno.SystemStep codec (Pgno.Performs codec)) Q
        (tr.filterMap fun l => some (.step l)) Q' :=
      r.seen id _ fun st => .inl ⟨_, rfl, .step st⟩
    refine ⟨_, Q', run, ?_, covers'⟩
    rw [List.filterMap_filterMap]
    exact seen
  | @reopen w reopens =>
    rw [covers.world] at reopens
    refine ⟨[.reopen], _, .cons (.reopen reopens) .nil, rfl, rfl, fun i => ?_⟩
    exact behind_cut (covers.slots i)

end Bridge

end CherryPit.Pgno
