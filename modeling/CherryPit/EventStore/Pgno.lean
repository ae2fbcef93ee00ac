import CherryPit.Conc.Handle
import CherryPit.Conc.Pool
import CherryPit.Core.Store
import CherryPit.Core.Stream
import CherryPit.Projection.Session

/-!
# The durable event store

Port of `PgnoEventStore` in `pardosa-cherry-pit-test-support/src/lib.rs`. The store keeps one log of
records for all aggregates. A stream is found by reading the whole log, and every write goes through
one session.

Calls run on any number of threads. What a call does between two of its operations is its own; an
operation is the allocation of an id, the taking or giving back of the lock of an aggregate, a
section under the session lock that reads, or one that writes. The release profile of the workspace
checks overflow, so an addition that overflows panics, and a panic poisons the lock that it leaves.

Assumed of what is outside the repository: `serde_json` and the byte values of pardosa round-trip
(`Codec`); a write that returns an error did not land, one that landed stays, and one that is
undetermined leaves its session uncertain (`Session.record`); `read_all_envelopes` returns what has
landed, in any order; `now_v7` returns identities that are not nil and that nobody has drawn before.

`Entry.writer` and the last four fields of `World` are there to speak about runs; nothing reads
them except `drawn`, for the assumption on `now_v7`.
-/

namespace CherryPit.Pgno

open Conc Store
open Projection (U64 u64 nonZero)

/-! ## Records -/

/-- Rust `i64`. -/
abbrev I64 := { n : Int // -2 ^ 63 ≤ n ∧ n < 2 ^ 63 }

/-- Rust `i64::try_from(n).unwrap_or(i64::MAX)`. -/
def i64OrMax (n : Int) : I64 :=
  if h : -2 ^ 63 ≤ n ∧ n < 2 ^ 63 then ⟨n, h⟩ else ⟨2 ^ 63 - 1, by decide⟩

/-- Rust `JsonBytes`, that is `EventBytes<{ u32::MAX as usize }>`. -/
structure JsonBytes where
  bytes : List UInt8
  le : bytes.length ≤ 2 ^ 32 - 1

/-- Rust `PgnoEnvelope`. -/
structure PgnoEnvelope (E : Type) where
  eventId : Uuid
  aggregateId : U64
  sequence : U64
  timestampNanos : I64
  correlationId : Option Uuid
  causationId : Option Uuid
  payload : E

/-- `serde_json` on records, the byte values of pardosa and `Timestamp::from_nanosecond`. -/
structure Codec (E : Type) where
  toVec : PgnoEnvelope E → Except String (List UInt8)
  fromSlice : List UInt8 → Except String (PgnoEnvelope E)
  newBytes : List UInt8 → Except String JsonBytes
  encodeType : JsonBytes → Except String (List UInt8)
  decodeType : List UInt8 → Except String (JsonBytes × Nat)
  fromNanosecond : Int → Except String Timestamp
  fromSlice_toVec : ∀ {r json}, toVec r = .ok json → fromSlice json = .ok r
  newBytes_bytes : ∀ {json b}, newBytes json = .ok b → b.bytes = json
  decodeType_encodeType : ∀ {b bytes}, encodeType b = .ok bytes →
    decodeType bytes = .ok (b, bytes.length)
  fromNanosecond_i64 : ∀ n : I64, fromNanosecond n.val = .ok n.val

/-- What is known of a write that has no clear result (Rust `WriteDiagnostic`). -/
inductive WriteDiagnostic where
  | undetermined (carriedEpoch : Nat)
  | retainedUncertainty (carriedEpoch : Nat) (diagnostic : String)
  | landed (source : String)

/-- Rust `Display for WriteDiagnostic`. -/
def WriteDiagnostic.display : WriteDiagnostic → String
  | .undetermined carriedEpoch => "write landing undetermined at epoch " ++ toString carriedEpoch
  | .retainedUncertainty carriedEpoch diagnostic =>
    "session uncertain at epoch " ++ toString carriedEpoch ++ ": " ++ diagnostic
  | .landed source => "event landed before failure: " ++ source

/-- Rust `to_store_error`. -/
def toStoreError (error : String) : StoreError := .infrastructure error

/-- Rust `after_landed`. -/
def afterLanded (error : String) : StoreError :=
  .indeterminate (WriteDiagnostic.landed error).display

/-- A record in the log of a session. `writer` is the call that wrote it. -/
structure Entry where
  key : String
  eventId : Uuid
  payload : List UInt8
  detached : Bool
  writer : Nat

section Reading

variable {E : Type} (codec : Codec E)

/-- The encoding of a record in `record_single`. -/
def encodeRecord (record : PgnoEnvelope E) : Except StoreError (List UInt8) :=
  match codec.toVec record with
  | .error e => .error (.infrastructure e)
  | .ok json =>
    match codec.newBytes json with
    | .error e => .error (toStoreError e)
    | .ok bytes => (codec.encodeType bytes).mapError toStoreError

/-- Rust `decode_record`. -/
def decodeRecord (payload : List UInt8) : Except StoreError (PgnoEnvelope E) :=
  match codec.decodeType payload with
  | .error e => .error (.corruptData e)
  | .ok (bytes, consumed) =>
    if consumed ≠ payload.length then .error (.corruptData "trailing JSON envelope bytes")
    else (codec.fromSlice bytes.bytes).mapError .corruptData

/-- One round of the loop in `ordered_stream`: the envelope that is pushed, if one is. -/
def envelopeIn (id : AggregateId) (entry : Entry) :
    Except StoreError (Option (EventEnvelope E)) :=
  if entry.detached then .ok none
  else
    match decodeRecord codec entry.payload with
    | .error e => .error e
    | .ok record =>
      if record.aggregateId = u64 id.id then
        match nonZero record.sequence with
        | none => .error (.corruptData "stored sequence must be non-zero")
        | some sequence =>
          match codec.fromNanosecond record.timestampNanos.val with
          | .error e => .error (.corruptData e)
          | .ok timestamp =>
            match EventEnvelope.new record.eventId id sequence timestamp record.correlationId
                record.causationId record.payload with
            | .error e => .error (.corruptData e.display)
            | .ok env => .ok (some env)
      else .ok none

/-- The loop in `ordered_stream`. -/
def collect (id : AggregateId) : List Entry → Except StoreError (List (EventEnvelope E))
  | [] => .ok []
  | entry :: rest =>
    match envelopeIn codec id entry with
    | .error e => .error e
    | .ok none => collect id rest
    | .ok (some env) => (collect id rest).map (env :: ·)

/-- What `ordered_stream` makes of the entries that it has read. -/
def streamIn (id : AggregateId) (entries : List Entry) :
    Except StoreError (List (EventEnvelope E)) :=
  match collect codec id entries with
  | .error e => .error e
  | .ok result =>
    let result := result.mergeSort fun a b => decide (a.sequence.get ≤ b.sequence.get)
    match EventEnvelope.validateStream id result with
    | .error e => .error (.corruptData e.display)
    | .ok () => .ok result

/-- The fold in `from_session`. -/
def maxId (entries : List Entry) : Except StoreError U64 :=
  entries.foldlM (fun maximum entry =>
    (decodeRecord codec entry.payload).map fun record => max maximum record.aggregateId) 0

end Reading

/-! ## Sessions -/

/-- A session (Rust `FileWriterSession`): what has landed, the diagnostic of an uncertain session,
the write whose landing is undetermined, and the epoch. -/
structure Session where
  log : List Entry
  uncertain : Option String
  pending : Option Entry
  epoch : Nat

/-- What a write came to (Rust `WriteLandingVerdict`), with the diagnostic that it leaves. -/
inductive Landing where
  | landed
  | undetermined (carriedEpoch : Nat) (diagnostic : String)

/-- A failed `sync` and the diagnostic that it leaves, if it does. -/
structure SyncFailure where
  error : String
  retained : Option String

/-- What the calls into pardosa of one writing section answer. -/
structure Answers where
  fiber : Except String Unit
  rescue : Except String Landing
  append : Except String Landing
  sync : Except SyncFailure Unit

namespace Session

/-- A session over a file with these entries. -/
def opened (log : List Entry) (epoch : Nat) : Session := ⟨log, none, none, epoch⟩

/-- The entries that were issued, one that may have landed included. -/
def issued (s : Session) : List Entry := s.log ++ s.pending.toList

/-- Rust `FiberHandle::is_detached` of the fiber with this key. -/
def isDetached (s : Session) (key : String) : Bool :=
  (s.log.filter (·.key = key)).getLast?.elim false (·.detached)

/-- Rust `ready_session`, as far as it does not wait for the lock. -/
def ready (s : Session) : Except StoreError Unit :=
  match s.uncertain with
  | some diagnostic =>
    .error (.indeterminate (WriteDiagnostic.retainedUncertainty s.epoch diagnostic).display)
  | none => .ok ()

/-- The session-locked part of `ordered_stream`: `entries` is what `read_all_envelopes` returns. -/
def readAll (s : Session) (entries : Except String (List Entry)) :
    Except StoreError (List Entry) :=
  match s.ready with
  | .error e => .error e
  | .ok () => entries.mapError toStoreError

/-- The session-locked part of `record_single`. -/
def record (s : Session) (a : Answers) (entry : Entry) : Session × Except StoreError Unit :=
  match s.ready with
  | .error e => (s, .error e)
  | .ok () =>
    match a.fiber with
    | .error e => (s, .error (toStoreError e))
    | .ok () =>
      match if s.isDetached entry.key then a.rescue else a.append with
      | .error e => (s, .error (toStoreError e))
      | .ok (.undetermined carriedEpoch diagnostic) =>
        ({ s with uncertain := some diagnostic, pending := some entry },
          .error (.indeterminate (WriteDiagnostic.undetermined carriedEpoch).display))
      | .ok .landed =>
        match a.sync with
        | .error failure =>
          ({ s with log := s.log ++ [entry], uncertain := failure.retained },
            .error (afterLanded failure.error))
        | .ok () => ({ s with log := s.log ++ [entry] }, .ok ())

end Session

/-! ## Calls -/

/-- How a call ends without a value. -/
inductive Failure where
  | store (e : StoreError)
  | panicked (message : String)

/-- Rust `after_landed` over the error of a call. -/
def Failure.afterLanded : Failure → Failure
  | .store e => .store (Pgno.afterLanded e.display)
  | .panicked message => .panicked message

/-- The operations of a call. -/
inductive Op where
  | ready
  | fetchAdd
  | lockAggregate (id : AggregateId)
  | unlockAggregate (id : AggregateId) (panicking : Bool)
  | uuid
  | now
  | readAll
  | record (key : String) (eventId : Uuid) (payload : List UInt8)

/-- What each of them answers; the lock of an aggregate answers whether it is poisoned. -/
@[reducible] def Op.Res : Op → Type
  | .ready => Except StoreError Unit
  | .fetchAdd => U64
  | .lockAggregate _ => Bool
  | .unlockAggregate _ _ => Unit
  | .uuid => Uuid
  | .now => Timestamp
  | .readAll => Except StoreError (List Entry)
  | .record _ _ _ => Except StoreError Unit

/-- The signature of the operations. -/
@[reducible] def sig : Sig := ⟨Op, Op.Res⟩

/-- Rust `n + 1` on `u64` with overflow checks. -/
def addOne (n : U64) : Except Failure U64 :=
  if h : n.val + 1 < 2 ^ 64 then .ok ⟨n.val + 1, h⟩
  else .error (.panicked "attempt to add with overflow")

/-- Rust `SINGLE_EVENT_ONLY`. -/
def singleEventOnly : String :=
  "PgnoEventStore accepts only single-event batches (create/append); " ++
    "multi-event atomic commit has no primitive in the pardosa substrate today " ++
    "(see bd ghr-00b572de option (a))"

/-- Rust `single_event_error`. -/
def singleEventError : StoreError := .infrastructure singleEventOnly

/-- A panic is under way. -/
def panicking {α : Type} : Except Failure α → Bool
  | .error (.panicked _) => true
  | _ => false

section Calls

variable {E α : Type} (codec : Codec E)

/-- Rust `ready_session()?`. -/
def ready : Prog sig Failure Unit := .attempt .ready (·.mapError .store)

/-- The scope of the guard of an aggregate's lock. -/
def withAggregate (id : AggregateId) (body : Prog sig Failure α) : Prog sig Failure α :=
  .op (.lockAggregate id) fun poisoned =>
    if poisoned then .raise (.panicked "aggregate lock poisoned")
    else do
      let x ← body.result
      .op (.unlockAggregate id (panicking x)) fun _ => .ofExcept x

/-- Rust `ordered_stream`. -/
def orderedStream (id : AggregateId) : Prog sig Failure (List (EventEnvelope E)) :=
  .attempt .readAll fun entries => (entries.bind (streamIn codec id)).mapError .store

/-- Rust `record_single`. -/
def recordSingle (aggregateId : U64) (eventId : Uuid) (sequence : U64)
    (correlationId causationId : Option Uuid) (payload : E) : Prog sig Failure Unit :=
  .op .now fun now =>
    match encodeRecord codec
        { eventId, aggregateId, sequence, timestampNanos := i64OrMax now, correlationId,
          causationId, payload } with
    | .error e => .raise (.store e)
    | .ok payloadBytes =>
      .attempt (.record (toString aggregateId.val) eventId payloadBytes) (·.mapError .store)

/-- Rust `PgnoEventStore::load`. -/
def load (id : AggregateId) : Prog sig Failure (List (EventEnvelope E)) := orderedStream codec id

/-- What `create` does under the lock of the aggregate. -/
def createLocked (id : AggregateId) (ctx : CorrelationContext) (payload : E) :
    Prog sig Failure (AggregateId × List (EventEnvelope E)) :=
  .op .uuid fun eventId => do
    recordSingle codec (u64 id.id) eventId 1 ctx.correlationId ctx.causationId payload
    let envelopes ← (orderedStream codec id).mapError Failure.afterLanded
    .ret (id, envelopes)

/-- Rust `PgnoEventStore::create`. -/
def create (events : List E) (ctx : CorrelationContext) :
    Prog sig Failure (AggregateId × List (EventEnvelope E)) := do
  ready
  match events with
  | _ :: _ :: _ => .raise (.store singleEventError)
  | [] => .raise (.store (.infrastructure "cannot create aggregate with zero events"))
  | [payload] =>
    .op .fetchAdd fun old => do
      let rawId ← .ofExcept (addOne old)
      match nonZero rawId with
      | none => .raise (.store (.infrastructure "aggregate ID overflow"))
      | some raw => withAggregate ⟨raw⟩ (createLocked codec ⟨raw⟩ ctx payload)

/-- What `append` does under the lock of the aggregate. -/
def appendLocked (id : AggregateId) (expected : NonZeroU64) (ctx : CorrelationContext)
    (payload : E) : Prog sig Failure (List (EventEnvelope E)) := do
  let existing ← orderedStream codec id
  if existing = [] then
    .raise (.store (.infrastructure
      ("append to aggregate AggregateId(" ++ id.display ++ ") that was never created")))
  else
    let actual := existing.getLast?.elim 0 (·.sequence.get)
    if actual ≠ expected.get then .raise (.store (.concurrencyConflict id expected actual))
    else
      .op .uuid fun eventId => do
        let sequence ← .ofExcept (addOne (u64 expected))
        recordSingle codec (u64 id.id) eventId sequence ctx.correlationId ctx.causationId payload
        let fullStream ← (orderedStream codec id).mapError Failure.afterLanded
        match fullStream.find? (·.eventId = eventId) with
        | none => .raise (.store (afterLanded "landed event absent from reloaded stream"))
        | some newEnvelope => .ret [newEnvelope]

/-- Rust `PgnoEventStore::append`. -/
def append (id : AggregateId) (expected : NonZeroU64) (events : List E)
    (ctx : CorrelationContext) : Prog sig Failure (List (EventEnvelope E)) := do
  ready
  match events with
  | _ :: _ :: _ => .raise (.store singleEventError)
  | [] => .ret []
  | [payload] => withAggregate id (appendLocked codec id expected ctx payload)

/-- The program of a call. -/
def program : Call E → Prog sig Failure (Reply E)
  | .load id => load codec id >>= fun envs => .ret (.loaded envs)
  | .create events ctx => create codec events ctx >>= fun (id, envs) => .ret (.created id envs)
  | .append id expected events ctx =>
    append codec id expected events ctx >>= fun envs => .ret (.appended envs)

end Calls

end CherryPit.Pgno
