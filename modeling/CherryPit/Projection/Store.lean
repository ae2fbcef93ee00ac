import CherryPit.Conc.Handle
import CherryPit.Projection.Session

/-!
# The pardosa projection store

Port of `PardosaProjectionStore` (`pardosa-cherry-pit-projection/src/lib.rs`): programs over the
operations of a session. A boxed error of a library is its text. `serde_json` is a `Codec` for the
projection type, of which only that what it writes can be read back is assumed.

`withSession` is the scope of a guard: it is dropped when the scope is left, by an error too. The
reads of a load are also given as functions of the log (`checkpointIn`, `snapshotIn`).
-/

namespace CherryPit.Projection

open Conc

/-- Rust `WriteDiagnostic`. -/
inductive WriteDiagnostic where
  | undetermined (carriedEpoch : Nat)
  | retainedUncertainty (carriedEpoch : Nat) (diagnostic : String)
  | snapshotLanded (source : ProjectionError WriteDiagnostic)
  | checkpointLanded (source : String)
  | checkpointRemoved (source : ProjectionError WriteDiagnostic)
  | snapshotRemoved (source : String)

/-- Rust `ProjectionResult`. -/
abbrev ProjectionResult := Except (ProjectionError WriteDiagnostic)

/-- Rust `ProjectionCheckpoint`. -/
structure ProjectionCheckpoint where
  aggregateId : AggregateId
  projectionName : String
  lastSequence : NonZeroU64

/-- The serialization of a projection (Rust `serde_json::to_vec` and `from_slice`), and the text of
the refusal of too many bytes (Rust `EventBytes::new`). A projection need not come back as it was:
serde may skip fields. -/
structure Codec (P : Type) where
  toVec : P → Except String (List UInt8)
  fromSlice : List UInt8 → Except String P
  restored : P → P
  fromSlice_toVec : ∀ {p json}, toVec p = .ok json → fromSlice json = .ok (restored p)
  oversize : Nat → String

variable {P : Type} (codec : Codec P) (name : String)

/-- Rust `encode_snapshot`. -/
def encodeSnapshot (projection : P) : ProjectionResult SnapshotBytes :=
  match codec.toVec projection with
  | .error e => .error (.infrastructure e)
  | .ok json =>
    if small : json.length ≤ snapshotBytesMax then .ok ⟨json, small⟩
    else .error (.infrastructure (codec.oversize json.length))

/-- Rust `decode_snapshot`. -/
def decodeSnapshot (bytes : SnapshotBytes) : ProjectionResult P :=
  (codec.fromSlice bytes.val).mapError .corruptData

variable {codec} in
lemma decodeSnapshot_encodeSnapshot {p : P} {bytes : SnapshotBytes}
    (e : encodeSnapshot codec p = .ok bytes) :
    decodeSnapshot codec bytes = .ok (codec.restored p) := by
  unfold encodeSnapshot at e
  split at e
  · cases e
  · rename_i json written
    split at e
    · cases e
      simp only [decodeSnapshot, codec.fromSlice_toVec written, Except.mapError]
    · cases e

/-- Programs of the store. -/
abbrev StoreProg := Prog sessionSig (ProjectionError WriteDiagnostic)

/-- Rust `to_infra`. -/
def toInfra {α : Type} (r : Except String α) : ProjectionResult α := r.mapError .infrastructure

/-- Rust `require_landed`. -/
def requireLanded : Verdict → ProjectionResult Unit
  | .landed => .ok ()
  | .undetermined carriedEpoch => .error (.indeterminate (.undetermined carriedEpoch))

/-- Rust `PardosaProjectionStore::ready_session`. -/
def readySession (mutable : Bool) : StoreProg Unit :=
  .op (.lock mutable) fun
    | .poisoned => .raise (.infrastructure "session mutex poisoned")
    | .locked none => .ret ()
    | .locked (some (carriedEpoch, diagnostic)) =>
      .op .unlock fun _ =>
        .raise (.indeterminate (.retainedUncertainty carriedEpoch diagnostic))

/-- The scope of the guard of `readySession`. -/
def withSession {α : Type} (mutable : Bool) (body : StoreProg α) : StoreProg α := do
  readySession mutable
  let result ← body.result
  .op .unlock fun _ => .ofExcept result

/-! ## Loads -/

/-- The checkpoint in a payload. -/
def checkpointOf (id : AggregateId) : Payload → ProjectionResult (Option ProjectionCheckpoint)
  | .error e => .error (.infrastructure e)
  | .ok (.checkpoint foundAggregateId projectionName lastSequence) =>
    match nonZero lastSequence with
    | none => .error (.corruptData "checkpoint sequence must be non-zero")
    | some lastSequence =>
      match nonZero foundAggregateId with
      | none => .error (.corruptData "checkpoint aggregate id must be non-zero")
      | some foundAggregateId =>
        if (⟨foundAggregateId⟩ : AggregateId) ≠ id ∨ projectionName ≠ name then
          .error (.corruptData "checkpoint identity mismatch")
        else .ok (some ⟨⟨foundAggregateId⟩, projectionName, lastSequence⟩)
  | .ok _ => .ok none

/-- The projection in a payload. -/
def snapshotOf : Payload → ProjectionResult (Option P)
  | .error e => .error (.infrastructure e)
  | .ok (.snapshot _ _ bytes) => (decodeSnapshot codec bytes).map some
  | .ok _ => .ok none

/-- Read the live record of a fiber. -/
def readFiber {α : Type} (key : String) (decode : Payload → ProjectionResult (Option α)) :
    StoreProg (Option α) := do
  let handle ← .attempt (.fiber key) toInfra
  if handle = .active then
    let env ← .attempt (.getLatest key) toInfra
    match env with
    | some payload => .ofExcept (decode payload)
    | none => return none
  else return none

/-- Rust `PardosaProjectionStore::load_checkpoint_from_session`. -/
def loadCheckpointFromSession (id : AggregateId) : StoreProg (Option ProjectionCheckpoint) :=
  readFiber (checkpointKey id name) (checkpointOf name id)

/-- Rust `PardosaProjectionStore::load_checkpoint`. -/
def loadCheckpoint (id : AggregateId) : StoreProg (Option ProjectionCheckpoint) :=
  withSession false (loadCheckpointFromSession name id)

/-- Rust `PardosaProjectionStore::load_snapshot`. -/
def loadSnapshot (id : AggregateId) : StoreProg (Option P) :=
  withSession false (readFiber (snapshotKey id name) (snapshotOf codec))

/-- What `readFiber` reads from a log. -/
def fiberIn {α : Type} (log : List (Write P)) (key : String)
    (decode : Payload → ProjectionResult (Option α)) : ProjectionResult (Option α) :=
  if fiberState log key = .active then
    match latest log key with
    | some payload => decode payload
    | none => .ok none
  else .ok none

/-- The checkpoint that a log shows. -/
def checkpointIn (id : AggregateId) (log : List (Write P)) :
    ProjectionResult (Option ProjectionCheckpoint) :=
  fiberIn log (checkpointKey id name) (checkpointOf name id)

/-- The projection that a log shows. -/
def snapshotIn (id : AggregateId) (log : List (Write P)) : ProjectionResult (Option P) :=
  fiberIn log (snapshotKey id name) (snapshotOf codec)

/-! ## Writes -/

/-- How `persist` writes to a fiber in this state. -/
def FiberState.writeKind (handle : FiberState) : WriteKind :=
  if handle = .detached then .rescue else .append

/-- Write a record to a fiber, detached or not. -/
def writeFiber (key : String) (record : Record) : StoreProg Unit := do
  let handle ← .attempt (.fiber key) toInfra
  let verdict ← .attempt (.write handle.writeKind key record) toInfra
  .ofExcept (requireLanded verdict)

/-- Rust `CheckpointRegression`: the check of `persist`. -/
def checkRegression (lastSequence : NonZeroU64) :
    Option ProjectionCheckpoint → ProjectionResult Unit
  | none => .ok ()
  | some existing =>
    if lastSequence.get < existing.lastSequence.get then
      .error (.checkpointRegression existing.lastSequence lastSequence)
    else .ok ()

/-- The record of a snapshot. -/
def snapshotRecord (id : AggregateId) (bytes : SnapshotBytes) : Record :=
  .snapshot (u64 id.id) name bytes

/-- The record of a checkpoint. -/
def checkpointRecord (id : AggregateId) (lastSequence : NonZeroU64) : Record :=
  .checkpoint (u64 id.id) name (u64 lastSequence)

/-- What `persist` does with the session. -/
def persistLocked (id : AggregateId) (bytes : SnapshotBytes) (lastSequence : NonZeroU64) :
    StoreProg Unit := do
  let existing ← loadCheckpointFromSession name id
  .ofExcept (checkRegression lastSequence existing)
  writeFiber (snapshotKey id name) (snapshotRecord name id bytes)
  (writeFiber (checkpointKey id name) (checkpointRecord name id lastSequence)).mapError
    fun error => .indeterminate (.snapshotLanded error)
  .attempt .sync fun r => r.mapError fun failure =>
    .indeterminate (.checkpointLanded failure.error)

/-- Rust `PardosaProjectionStore::persist`. -/
def persist (id : AggregateId) (projection : P) (lastSequence : NonZeroU64) : StoreProg Unit := do
  withSession false (.ret ())
  let bytes ← .ofExcept (encodeSnapshot codec projection)
  .attempt (.encodePayload (snapshotRecord name id bytes)) toInfra
  .attempt (.encodePayload (checkpointRecord name id lastSequence)) toInfra
  withSession true (persistLocked name id bytes lastSequence)

/-- Rust `KIND_SNAPSHOT`. -/
def kindSnapshot : UInt8 := 0

/-- Rust `KIND_CHECKPOINT`. -/
def kindCheckpoint : UInt8 := 1

/-- Detach a fiber if it is active. -/
def detachFiber (handle : FiberState) (key : String) (tombstone : Record) : StoreProg Unit :=
  if handle = .active then do
    .attempt (.encodePayload tombstone) toInfra
    let verdict ← .attempt (.write .detach key tombstone) toInfra
    .ofExcept (requireLanded verdict)
  else return ()

/-- What `delete` does after the checkpoint (Rust `remaining`). -/
def deleteRemaining (id : AggregateId) : StoreProg Unit := do
  let snapHandle ← .attempt (.fiber (snapshotKey id name)) toInfra
  detachFiber snapHandle (snapshotKey id name) (.tombstone (u64 id.id) name kindSnapshot)
  .attempt .sync fun r => r.mapError fun failure =>
    if snapHandle = .active then .indeterminate (.snapshotRemoved failure.error)
    else .infrastructure failure.error

/-- What `delete` does with the session. -/
def deleteLocked (id : AggregateId) : StoreProg Unit := do
  let checkHandle ← .attempt (.fiber (checkpointKey id name)) toInfra
  detachFiber checkHandle (checkpointKey id name) (.tombstone (u64 id.id) name kindCheckpoint)
  (deleteRemaining name id).mapError fun error =>
    if checkHandle = .active then .indeterminate (.checkpointRemoved error) else error

/-- Rust `PardosaProjectionStore::delete`. -/
def delete (id : AggregateId) : StoreProg Unit :=
  withSession true (deleteLocked name id)

/-! ## Calls -/

/-- What a call returns. -/
inductive Reply (P : Type) where
  | done
  | snapshot (projection : Option P)
  | checkpoint (checkpoint : Option ProjectionCheckpoint)

/-- The program of a call. -/
def program : Call P → StoreProg (Reply P)
  | .persist id projection lastSequence => do
    persist codec name id projection lastSequence
    return .done
  | .delete id => do
    delete name id
    return .done
  | .loadSnapshot id => do
    let projection ← loadSnapshot codec name id
    return .snapshot projection
  | .loadCheckpoint id => do
    let checkpoint ← loadCheckpoint name id
    return .checkpoint checkpoint

/-- A store in use: any calls, interleaved, each of which may be abandoned. -/
abbrev Store (P : Type) :=
  Pool sessionSig (Call P) (World P) (ProjectionError WriteDiagnostic) (Reply P)

/-- Steps of a store that takes these calls. -/
abbrev StoreStep (may : Call P → Prop) :=
  Pool.Step (α := Reply P) Performs (fun _ _ => False) (program codec name) may

end CherryPit.Projection
