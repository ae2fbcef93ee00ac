import CherryPit.Core.Error
import CherryPit.Projection.Session
import CherryPit.Scheduler.State

/-!
# Scheduler events as they are stored

Port of `to_dto` and `from_dto` in `pardosa-cherry-pit-test-support/src/scheduler_store.rs`: a
scheduler event is stored as a value that mirrors it field for field. Both directions copy every
field but one: `from_dto` builds a `CorrelationContext` with its public constructors, none of which
has a causation without a correlation. A context that was deserialized may be of that kind
(`Orphan`), and then it comes back empty (`preserved_iff`).

Rust → Lean: `jiff::Timestamp` is a number of nanoseconds in a range that is a parameter (`Jiff`);
`i128`, in which every such number fits, is `Int`.
-/

namespace CherryPit.Scheduler

open Projection (U64 u64 nonZero nonZero_u64 nonZero_eq_some)

variable {e : SchedulerEvent} {jiff : Jiff} {d : SchedulerEventDto} {nanos : Int} {raw : U64}

/-- The range of `jiff::Timestamp` and the text of the refusal of `from_nanosecond`. -/
structure Jiff where
  min : Timestamp
  max : Timestamp
  outOfRange : Int → String

/-- The instants of a range. -/
def Jiff.Has (jiff : Jiff) (t : Timestamp) : Prop := jiff.min ≤ t ∧ t ≤ jiff.max

instance Jiff.decidableHas (jiff : Jiff) (t : Timestamp) : Decidable (jiff.Has t) :=
  inferInstanceAs (Decidable (_ ∧ _))

/-- Rust `Timestamp::from_nanosecond`. -/
def Jiff.fromNanosecond (jiff : Jiff) (nanos : Int) : Except String Timestamp :=
  if jiff.Has nanos then .ok nanos else .error (jiff.outOfRange nanos)

/-- Rust `CALLER_EVENT_TYPE_MAX`. -/
def callerEventTypeMax : Nat := 512

/-- Rust `PAYLOAD_MAX`. -/
def payloadMax : Nat := 65536

/-- Rust `ScheduleArmedDto`. -/
structure ScheduleArmedDto where
  scheduleId : Uuid
  fireAtNanos : Int
  targetAggregate : U64
  callerEventId : Uuid
  callerEventType : String
  payload : List UInt8
  correlationId : Option Uuid
  causationId : Option Uuid

/-- Rust `ScheduleFiredDto`. -/
structure ScheduleFiredDto where
  scheduleId : Uuid
  targetAggregate : U64
  callerEventId : Uuid
  callerEventType : String
  payload : List UInt8
  correlationId : Option Uuid
  causationId : Option Uuid

/-- Rust `ScheduleCancelledDto`. -/
structure ScheduleCancelledDto where
  scheduleId : Uuid

/-- Rust `SchedulerEventDto`. -/
inductive SchedulerEventDto where
  | armed (event : ScheduleArmedDto)
  | fired (event : ScheduleFiredDto)
  | cancelled (event : ScheduleCancelledDto)

/-- Rust `SchedulerEventConversionError`. -/
inductive SchedulerEventConversionError where
  | callerEventTypeTooLong (actual : Nat)
  | payloadTooLong (actual : Nat)

/-- Rust `caller_event_type_dto`. -/
def callerEventTypeDto (value : String) : Except SchedulerEventConversionError String :=
  if callerEventTypeMax < value.utf8ByteSize then
    .error (.callerEventTypeTooLong value.utf8ByteSize)
  else .ok value

/-- Rust `payload_dto`. -/
def payloadDto (value : List UInt8) : Except SchedulerEventConversionError (List UInt8) :=
  if payloadMax < value.length then .error (.payloadTooLong value.length) else .ok value

/-- Rust `to_dto`. -/
def toDto : SchedulerEvent → Except SchedulerEventConversionError SchedulerEventDto
  | .armed armed => do
    let callerEventType ← callerEventTypeDto armed.callerEventType
    let payload ← payloadDto armed.payload
    return .armed {
      scheduleId := armed.scheduleId.uuid
      fireAtNanos := armed.fireAt
      targetAggregate := u64 armed.targetAggregate.id
      callerEventId := armed.callerEventId
      callerEventType := callerEventType
      payload := payload
      correlationId := armed.correlation.correlationId
      causationId := armed.correlation.causationId }
  | .fired fired => do
    let callerEventType ← callerEventTypeDto fired.callerEventType
    let payload ← payloadDto fired.payload
    return .fired {
      scheduleId := fired.scheduleId.uuid
      targetAggregate := u64 fired.targetAggregate.id
      callerEventId := fired.callerEventId
      callerEventType := callerEventType
      payload := payload
      correlationId := fired.correlation.correlationId
      causationId := fired.correlation.causationId }
  | .cancelled cancelled => return .cancelled ⟨cancelled.scheduleId.uuid⟩

/-- Rust `target_aggregate_from`. -/
def targetAggregateFrom (raw : U64) : Except StoreError AggregateId :=
  match nonZero raw with
  | some id => .ok ⟨id⟩
  | none => .error (.corruptData "scheduler DTO target_aggregate must be non-zero")

/-- Rust `correlation_from`. -/
def correlationFrom : Option Uuid → Option Uuid → CorrelationContext
  | some c, some k => ⟨some c, some k⟩
  | some c, none => ⟨some c, none⟩
  | none, _ => ⟨none, none⟩

/-- Rust `from_dto`. -/
def fromDto (jiff : Jiff) : SchedulerEventDto → Except StoreError SchedulerEvent
  | .armed armed => do
    let targetAggregate ← targetAggregateFrom armed.targetAggregate
    let fireAt ← (jiff.fromNanosecond armed.fireAtNanos).mapError .corruptData
    return .armed ⟨⟨armed.scheduleId⟩, fireAt, targetAggregate, armed.callerEventId,
      armed.callerEventType, armed.payload, correlationFrom armed.correlationId armed.causationId⟩
  | .fired fired => do
    let targetAggregate ← targetAggregateFrom fired.targetAggregate
    -- the instant of the synthetic schedule is dropped again
    return .fired (.fromArmed ⟨⟨fired.scheduleId⟩, 0, targetAggregate, fired.callerEventId,
      fired.callerEventType, fired.payload, correlationFrom fired.correlationId fired.causationId⟩)
  | .cancelled cancelled => return .cancelled ⟨⟨cancelled.scheduleId⟩⟩

/-! ## What is stored for an event -/

/-- The fields with a bound are within it. -/
def Fits (callerEventType : String) (payload : List UInt8) : Prop :=
  callerEventType.utf8ByteSize ≤ callerEventTypeMax ∧ payload.length ≤ payloadMax

def SchedulerEvent.Fits : SchedulerEvent → Prop
  | .armed e => Scheduler.Fits e.callerEventType e.payload
  | .fired e => Scheduler.Fits e.callerEventType e.payload
  | .cancelled _ => True

def SchedulerEventDto.Fits : SchedulerEventDto → Prop
  | .armed d => Scheduler.Fits d.callerEventType d.payload
  | .fired d => Scheduler.Fits d.callerEventType d.payload
  | .cancelled _ => True

/-- The instant of an event is one that `jiff` has. -/
def SchedulerEvent.Timed (jiff : Jiff) : SchedulerEvent → Prop
  | .armed e => jiff.Has e.fireAt
  | .fired _ | .cancelled _ => True

/-- The aggregate is not zero and the instant is one that `jiff` has. -/
def SchedulerEventDto.Legible (jiff : Jiff) : SchedulerEventDto → Prop
  | .armed d => 0 < d.targetAggregate.val ∧ jiff.Has d.fireAtNanos
  | .fired d => 0 < d.targetAggregate.val
  | .cancelled _ => True

/-- A cause without a correlation. The constructors of a context do not make one, serde does. -/
def Orphan (correlationId causationId : Option Uuid) : Prop :=
  correlationId = none ∧ causationId ≠ none

def SchedulerEvent.Orphaned : SchedulerEvent → Prop
  | .armed e => Orphan e.correlation.correlationId e.correlation.causationId
  | .fired e => Orphan e.correlation.correlationId e.correlation.causationId
  | .cancelled _ => False

def SchedulerEventDto.Orphaned : SchedulerEventDto → Prop
  | .armed d => Orphan d.correlationId d.causationId
  | .fired d => Orphan d.correlationId d.causationId
  | .cancelled _ => False

/-- The stored value with the fields of an event. -/
def mirror : SchedulerEvent → SchedulerEventDto
  | .armed e => .armed ⟨e.scheduleId.uuid, e.fireAt, u64 e.targetAggregate.id, e.callerEventId,
      e.callerEventType, e.payload, e.correlation.correlationId, e.correlation.causationId⟩
  | .fired e => .fired ⟨e.scheduleId.uuid, u64 e.targetAggregate.id, e.callerEventId,
      e.callerEventType, e.payload, e.correlation.correlationId, e.correlation.causationId⟩
  | .cancelled e => .cancelled ⟨e.scheduleId.uuid⟩

lemma callerEventTypeDto_ok {value : String} (fits : value.utf8ByteSize ≤ callerEventTypeMax) :
    callerEventTypeDto value = .ok value :=
  if_neg (Nat.not_lt.mpr fits)

lemma payloadDto_ok {value : List UInt8} (fits : value.length ≤ payloadMax) :
    payloadDto value = .ok value :=
  if_neg (Nat.not_lt.mpr fits)

/-- An event whose fields fit is stored with all its fields. -/
lemma toDto_ok (fits : e.Fits) : toDto e = .ok (mirror e) := by
  cases e with
  | armed e => simp only [toDto, callerEventTypeDto_ok fits.1, payloadDto_ok fits.2]; rfl
  | fired e => simp only [toDto, callerEventTypeDto_ok fits.1, payloadDto_ok fits.2]; rfl
  | cancelled e => rfl

/-- A field that does not fit is refused. -/
lemma refused_of_not_fits {α : Type} {callerEventType : String} {payload : List UInt8}
    {f : String → List UInt8 → α} (over' : ¬ Fits callerEventType payload) :
    ∃ error, (do
      let callerEventType ← callerEventTypeDto callerEventType
      let payload ← payloadDto payload
      return f callerEventType payload) = Except.error error := by
  by_cases long : callerEventTypeMax < callerEventType.utf8ByteSize
  · exact ⟨_, by simp only [callerEventTypeDto, if_pos long]; rfl⟩
  · have large : payloadMax < payload.length := by
      by_contra small
      exact over' ⟨Nat.not_lt.mp long, Nat.not_lt.mp small⟩
    exact ⟨_, by simp only [callerEventTypeDto, if_neg long, payloadDto, if_pos large]; rfl⟩

lemma toDto_error (over' : ¬ e.Fits) : ∃ error, toDto e = .error error := by
  cases e with
  | armed e => exact refused_of_not_fits over'
  | fired e => exact refused_of_not_fits over'
  | cancelled e => exact absurd trivial over'

/-! ## What is read back -/

/-- A context comes back as it was unless it is an orphan. -/
lemma correlationFrom_iff {correlationId causationId : Option Uuid} :
    correlationFrom correlationId causationId = ⟨correlationId, causationId⟩ ↔
      ¬ Orphan correlationId causationId := by
  cases correlationId <;> cases causationId <;> simp [correlationFrom, Orphan]

lemma targetAggregateFrom_u64 (id : AggregateId) : targetAggregateFrom (u64 id.id) = .ok id := by
  rw [targetAggregateFrom, nonZero_u64]

/-- An aggregate that is not zero. -/
lemma exists_u64 (pos : 0 < raw.val) : ∃ id : AggregateId, raw = u64 id.id :=
  ⟨⟨⟨raw.val, pos, raw.isLt⟩⟩, rfl⟩

lemma Jiff.fromNanosecond_ok (has : jiff.Has nanos) : jiff.fromNanosecond nanos = .ok nanos :=
  if_pos has

/-- A context by its two parts. -/
lemma correlationFrom_eq_iff {c : CorrelationContext} :
    correlationFrom c.correlationId c.causationId = c ↔ ¬ Orphan c.correlationId c.causationId :=
  correlationFrom_iff

/-- What is stored for an event is read back as that event, unless it is orphaned. -/
lemma fromDto_mirror (timed : e.Timed jiff) : fromDto jiff (mirror e) = .ok e ↔ ¬ e.Orphaned := by
  cases e with
  | armed e =>
    have read : fromDto jiff (mirror (.armed e)) = .ok (.armed { e with
        correlation :=
          correlationFrom e.correlation.correlationId e.correlation.causationId }) := by
      simp only [fromDto, mirror, targetAggregateFrom_u64, Jiff.fromNanosecond_ok timed]
      rfl
    rw [read, SchedulerEvent.Orphaned, ← correlationFrom_eq_iff]
    cases e
    simp
  | fired e =>
    have read : fromDto jiff (mirror (.fired e)) = .ok (.fired { e with
        correlation :=
          correlationFrom e.correlation.correlationId e.correlation.causationId }) := by
      simp only [fromDto, mirror, targetAggregateFrom_u64]
      rfl
    rw [read, SchedulerEvent.Orphaned, ← correlationFrom_eq_iff]
    cases e
    simp
  | cancelled e => exact iff_of_true rfl not_false

/-- A stored value that can be read is what is stored for the event read, unless it is orphaned. -/
lemma fromDto_of_legible (legible : d.Legible jiff) :
    ∃ e, fromDto jiff d = .ok e ∧ (e.Fits ↔ d.Fits) ∧ (mirror e = d ↔ ¬ d.Orphaned) := by
  cases d with
  | armed d =>
    obtain ⟨scheduleId, nanos, raw, callerEventId, callerEventType, payload, c, k⟩ := d
    obtain ⟨pos, has⟩ := legible
    obtain ⟨id, rfl⟩ := exists_u64 pos
    refine ⟨.armed ⟨⟨scheduleId⟩, nanos, id, callerEventId, callerEventType, payload,
      correlationFrom c k⟩, ?_, Iff.rfl, ?_⟩
    · simp only [fromDto, targetAggregateFrom_u64, Jiff.fromNanosecond_ok has]
      rfl
    · rw [SchedulerEventDto.Orphaned, ← correlationFrom_iff]
      generalize correlationFrom c k = context
      cases context
      simp [mirror]
  | fired d =>
    obtain ⟨scheduleId, raw, callerEventId, callerEventType, payload, c, k⟩ := d
    obtain ⟨id, rfl⟩ := exists_u64 legible
    refine ⟨.fired ⟨⟨scheduleId⟩, id, callerEventId, callerEventType, payload,
      correlationFrom c k⟩, ?_, Iff.rfl, ?_⟩
    · simp only [fromDto, targetAggregateFrom_u64]
      rfl
    · rw [SchedulerEventDto.Orphaned, ← correlationFrom_iff]
      generalize correlationFrom c k = context
      cases context
      simp [mirror]
  | cancelled d => exact ⟨_, rfl, Iff.rfl, iff_of_true rfl not_false⟩

lemma targetAggregateFrom_ok {id : AggregateId} (read : targetAggregateFrom raw = .ok id) :
    0 < raw.val := by
  rw [targetAggregateFrom] at read
  split at read
  next found =>
    rw [nonZero_eq_some found]
    exact NonZeroU64.pos _
  next => cases read

lemma Jiff.has_of_ok {t : Timestamp} (read : jiff.fromNanosecond nanos = .ok t) :
    jiff.Has nanos := by
  by_contra lacks
  rw [fromNanosecond, if_neg lacks] at read
  cases read

/-- Only such a value is read. -/
lemma legible_of_fromDto (read : fromDto jiff d = .ok e) : d.Legible jiff := by
  cases d with
  | armed d =>
    rcases target : targetAggregateFrom d.targetAggregate with _ | id
    · simp only [fromDto, target] at read
      cases read
    · rcases instant : jiff.fromNanosecond d.fireAtNanos with _ | t
      · simp only [fromDto, target, instant] at read
        cases read
      · exact ⟨targetAggregateFrom_ok target, Jiff.has_of_ok instant⟩
  | fired d =>
    rcases target : targetAggregateFrom d.targetAggregate with _ | id
    · simp only [fromDto, target] at read
      cases read
    · exact targetAggregateFrom_ok target
  | cancelled d => trivial

/-! ## Both directions -/

/-- An event as Rust can have it: its instant is a timestamp. -/
abbrev TimedEvent (jiff : Jiff) := { e : SchedulerEvent // e.Timed jiff }

/-- The mapping keeps an event whose fields fit and refuses any other. -/
def EventPreserved (jiff : Jiff) (e : SchedulerEvent) : Prop :=
  (e.Fits → ∃ d, toDto e = .ok d ∧ fromDto jiff d = .ok e) ∧
    (¬ e.Fits → ∃ error, toDto e = .error error)

/-- What is read from a stored value whose fields fit is stored as that value. -/
def DtoPreserved (jiff : Jiff) (d : SchedulerEventDto) : Prop :=
  d.Fits → ∀ e, fromDto jiff d = .ok e → toDto e = .ok d

/-- When the mapping of scheduler events keeps all fields: if no cause is without a
correlation. -/
theorem preserved_iff (jiff : Jiff) :
    (∀ e : TimedEvent jiff, EventPreserved jiff e.val ↔ (e.val.Fits → ¬ e.val.Orphaned)) ∧
    (∀ d, DtoPreserved jiff d ↔ (d.Fits → d.Legible jiff → ¬ d.Orphaned)) := by
  constructor
  · rintro ⟨e, timed⟩
    constructor
    · rintro ⟨kept, -⟩ fits
      obtain ⟨d, stored, read⟩ := kept fits
      cases (toDto_ok fits).symm.trans stored
      exact (fromDto_mirror timed).mp read
    · intro related
      refine ⟨?_, toDto_error⟩
      intro fits
      exact ⟨mirror e, toDto_ok fits, (fromDto_mirror timed).mpr (related fits)⟩
  · intro d
    constructor
    · intro kept fits legible
      obtain ⟨e, read, same, mirrors⟩ := fromDto_of_legible legible
      rw [← mirrors]
      exact Except.ok.inj ((toDto_ok (same.mpr fits)).symm.trans (kept fits e read))
    · intro related fits e read
      have legible := legible_of_fromDto read
      obtain ⟨e', read', same, mirrors⟩ := fromDto_of_legible legible
      cases read.symm.trans read'
      rw [toDto_ok (same.mpr fits), mirrors.mpr (related fits legible)]

/-- A fired event with a cause but no correlation. -/
def orphan : ScheduleFired := ⟨⟨1⟩, ⟨.min⟩, 2, "order.expired", [], ⟨none, some 3⟩⟩

/-- Its cause is lost on the way through the store, in both directions. -/
theorem orphan_loses_cause : (SchedulerEvent.fired orphan).Fits ∧
    ∀ jiff, ∃ d e, toDto (.fired orphan) = .ok d ∧ fromDto jiff d = .ok (.fired e) ∧
      e.correlation = ⟨none, none⟩ ∧ toDto (.fired e) ≠ .ok d := by
  have fits : (SchedulerEvent.fired orphan).Fits := ⟨by decide, by decide⟩
  refine ⟨fits, fun jiff => ?_⟩
  refine ⟨_, { orphan with correlation := ⟨none, none⟩ }, toDto_ok fits, rfl, rfl, ?_⟩
  intro stored
  cases stored

end CherryPit.Scheduler
