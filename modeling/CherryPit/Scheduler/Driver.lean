import CherryPit.Conc.Prog
import CherryPit.Core.Error
import CherryPit.Scheduler.State

/-!
# The durable scheduler driver

Port of `cherry-pit-app/src/scheduler.rs`: `DurableScheduler` over a scheduler store, a target
store and a bus. Each `.await` on one of the three is one operation of the program; everything
between two of them is a pure computation on what was loaded. `?` is the error case of `Prog`.

Rust → Lean: `append_scheduler` → `appendScheduler`, `fire_schedule` → `fireSchedule`,
`complete_fired` → `completeFired`, `recover_due` → `recoverDue`. A decoder error is its text.
-/

namespace CherryPit.Scheduler

open Conc

/-- Domain events that expose the identity carried by a scheduler fact. -/
class ScheduledDomainEvent (E : Type) where
  scheduledEventId : E → Uuid

export ScheduledDomainEvent (scheduledEventId)

/-- The awaits of the driver. -/
inductive DriverOp (E : Type) where
  | schedulerLoad (id : AggregateId)
  | schedulerAppend (id : AggregateId) (expected : NonZeroU64) (events : List SchedulerEvent)
      (context : CorrelationContext)
  | schedulerCreate (events : List SchedulerEvent) (context : CorrelationContext)
  | targetLoad (id : AggregateId)
  | targetAppend (id : AggregateId) (expected : NonZeroU64) (events : List E)
      (context : CorrelationContext)
  | publish (envelopes : List (EventEnvelope E))

/-- What each await answers. -/
@[reducible] def DriverOp.Res {E : Type} : DriverOp E → Type
  | .schedulerLoad _ => Except StoreError (List (EventEnvelope SchedulerEvent))
  | .schedulerAppend _ _ _ _ => Except StoreError (List (EventEnvelope SchedulerEvent))
  | .schedulerCreate _ _ =>
    Except StoreError (AggregateId × List (EventEnvelope SchedulerEvent))
  | .targetLoad _ => Except StoreError (List (EventEnvelope E))
  | .targetAppend _ _ _ _ => Except StoreError (List (EventEnvelope E))
  | .publish _ => Except BusError Unit

/-- The signature of the driver's awaits. -/
@[reducible] def driverSig (E : Type) : Sig := ⟨DriverOp E, DriverOp.Res⟩

/-- An `async fn` of the driver. -/
abbrev Driver (E α : Type) := Prog (driverSig E) AgentError α

/-- Rust `ScheduleFireOutcome`. -/
inductive ScheduleFireOutcome where
  | fired
  | terminal
  | unknown
  | notDue
  deriving DecidableEq

/-- Rust `ScheduleRecoveryReport`. -/
structure ScheduleRecoveryReport where
  fired : Nat := 0
  completed : Nat := 0
  deriving DecidableEq

/-- Rust `DurableScheduler`: of its fields only the decoder is not one of the shared stores. -/
structure DurableScheduler (E : Type) where
  decode : ScheduleFired → Except String E

namespace DurableScheduler

variable {E : Type}

/-- Rust `DurableScheduler::singleton_stream`. -/
def singletonStream : AggregateId := ⟨.min⟩

/-- `self.scheduler_store.load(id).await?` -/
def schedulerLoad (id : AggregateId) : Driver E (List (EventEnvelope SchedulerEvent)) :=
  .attempt (.schedulerLoad id) (·.mapError .store)

/-- `self.scheduler_store.append(id, expected, events, context).await?` -/
def schedulerAppend (id : AggregateId) (expected : NonZeroU64) (events : List SchedulerEvent)
    (context : CorrelationContext) : Driver E (List (EventEnvelope SchedulerEvent)) :=
  .attempt (.schedulerAppend id expected events context) (·.mapError .store)

/-- `self.scheduler_store.create(events, context).await?` -/
def schedulerCreate (events : List SchedulerEvent) (context : CorrelationContext) :
    Driver E (AggregateId × List (EventEnvelope SchedulerEvent)) :=
  .attempt (.schedulerCreate events context) (·.mapError .store)

/-- `self.target_store.load(id).await?` -/
def targetLoad (id : AggregateId) : Driver E (List (EventEnvelope E)) :=
  .attempt (.targetLoad id) (·.mapError .store)

/-- `self.target_store.append(id, expected, events, context).await?` -/
def targetAppend (id : AggregateId) (expected : NonZeroU64) (events : List E)
    (context : CorrelationContext) : Driver E (List (EventEnvelope E)) :=
  .attempt (.targetAppend id expected events context) (·.mapError .store)

/-- `self.target_bus.publish(&envelopes).await?` -/
def publish (envelopes : List (EventEnvelope E)) : Driver E Unit :=
  .attempt (.publish envelopes) (·.mapError .bus)

/-- Rust `DurableScheduler::append_scheduler`. -/
def appendScheduler (event : SchedulerEvent) (context : CorrelationContext) :
    Driver E Unit := do
  let stream := singletonStream
  let history ← schedulerLoad stream
  match history.getLast? with
  | some last =>
    let _ ← schedulerAppend stream last.sequence [event] context
    return ()
  | none =>
    let (created, _) ← schedulerCreate [event] context
    if created ≠ stream then
      .raise (.store (.infrastructure
        ("scheduler stream must be " ++ stream.display ++ ", got " ++ created.display)))
    else
      return ()

/-- Rust `DurableScheduler::arm`. -/
def arm (_ : DurableScheduler E) (event : ScheduleArmed) : Driver E Unit :=
  appendScheduler (.armed event) event.correlation

/-- Rust `DurableScheduler::cancel`. -/
def cancel (_ : DurableScheduler E) (event : ScheduleCancelled) (context : CorrelationContext) :
    Driver E Unit :=
  appendScheduler (.cancelled event) context

variable [ScheduledDomainEvent E]

/-- The caller event of a fired schedule is in a history. -/
def delivered (callerEventId : Uuid) (history : List (EventEnvelope E)) : Bool :=
  history.any fun env => scheduledEventId env.payload == callerEventId

/-- Rust `DurableScheduler::complete_fired`. -/
def completeFired (d : DurableScheduler E) (fired : ScheduleFired) : Driver E Bool := do
  let history ← targetLoad fired.targetAggregate
  if delivered fired.callerEventId history then
    -- an earlier attempt got as far as the append
    return false
  else
    match d.decode fired with
    | .error err => .raise (.policy err)
    | .ok event =>
      match history.getLast? with
      | none =>
        .raise (.store (.infrastructure
          ("target aggregate " ++ fired.targetAggregate.display ++ " is empty for schedule " ++
            fired.scheduleId.uuid.display)))
      | some last =>
        let envelopes ←
          targetAppend fired.targetAggregate last.sequence [event] fired.correlation
        publish envelopes
        return true

/-- Rust `DurableScheduler::fire_schedule`. -/
def fireSchedule (d : DurableScheduler E) (scheduleId : ScheduleId) (now : Timestamp) :
    Driver E ScheduleFireOutcome := do
  let stream := singletonStream
  let history ← schedulerLoad stream
  let state := SchedulerState.fromHistory history
  if (state.firedSchedule scheduleId).isSome || state.isCancelled scheduleId then
    return .terminal
  else
    match state.pendingSchedule scheduleId with
    | none => return .unknown
    | some armed =>
      if armed.fireAt > now then
        return .notDue
      else
        match history.getLast? with
        -- not reached: what is pending has an `Armed` fact in the history
        | none => return .unknown
        | some last =>
          let fired := ScheduleFired.fromArmed armed
          let _ ← schedulerAppend stream last.sequence [.fired fired] fired.correlation
          let _ ← d.completeFired fired
          return .fired

/-- Rust `DurableScheduler::recover_due`: the first loop completes what has fired, the second
fires what is due. -/
def recoverDue (d : DurableScheduler E) (now : Timestamp) :
    Driver E ScheduleRecoveryReport := do
  let history ← schedulerLoad singletonStream
  let state := SchedulerState.fromHistory history
  let report ← state.fired.foldlM
    (fun (report : ScheduleRecoveryReport) fired => do
      if ← d.completeFired fired then
        return { report with completed := report.completed + 1 }
      else
        return report) {}
  -- the ids are those of the history loaded above; each round replays the stream anew
  let due := (state.duePending now).map (·.scheduleId)
  due.foldlM
    (fun (report : ScheduleRecoveryReport) scheduleId => do
      if (← d.fireSchedule scheduleId now) = .fired then
        return { fired := report.fired + 1, completed := report.completed + 1 }
      else
        return report) report

end DurableScheduler

end CherryPit.Scheduler
