import CherryPit.Core.Event
import Std.Data.TreeMap.Lemmas
import Std.Data.TreeSet.Lemmas

/-!
# Scheduler facts and their replay

Port of `cherry-pit-core/src/scheduler.rs`: the three facts of the scheduler stream and the state
`SchedulerState::from_history` folds them into. `BTreeMap` and `BTreeSet` are `Std.TreeMap` and
`Std.TreeSet`, so `fired` and `duePending` iterate in the order of the keys.

The fold updates its three components asymmetrically: `Armed` clears a cancellation but not a fire,
`Fired` and `Cancelled` both end what is pending. `pendingSchedule_eq_some`,
`firedSchedule_eq_none` and `isCancelled_eq_false` say in terms of the history what each component
holds; everything later is proved from them.
-/

namespace CherryPit.Scheduler

open Std

/-- Stable identity for one durable schedule (Rust `ScheduleId`). -/
structure ScheduleId where
  uuid : Uuid
  deriving DecidableEq

instance : Ord ScheduleId := ⟨fun a b => compare a.uuid b.uuid⟩

instance : TransOrd ScheduleId := inferInstanceAs (TransCmp (compareOn ScheduleId.uuid))

instance : LawfulEqOrd ScheduleId where
  eq_of_compare {a b} h := by
    cases a
    cases b
    congr 1
    exact LawfulEqOrd.eq_of_compare h

/-- A caller event must fire at `fireAt` (Rust `ScheduleArmed`). -/
structure ScheduleArmed where
  scheduleId : ScheduleId
  fireAt : Timestamp
  targetAggregate : AggregateId
  callerEventId : Uuid
  callerEventType : String
  payload : List UInt8
  correlation : CorrelationContext
  deriving DecidableEq

/-- The scheduler decided to fire a schedule (Rust `ScheduleFired`). -/
structure ScheduleFired where
  scheduleId : ScheduleId
  targetAggregate : AggregateId
  callerEventId : Uuid
  callerEventType : String
  payload : List UInt8
  correlation : CorrelationContext
  deriving DecidableEq

/-- Rust `ScheduleFired::from_armed`. -/
def ScheduleFired.fromArmed (armed : ScheduleArmed) : ScheduleFired where
  scheduleId := armed.scheduleId
  targetAggregate := armed.targetAggregate
  callerEventId := armed.callerEventId
  callerEventType := armed.callerEventType
  payload := armed.payload
  correlation := armed.correlation

/-- A schedule was cancelled before firing (Rust `ScheduleCancelled`). -/
structure ScheduleCancelled where
  scheduleId : ScheduleId
  deriving DecidableEq

/-- Domain events of the scheduler aggregate (Rust `SchedulerEvent`). -/
inductive SchedulerEvent where
  | armed (event : ScheduleArmed)
  | fired (event : ScheduleFired)
  | cancelled (event : ScheduleCancelled)
  deriving DecidableEq

/-- The schedule a fact is about. -/
def SchedulerEvent.scheduleId : SchedulerEvent → ScheduleId
  | .armed e => e.scheduleId
  | .fired e => e.scheduleId
  | .cancelled e => e.scheduleId

/-- Replay-derived scheduler aggregate state (Rust `SchedulerState`). -/
structure SchedulerState where
  pending : TreeMap ScheduleId ScheduleArmed := ∅
  firedMap : TreeMap ScheduleId ScheduleFired := ∅
  cancelled : TreeSet ScheduleId := ∅

namespace SchedulerState

variable {state : SchedulerState}

/-- One round of the loop in `SchedulerState::from_history`. -/
def replay (state : SchedulerState) : SchedulerEvent → SchedulerState
  | .armed event =>
    { state with
      cancelled := state.cancelled.erase event.scheduleId
      pending := state.pending.insert event.scheduleId event }
  | .fired event =>
    { state with
      pending := state.pending.erase event.scheduleId
      firedMap := state.firedMap.insert event.scheduleId event }
  | .cancelled event =>
    { state with
      pending := state.pending.erase event.scheduleId
      cancelled := state.cancelled.insert event.scheduleId }

/-- The state after a list of facts. -/
def ofEvents (events : List SchedulerEvent) : SchedulerState :=
  events.foldl replay {}

/-- Rust `SchedulerState::from_history`. -/
def fromHistory (history : List (EventEnvelope SchedulerEvent)) : SchedulerState :=
  history.foldl (fun state envelope => state.replay envelope.payload) {}

/-- Rust `SchedulerState::fired`. -/
def fired (state : SchedulerState) : List ScheduleFired :=
  state.firedMap.toList.map Prod.snd

/-- Rust `SchedulerState::pending_schedule`. -/
def pendingSchedule (state : SchedulerState) (id : ScheduleId) : Option ScheduleArmed :=
  state.pending[id]?

/-- Rust `SchedulerState::fired_schedule`. -/
def firedSchedule (state : SchedulerState) (id : ScheduleId) : Option ScheduleFired :=
  state.firedMap[id]?

/-- Rust `SchedulerState::is_cancelled`. -/
def isCancelled (state : SchedulerState) (id : ScheduleId) : Bool :=
  state.cancelled.contains id

/-- Rust `SchedulerState::due_pending`. -/
def duePending (state : SchedulerState) (now : Timestamp) : List ScheduleArmed :=
  (state.pending.toList.map Prod.snd).filter fun event => event.fireAt ≤ now

lemma fromHistory_eq (history : List (EventEnvelope SchedulerEvent)) :
    fromHistory history = ofEvents (history.map (·.payload)) := by
  rw [ofEvents, List.foldl_map]
  rfl

lemma ofEvents_concat (es : List SchedulerEvent) (e : SchedulerEvent) :
    ofEvents (es ++ [e]) = (ofEvents es).replay e := by
  simp [ofEvents, List.foldl_append]

/-- How one fact changes what is pending: `Armed` sets it, the other two clear it. -/
lemma pendingSchedule_replay (state : SchedulerState) (e : SchedulerEvent) (id : ScheduleId) :
    (state.replay e).pendingSchedule id =
      if e.scheduleId = id then
        match e with
        | .armed a => some a
        | _ => none
      else state.pendingSchedule id := by
  by_cases h : e.scheduleId = id <;> cases e <;>
    simp_all [replay, pendingSchedule, SchedulerEvent.scheduleId, TreeMap.getElem?_insert,
      TreeMap.getElem?_erase]

/-- How one fact changes what has fired: only `Fired` touches it. -/
lemma firedSchedule_replay (state : SchedulerState) (e : SchedulerEvent) (id : ScheduleId) :
    (state.replay e).firedSchedule id =
      match e with
      | .fired f => if f.scheduleId = id then some f else state.firedSchedule id
      | _ => state.firedSchedule id := by
  cases e with
  | fired f =>
    by_cases e : f.scheduleId = id <;> simp [replay, firedSchedule, TreeMap.getElem?_insert, e]
  | _ => rfl

/-- How one fact changes what is cancelled: `Fired` leaves it alone. -/
lemma isCancelled_replay (state : SchedulerState) (e : SchedulerEvent) (id : ScheduleId) :
    (state.replay e).isCancelled id =
      match e with
      | .armed a => if a.scheduleId = id then false else state.isCancelled id
      | .fired _ => state.isCancelled id
      | .cancelled c => if c.scheduleId = id then true else state.isCancelled id := by
  cases e with
  | fired f => rfl
  | armed a =>
    by_cases e : a.scheduleId = id <;>
      simp [replay, isCancelled, TreeSet.contains_erase, e]
  | cancelled c =>
    by_cases e : c.scheduleId = id <;>
      simp [replay, isCancelled, TreeSet.contains_insert, e]

/-- What is pending is the last fact about its schedule. -/
lemma pendingSchedule_eq_some {es id a} :
    (ofEvents es).pendingSchedule id = some a ↔
      ∃ p q, es = p ++ .armed a :: q ∧ a.scheduleId = id ∧ ∀ e ∈ q, e.scheduleId ≠ id := by
  induction es using List.reverseRecOn with
  | nil => simp [ofEvents, pendingSchedule]
  | append_singleton es e ih =>
    rw [ofEvents_concat, pendingSchedule_replay]
    constructor
    · intro h
      split at h
      case isTrue eq =>
        cases e with
        | armed a' =>
          cases h
          exact ⟨es, [], rfl, eq, by simp⟩
        | _ => cases h
      case isFalse ne =>
        obtain ⟨p, q, rfl, eq, hq⟩ := ih.mp h
        refine ⟨p, q ++ [e], by simp, eq, ?_⟩
        intro e' mem
        rcases List.mem_append.mp mem with mem | mem
        · exact hq e' mem
        · rw [List.mem_singleton.mp mem]
          exact ne
    · rintro ⟨p, q, eq, rfl, hq⟩
      -- the fact is either the last one or stands before it
      rcases List.eq_nil_or_concat q with rfl | ⟨q, e', rfl⟩
      · obtain ⟨rfl, e1⟩ := List.append_inj' eq rfl
        cases e1
        simp [SchedulerEvent.scheduleId]
      · rw [List.concat_eq_append] at eq hq
        rw [← List.cons_append, ← List.append_assoc] at eq
        obtain ⟨rfl, e1⟩ := List.append_inj' eq rfl
        cases e1
        rw [if_neg (hq e (by simp))]
        exact ih.mpr ⟨p, q, rfl, rfl, fun x mem => hq x (by simp [mem])⟩

/-- What is pending is pending under its own id. -/
lemma pendingSchedule_id {es id a} (h : (ofEvents es).pendingSchedule id = some a) :
    a.scheduleId = id := by
  obtain ⟨_, _, _, e, _⟩ := pendingSchedule_eq_some.mp h
  exact e

/-- Nothing has fired for a schedule exactly if the history has no `Fired` fact for it. -/
lemma firedSchedule_eq_none {es id} :
    (ofEvents es).firedSchedule id = none ↔ ∀ f, .fired f ∈ es → f.scheduleId ≠ id := by
  induction es using List.reverseRecOn with
  | nil => simp [ofEvents, firedSchedule]
  | append_singleton es e ih =>
    rw [ofEvents_concat, firedSchedule_replay]
    cases e with
    | fired f' =>
      dsimp only
      by_cases eq : f'.scheduleId = id
      · rw [if_pos eq]
        refine ⟨nofun, fun h => ?_⟩
        exact (h f' (by simp) eq).elim
      · rw [if_neg eq, ih]
        simp only [List.mem_append, List.mem_singleton, SchedulerEvent.fired.injEq]
        constructor
        · rintro h f (mem | rfl)
          · exact h f mem
          · exact eq
        · exact fun h f mem => h f (.inl mem)
    | armed a => simp [ih]
    | cancelled c => simp [ih]

/-- What has fired for a schedule is a fact of the history. -/
lemma firedSchedule_mem {es id f} (h : (ofEvents es).firedSchedule id = some f) :
    .fired f ∈ es ∧ f.scheduleId = id := by
  induction es using List.reverseRecOn with
  | nil => simp [ofEvents, firedSchedule] at h
  | append_singleton es e ih =>
    rw [ofEvents_concat, firedSchedule_replay] at h
    cases e with
    | fired f' =>
      dsimp only at h
      split at h
      case isTrue eq =>
        cases h
        exact ⟨by simp, eq⟩
      case isFalse _ => exact (ih h).imp_left (by simp +contextual)
    | armed a => exact (ih h).imp_left (by simp +contextual)
    | cancelled c => exact (ih h).imp_left (by simp +contextual)

/-- A schedule whose last `Armed` fact no cancellation follows is not cancelled. -/
lemma isCancelled_eq_false {p a q} (h : ∀ c, .cancelled c ∈ q → c.scheduleId ≠ a.scheduleId) :
    (ofEvents (p ++ .armed a :: q)).isCancelled a.scheduleId = false := by
  induction q using List.reverseRecOn with
  | nil =>
    rw [ofEvents_concat, isCancelled_replay]
    simp
  | append_singleton q e ih =>
    rw [← List.cons_append, ← List.append_assoc, ofEvents_concat, isCancelled_replay]
    have ih := ih fun c mem => h c (by simp [mem])
    cases e with
    | armed a' => simp [ih]
    | fired f => exact ih
    | cancelled c =>
      dsimp only
      rw [if_neg (h c (by simp))]
      exact ih

lemma mem_fired {f} : f ∈ state.fired ↔ ∃ id, state.firedSchedule id = some f := by
  simp [fired, firedSchedule, TreeMap.mem_toList_iff_getElem?_eq_some]

lemma mem_duePending {now a} :
    a ∈ state.duePending now ↔ (∃ id, state.pendingSchedule id = some a) ∧ a.fireAt ≤ now := by
  simp [duePending, pendingSchedule, TreeMap.mem_toList_iff_getElem?_eq_some]

end SchedulerState

end CherryPit.Scheduler
