import CherryPit.Conc.Pool
import CherryPit.Core.Store
import CherryPit.Scheduler.Driver

/-!
# Drivers over shared stores

Any number of `DurableScheduler` drivers over one scheduler store, one target store and one bus.
A call of a driver is a program; `Performs` says what each of its awaits does to the shared
`World`, by the contract of the stores. The pool of `Conc.Pool` interleaves the calls and abandons
them at will; other writers of the target store (`OtherWriter`) may move at any time.

Besides the two stores and what went to the bus the world keeps two ledgers: who wrote which
envelope to which store. No driver reads them; they are there to speak of "the call that appended
it" and "the event of that call". A publication is recorded when it is attempted, whether or not the
bus then reports an error.
-/

namespace CherryPit.Scheduler

open Conc Function

variable {E : Type}

/-- The calls a driver offers. -/
inductive Call (E : Type) where
  | arm (d : DurableScheduler E) (event : ScheduleArmed)
  | cancel (d : DurableScheduler E) (event : ScheduleCancelled) (context : CorrelationContext)
  | fireSchedule (d : DurableScheduler E) (scheduleId : ScheduleId) (now : Timestamp)
  | recoverDue (d : DurableScheduler E) (now : Timestamp)

/-- What a call returns. -/
inductive Reply where
  | done
  | outcome (o : ScheduleFireOutcome)
  | report (r : ScheduleRecoveryReport)
  deriving DecidableEq

namespace Call

/-- The driver that is called. -/
def driver : Call E → DurableScheduler E
  | .arm d _ | .cancel d _ _ | .fireSchedule d _ _ | .recoverDue d _ => d

/-- The `now` passed to a call. -/
def now : Call E → Option Timestamp
  | .arm _ _ | .cancel _ _ _ => none
  | .fireSchedule _ _ now | .recoverDue _ now => some now

/-- The calls that only record a fact of their caller: `arm` and `cancel`. -/
def Records : Call E → Prop
  | .arm _ _ | .cancel _ _ _ => True
  | .fireSchedule _ _ _ | .recoverDue _ _ => False

/-- The program of a call. -/
def body [ScheduledDomainEvent E] : Call E → Driver E Reply
  | .arm d event => do
    d.arm event
    return .done
  | .cancel d event context => do
    d.cancel event context
    return .done
  | .fireSchedule d scheduleId now => do
    let o ← d.fireSchedule scheduleId now
    return .outcome o
  | .recoverDue d now => do
    let r ← d.recoverDue now
    return .report r

end Call

/-- The stores and the bus, with the ledgers of who wrote what. -/
structure World (E : Type) where
  scheduler : Store SchedulerEvent
  target : Store E
  published : List (Nat × EventEnvelope E)
  schedulerLog : List (Nat × Call E × EventEnvelope SchedulerEvent)
  targetLog : List (Nat × EventEnvelope E)

variable {w w' : World E}

namespace World

/-- Nothing has happened to a pair of stores. -/
def start (scheduler : Store SchedulerEvent) (target : Store E) : World E where
  scheduler := scheduler
  target := target
  published := []
  schedulerLog := []
  targetLog := []

/-- Two new stores. -/
def init : World E := start .empty .empty

/-- The facts of a scheduler stream. -/
def facts (w : World E) (id : AggregateId) : List SchedulerEvent :=
  (w.scheduler.streams id).map (·.payload)

/-- The replay of a stream is the replay of its facts. -/
lemma fromHistory_streams (w : World E) (id : AggregateId) :
    SchedulerState.fromHistory (w.scheduler.streams id) = .ofEvents (w.facts id) :=
  SchedulerState.fromHistory_eq _

lemma facts_mono {id e} (h : e ∈ w.facts id) (ext : w.scheduler.Extends w'.scheduler) :
    e ∈ w'.facts id :=
  ((ext id).map _).subset h

end World

/-- What an await of caller `i` in call `c` does. -/
def Performs (faults : Prop) (i : Nat) (c : Call E) (w : World E) :
    (o : DriverOp E) → World E → o.Res → Prop
  | .schedulerLoad id, w', r => w.scheduler.Load faults id r ∧ w' = w
  | .schedulerAppend id expected events context, w', r =>
    ∃ s envs, w.scheduler.Append faults id expected events context s envs r ∧
      w' = { w with
        scheduler := s
        schedulerLog := w.schedulerLog ++ entries i (envs.map (c, ·)) }
  | .schedulerCreate events context, w', r =>
    ∃ s envs, w.scheduler.Create faults events context s envs r ∧
      w' = { w with
        scheduler := s
        schedulerLog := w.schedulerLog ++ entries i (envs.map (c, ·)) }
  | .targetLoad id, w', r => w.target.Load faults id r ∧ w' = w
  | .targetAppend id expected events context, w', r =>
    ∃ s envs, w.target.Append faults id expected events context s envs r ∧
      w' = { w with target := s, targetLog := w.targetLog ++ entries i envs }
  | .publish envelopes, w', r =>
    (¬ faults → r = .ok ()) ∧ w' = { w with published := w.published ++ entries i envelopes }

/-- The awaits of the driver, as operations over the world. -/
abbrev awaits (faults : Prop) : Semantics (driverSig E) (Call E) (World E) :=
  Performs faults

/-- A write to the target store by someone else, of events `ok` allows. -/
inductive OtherWriter (ok : E → Prop) : World E → World E → Prop where
  | append {w id expected events context s envs r} :
    (∀ e ∈ events, ok e) →
    w.target.Append True id expected events context s envs r →
    OtherWriter ok w { w with target := s }
  | create {w events context s envs r} :
    (∀ e ∈ events, ok e) →
    w.target.Create True events context s envs r →
    OtherWriter ok w { w with target := s }

/-- What caller `i` relies on: the stores only grow, and its own entries are its own. -/
structure Rely (i : Nat) (w w' : World E) : Prop where
  scheduler : w.scheduler.Extends w'.scheduler
  target : w.target.Extends w'.target
  published : own i w'.published = own i w.published
  schedulerLog : own i w'.schedulerLog = own i w.schedulerLog
  targetLog : own i w'.targetLog = own i w.targetLog

/-- Nothing in the ledgers is by caller `i`. -/
structure Fresh (i : Nat) (w : World E) : Prop where
  published : own i w.published = []
  schedulerLog : own i w.schedulerLog = []
  targetLog : own i w.targetLog = []

lemma Rely.refl (i : Nat) (w : World E) : Rely i w w :=
  ⟨.refl _, .refl _, rfl, rfl, rfl⟩

lemma Rely.trans {i : Nat} {w'' : World E} (h : Rely i w w') (h' : Rely i w' w'') :
    Rely i w w'' where
  scheduler := h.scheduler.trans h'.scheduler
  target := h.target.trans h'.target
  published := h'.published.trans h.published
  schedulerLog := h'.schedulerLog.trans h.schedulerLog
  targetLog := h'.targetLog.trans h.targetLog

lemma Fresh.rely {i : Nat} (f : Fresh i w) (h : Rely i w w') : Fresh i w' where
  published := h.published.trans f.published
  schedulerLog := h.schedulerLog.trans f.schedulerLog
  targetLog := h.targetLog.trans f.targetLog

lemma Fresh.start {i : Nat} {s : Store SchedulerEvent} {t : Store E} : Fresh i (.start s t) :=
  ⟨rfl, rfl, rfl⟩

/-- An await of one caller is what every other caller relies on. -/
lemma Performs.rely {faults i j c} {o r} (st : Performs faults i c w o w' r) (ne : i ≠ j) :
    Rely j w w' := by
  cases o with
  | schedulerLoad id =>
    obtain ⟨_, rfl⟩ := st
    exact .refl j _
  | schedulerAppend id expected events context =>
    obtain ⟨s, envs, h, rfl⟩ := st
    exact ⟨h.grows, .refl _, rfl, own_append_of_ne ne, rfl⟩
  | schedulerCreate events context =>
    obtain ⟨s, envs, h, rfl⟩ := st
    exact ⟨h.grows, .refl _, rfl, own_append_of_ne ne, rfl⟩
  | targetLoad id =>
    obtain ⟨_, rfl⟩ := st
    exact .refl j _
  | targetAppend id expected events context =>
    obtain ⟨s, envs, h, rfl⟩ := st
    exact ⟨.refl _, h.grows, rfl, rfl, own_append_of_ne ne⟩
  | publish envelopes =>
    obtain ⟨_, rfl⟩ := st
    exact ⟨.refl _, .refl _, own_append_of_ne ne, rfl, rfl⟩

/-- Both stores grow. -/
structure Grows (w w' : World E) : Prop where
  scheduler : w.scheduler.Extends w'.scheduler
  target : w.target.Extends w'.target

lemma Grows.of_eq (e : w = w') : Grows w w' :=
  e ▸ ⟨.refl _, .refl _⟩

lemma Rely.grows {i : Nat} (h : Rely i w w') : Grows w w' :=
  ⟨h.scheduler, h.target⟩

lemma Performs.grows {faults i c} {o r} (st : Performs faults i c w o w' r) : Grows w w' :=
  (st.rely (Nat.ne_of_lt i.lt_succ_self)).grows

/-- What the growth of the stores keeps is kept along a program. -/
lemma wp_grown {faults : Prop} {A : Assume (World E)} {i : Nat} {c : Call E} {α : Type}
    {F : World E → Prop} {Q : Except AgentError α → World E → Prop} {p : Driver E α}
    (rely : ∀ {w w' : World E}, A.rely w w' → Grows w w')
    (mono : ∀ {w w' : World E}, F w → Grows w w' → F w') (hF : F w)
    (h : wp (awaits faults) A i c Q p w) :
    wp (awaits faults) A i c (fun r v => F v ∧ Q r v) p w :=
  wp_frame (fun hF r => mono hF (rely r)) (fun hF st => mono hF (Performs.grows st)) hF h

/-- A write by someone else is what every caller relies on. -/
lemma OtherWriter.rely {ok : E → Prop} {i} (st : OtherWriter ok w w') : Rely i w w' := by
  cases st with
  | append _ h => exact ⟨.refl _, h.grows, rfl, rfl, rfl⟩
  | create _ h => exact ⟨.refl _, h.grows, rfl, rfl, rfl⟩

/-- The protocol of an invariant that other writers keep. -/
def protocol (faults : Prop) (ok : E → Prop) (inv : World E → Prop)
    (env_inv : ∀ {w w'}, inv w → OtherWriter ok w w' → inv w') :
    Protocol (awaits faults) (OtherWriter ok) where
  inv := inv
  rely := Rely
  fresh := Fresh
  refl := .refl
  trans := .trans
  fresh_rely := .rely
  env_inv := env_inv
  env_rely _ st := st.rely
  exec_rely _ st ne := Performs.rely st ne

section Loads

variable {faults : Prop} {ok : E → Prop} {inv : World E → Prop}
  {env_inv : ∀ {w w'}, inv w → OtherWriter ok w w' → inv w'} {i : Nat} {c : Call E}
  {id : AggregateId}

/-- A loaded scheduler history stays an initial part of its stream. -/
lemma schedulerLoad_history :
    wp (awaits faults) ((protocol faults ok inv env_inv).assume i) i c
      (fun r v => ∀ history, r = .ok history → history <+: v.scheduler.streams id)
      (DurableScheduler.schedulerLoad id) w := by
  apply wp_attempt
  rintro w' _ hi w'' r ⟨ld, rfl⟩
  refine ⟨hi, ?_⟩
  rintro v rel _ history e
  cases ld with
  | ok =>
    cases e
    exact rel.scheduler id
  | fault => cases e

/-- A loaded target history stays an initial part of its stream. -/
lemma targetLoad_history :
    wp (awaits faults) ((protocol faults ok inv env_inv).assume i) i c
      (fun r v => ∀ history, r = .ok history → history <+: v.target.streams id)
      (DurableScheduler.targetLoad id) w := by
  apply wp_attempt
  rintro w' _ hi w'' r ⟨ld, rfl⟩
  refine ⟨hi, ?_⟩
  rintro v rel _ history e
  cases ld with
  | ok =>
    cases e
    exact rel.target id
  | fault => cases e

end Loads

/-- The calls of any number of drivers over one world. -/
abbrev Drivers (E : Type) := Pool (driverSig E) (Call E) (World E) AgentError Reply

/-- One step of the drivers or of another writer; `ok` and `may` restrict the events of the other
writers and the calls that are made. -/
abbrev DriverStep [ScheduledDomainEvent E] (faults : Prop) (ok : E → Prop) (may : Call E → Prop) :
    Drivers E → Pool.Label (driverSig E) (Call E) → Drivers E → Prop :=
  Pool.Step (awaits faults) (OtherWriter ok) Call.body may

lemma Performs.mono {faults faults' : Prop} {i c} {o r} (imp : faults → faults')
    (st : Performs faults i c w o w' r) :
    Performs faults' i c w o w' r := by
  cases o with
  | schedulerLoad id => exact ⟨st.1.mono imp, st.2⟩
  | schedulerAppend id expected events context =>
    obtain ⟨s, envs, h, e⟩ := st
    exact ⟨s, envs, h.mono imp, e⟩
  | schedulerCreate events context =>
    obtain ⟨s, envs, h, e⟩ := st
    exact ⟨s, envs, h.mono imp, e⟩
  | targetLoad id => exact ⟨st.1.mono imp, st.2⟩
  | targetAppend id expected events context =>
    obtain ⟨s, envs, h, e⟩ := st
    exact ⟨s, envs, h.mono imp, e⟩
  | publish envelopes => exact ⟨fun nf => st.1 fun f => nf (imp f), st.2⟩

section Now

/-- The answers of stores and a bus that do not fail on their own. -/
def answer (i : Nat) (c : Call E) : (o : DriverOp E) → World E → World E × o.Res
  | .schedulerLoad id, w => (w, .ok (w.scheduler.streams id))
  | .schedulerAppend id expected events context, w =>
    let (s, envs, r) := w.scheduler.appendNow id expected events context
    ({ w with scheduler := s, schedulerLog := w.schedulerLog ++ entries i (envs.map (c, ·)) }, r)
  | .schedulerCreate events context, w =>
    let (s, envs, r) := w.scheduler.createNow events context
    ({ w with scheduler := s, schedulerLog := w.schedulerLog ++ entries i (envs.map (c, ·)) }, r)
  | .targetLoad id, w => (w, .ok (w.target.streams id))
  | .targetAppend id expected events context, w =>
    let (s, envs, r) := w.target.appendNow id expected events context
    ({ w with target := s, targetLog := w.targetLog ++ entries i envs }, r)
  | .publish envelopes, w =>
    ({ w with published := w.published ++ entries i envelopes }, .ok ())

lemma answer_performs {i : Nat} {c : Call E} (o : DriverOp E) (w : World E) :
    Performs False i c w o (answer i c o w).1 (answer i c o w).2 := by
  cases o with
  | schedulerLoad id => exact ⟨.ok, rfl⟩
  | schedulerAppend id expected events context =>
    exact ⟨_, _, w.scheduler.appendNow_append id expected events context, rfl⟩
  | schedulerCreate events context =>
    exact ⟨_, _, w.scheduler.createNow_create events context, rfl⟩
  | targetLoad id => exact ⟨.ok, rfl⟩
  | targetAppend id expected events context =>
    exact ⟨_, _, w.target.appendNow_append id expected events context, rfl⟩
  | publish envelopes => exact ⟨fun _ => rfl, rfl⟩

variable [ScheduledDomainEvent E]

/-- Make calls one after the other, callers counted from `n` on. -/
def runCalls : Nat → List (Call E) → World E → World E × List (Except AgentError Reply)
  | _, [], w => (w, [])
  | n, c :: cs, w =>
    let (w', x) := c.body.interp (answer n c) w
    let (w'', xs) := runCalls (n + 1) cs w'
    (w'', x :: xs)

/-- Calls made one after the other are a run of the drivers. -/
lemma run_calls {faults : Prop} {ok : E → Prop} {may : Call E → Prop} {n cs} {pool : Drivers E}
    (idle : ∀ j, n ≤ j → pool.slots j = .idle) (m : ∀ c ∈ cs, may c) :
    ∃ tr pool', Run (DriverStep faults ok may) pool tr pool' ∧
      pool'.world = (runCalls n cs pool.world).1 ∧
      (∀ j < n, pool'.slots j = pool.slots j) ∧
      ∀ k c x, cs[k]? = some c → (runCalls n cs pool.world).2[k]? = some x →
        pool'.slots (n + k) = .run c (.ofExcept x) := by
  induction cs generalizing n pool with
  | nil => exact ⟨[], pool, .nil, rfl, fun _ _ => rfl, by simp⟩
  | cons c cs ih =>
    have ex : Exec (awaits faults) n c pool.world c.body _ _ :=
      (Prog.interp_exec (answer_performs (i := n) (c := c)) c.body pool.world).mono
        (Performs.mono False.elim)
    let next : Drivers E := ⟨(c.body.interp (answer n c) pool.world).1, update pool.slots n
      (.run c (.ofExcept (c.body.interp (answer n c) pool.world).2))⟩
    have first : ∃ tr, Run (DriverStep faults ok may) pool tr next :=
      Pool.run_call (idle n le_rfl) (m c (by simp)) ex
    obtain ⟨tr, r⟩ := first
    have idle' : ∀ j, n + 1 ≤ j → next.slots j = .idle := by
      intro j le
      exact (update_of_ne (by omega) ..).trans (idle j (by omega))
    obtain ⟨tr', pool', r', e, same, slots⟩ := ih idle' (fun c' mem => m c' (by simp [mem]))
    refine ⟨_, pool', r.append r', e, ?_, ?_⟩
    · intro j lt
      exact (same j (by omega)).trans (update_of_ne (by omega) ..)
    · intro k c' x hc hx
      cases k with
      | zero =>
        cases hc
        cases hx
        exact (same n (by omega)).trans (update_self ..)
      | succ k =>
        rw [show n + (k + 1) = n + 1 + k by omega]
        exact slots k c' x hc hx

/-- Start a call, if its place is free. -/
def begin (i : Nat) (c : Call E) (pool : Drivers E) : Drivers E :=
  match pool.slots i with
  | .idle => { pool with slots := update pool.slots i (.run c c.body) }
  | _ => pool

/-- One await of caller `i`, if it has one. -/
def turn (i : Nat) (pool : Drivers E) : Drivers E :=
  match pool.slots i with
  | .run c (.op o k) =>
    let (w, r) := answer i c o pool.world
    { world := w, slots := update pool.slots i (.run c (k r)) }
  | _ => pool

variable {faults : Prop} {ok : E → Prop} {may : Call E → Prop} {pool : Drivers E}

lemma begin_step {i c} (idle : pool.slots i = .idle) (m : may c) :
    DriverStep faults ok may pool (.call i c) (begin i c pool) := by
  rw [begin, idle]
  exact .call idle m

lemma turn_step {i c o k} (at' : pool.slots i = .run c (.op o k)) :
    DriverStep faults ok may pool (.op i o) (turn i pool) := by
  rw [turn, at']
  exact .op at' ((answer_performs ..).mono False.elim)

end Now

section Audit

/-!
## The audit fixture

The domain event and decoder of `cherry-pit-app/tests/durable_scheduler.rs`, for concrete runs. The
text of a recorded event is its bytes.
-/

/-- Rust `AuditEvent`. -/
inductive AuditEvent where
  | opened (eventId : Uuid)
  | recorded (eventId : Uuid) (value : List UInt8)
  deriving DecidableEq

instance : ScheduledDomainEvent AuditEvent where
  scheduledEventId
    | .opened eventId => eventId
    | .recorded eventId _ => eventId

/-- A driver with Rust `AuditDecoder`. -/
def auditDriver : DurableScheduler AuditEvent where
  decode fired := .ok (.recorded fired.callerEventId fired.payload)

/-- Rust `at`: whole seconds as a timestamp. -/
def auditAt (second : Int) : Timestamp := second * 1000000000

/-- Rust `ctx`. -/
def auditContext : CorrelationContext := ⟨some 90, some 91⟩

/-- Rust `schedule`, on the first target. -/
def auditSchedule (scheduleId : ScheduleId) (callerEventId : Uuid) : ScheduleArmed where
  scheduleId := scheduleId
  fireAt := auditAt 10
  targetAggregate := ⟨.min⟩
  callerEventId := callerEventId
  callerEventType := "audit.recorded"
  payload := [115, 99, 104, 101, 100, 117, 108, 101, 100]
  correlation := auditContext

/-- Rust `opened_target`: another writer has created the first target. -/
def auditOpened : World AuditEvent :=
  { World.init with target := (Store.empty.createNow [.opened 1] ⟨none, none⟩).1 }

lemma auditOpened_step {faults : Prop} {ok : AuditEvent → Prop} {may : Call AuditEvent → Prop}
    (h : ok (.opened 1)) :
    DriverStep faults ok may (Pool.init .init) .env (Pool.init auditOpened) :=
  .env (.create (by simpa using h) ((Store.createNow_create ..).mono False.elim))

/-- Calls made one after the other on an opened target are a run of the drivers. -/
lemma audit_calls (faults : Prop) (ok : AuditEvent → Prop) (may : Call AuditEvent → Prop)
    (cs : List (Call AuditEvent)) (h : ok (.opened 1)) (m : ∀ c ∈ cs, may c) :
    ∃ tr pool, Run (DriverStep faults ok may) (Pool.init .init) tr pool ∧
      pool.world = (runCalls 0 cs auditOpened).1 ∧
      ∀ k c x, cs[k]? = some c → (runCalls 0 cs auditOpened).2[k]? = some x →
        pool.slots k = .run c (.ofExcept x) := by
  have idle : ∀ j, 0 ≤ j → (Pool.init auditOpened : Drivers AuditEvent).slots j = .idle :=
    fun _ _ => rfl
  have calls : ∃ tr pool, Run (DriverStep faults ok may) _ tr pool ∧ _ := run_calls idle m
  obtain ⟨tr, pool, r, e, _, slots⟩ := calls
  refine ⟨_, pool, .cons (auditOpened_step h) r, e, ?_⟩
  intro k c x hc hx
  have at' := slots k c x hc hx
  rwa [Nat.zero_add] at at'

end Audit

end CherryPit.Scheduler
