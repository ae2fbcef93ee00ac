import CherryPit.Scheduler.Recovery

/-!
# Recording a fact

`arm` and `cancel` record one fact through `append_scheduler`: load the singleton stream, then
append to it, or create it if it is empty, and check the id that was created. Load, create and check
are separate steps, so two callers that both find the store empty both create, and the second one
learns only from the id it is given that its fact went to another stream.

`retryable_recorded_nothing` holds as long as every `create` meets a store that has given out no id;
`create_race_persists` is the race.
-/

namespace CherryPit.Scheduler

open Conc DurableScheduler

variable {E : Type}

/-- A `create` meets a scheduler store whose id counter is still at 1. -/
def CreatesFirst (w : World E) : DriverOp E → Prop
  | .schedulerCreate _ _ => w.scheduler.nextId = 1
  | _ => True

/-- The same of a step of the pool. -/
def StepCreatesFirst (P : Drivers E) : Pool.Label (driverSig E) (Call E) → Prop
  | .op _ o => CreatesFirst P.world o
  | _ => True

/-- The awaits that meet the condition. -/
abbrev firstAwaits : Semantics (driverSig E) (Call E) (World E) :=
  fun i c w o w' r => Performs True i c w o w' r ∧ CreatesFirst w o

/-- A step that meets the condition performs an await that does. -/
lemma step_firstAwaits [ScheduledDomainEvent E] {ok : E → Prop} {may : Call E → Prop}
    {P P' : Drivers E} {l} (st : DriverStep True ok may P l P') (h : StepCreatesFirst P l) :
    Pool.Step firstAwaits (OtherWriter ok) Call.body may P l P' := by
  cases st with
  | call idle m => exact .call idle m
  | op at' ex => exact .op at' ⟨ex, h⟩
  | abandon at' => exact .abandon at'
  | env e => exact .env e

/-- Only the singleton stream grows, and what was not there at the start is in the ledger. -/
structure RecordInv (s : Store SchedulerEvent) (w : World E) : Prop where
  single : ∀ id, id ≠ singletonStream → w.scheduler.streams id = s.streams id
  logged : ∀ id env, env ∈ w.scheduler.streams id → env ∈ s.streams id ∨
    ∃ i c, (i, c, env) ∈ w.schedulerLog

/-- The protocol of calls that only record. -/
def recordProtocol (s : Store SchedulerEvent) (ok : E → Prop) :
    Protocol firstAwaits (OtherWriter ok) where
  inv := RecordInv s
  rely := Rely
  fresh := Fresh
  refl := .refl
  trans := .trans
  fresh_rely := .rely
  env_inv h st := by cases st <;> exact ⟨h.single, h.logged⟩
  env_rely _ st := st.rely
  exec_rely _ st ne := Performs.rely st.1 ne

section Programs

variable {s : Store SchedulerEvent} {ok : E → Prop} {i : Nat} {c : Call E} {w : World E}

/-- A retryable failure means that the caller has written nothing. -/
def FailsClean {α : Type} (i : Nat) : Except AgentError α → World E → Prop
  | .ok _, _ => True
  | .error e, w => e.category = .retryable → own i w.schedulerLog = []

/-- A program of a caller whose retryable failures are clean. -/
abbrev Records {α : Type} (s : Store SchedulerEvent) (ok : E → Prop) (i : Nat) (c : Call E)
    (Q : Except AgentError α → World E → Prop) (p : Driver E α) (w : World E) : Prop :=
  wp firstAwaits ((recordProtocol s ok).assume i) i c Q p w

/-- A write to the singleton stream. -/
lemma RecordInv.write {w' : World E} {env} (h : RecordInv s w)
    (es : w'.scheduler.streams = Function.update w.scheduler.streams singletonStream
      (w.scheduler.streams singletonStream ++ [env]))
    (el : w'.schedulerLog = w.schedulerLog ++ entries i [(c, env)]) : RecordInv s w' := by
  refine ⟨?_, ?_⟩
  · intro id ne
    rw [es, Function.update_of_ne ne]
    exact h.single id ne
  · intro id x mem
    have old : x ∈ w.scheduler.streams id → x ∈ s.streams id ∨
        ∃ i c, (i, c, x) ∈ w'.schedulerLog := by
      intro mem
      refine (h.logged id x mem).imp_right ?_
      rintro ⟨i, c, mem⟩
      exact ⟨i, c, el ▸ List.mem_append_left _ mem⟩
    rw [es] at mem
    rcases eq_or_ne id singletonStream with rfl | ne
    · rw [Function.update_self, List.mem_append, List.mem_singleton] at mem
      rcases mem with mem | rfl
      · exact old mem
      · exact .inr ⟨i, c, by simp [el, entries]⟩
    · rw [Function.update_of_ne ne] at mem
      exact old mem

lemma schedulerLoad_records {id} (none : own i w.schedulerLog = []) :
    Records s ok i c (fun _ v => own i v.schedulerLog = []) (schedulerLoad id) w := by
  apply wp_attempt
  rintro w' rel inv w'' r ⟨⟨_, rfl⟩, _⟩
  refine ⟨inv, fun v rel' _ => ?_⟩
  rw [rel'.schedulerLog, rel.schedulerLog, none]

/-- An append to the singleton stream fails clean, unless its outcome is indeterminate. -/
lemma schedulerAppend_records {expected event context} (none : own i w.schedulerLog = []) :
    Records s ok i c (FailsClean i)
      (schedulerAppend singletonStream expected [event] context) w := by
  apply wp_attempt
  rintro w' rel inv w'' r ⟨⟨t, envs, ap, rfl⟩, _⟩
  replace inv : RecordInv s w' := inv
  rcases ap.inv_one with ⟨rfl, rfl, e, rfl⟩ | ⟨_, env, _, _, rfl, rfl, _, es, re⟩
  · refine ⟨⟨inv.single, by simpa [entries] using inv.logged⟩, fun v rel' _ => ?_⟩
    intro _
    rw [rel'.schedulerLog]
    simpa [entries, rel.schedulerLog] using none
  · refine ⟨inv.write es rfl, fun v _ _ => ?_⟩
    rcases re with rfl | ⟨text, rfl⟩
    · trivial
    · rintro ⟨⟩

/-- A `create` that meets an unused store creates the singleton stream or fails clean. -/
lemma schedulerCreate_records {event context} (none : own i w.schedulerLog = []) :
    Records s ok i c
      (fun r v => FailsClean i r v ∧ ∀ created, r = .ok created → created.1 = singletonStream)
      (schedulerCreate [event] context) w := by
  apply wp_attempt
  rintro w' rel inv w'' r ⟨⟨t, envs, cr, rfl⟩, first⟩
  replace inv : RecordInv s w' := inv
  replace first : w'.scheduler.nextId = 1 := first
  rcases cr.inv with ⟨es, rfl, e, rfl⟩ | ⟨id, hid, st, es, re⟩
  · refine ⟨⟨es ▸ inv.single, es ▸ by simpa [entries] using inv.logged⟩, fun v rel' _ => ⟨?_, ?_⟩⟩
    · intro _
      rw [rel'.schedulerLog]
      simpa [entries, rel.schedulerLog] using none
    · rintro _ ⟨⟩
  · obtain rfl : id = singletonStream := AggregateId.get_inj (hid.trans first)
    obtain ⟨env, rfl, rfl, _⟩ := st.singleton
    refine ⟨inv.write es rfl, fun v _ _ => ?_⟩
    rcases re with rfl | ⟨text, rfl⟩
    · refine ⟨trivial, ?_⟩
      rintro _ ⟨⟩
      rfl
    · refine ⟨?_, ?_⟩
      · rintro ⟨⟩
      · rintro _ ⟨⟩

/-- Rust `append_scheduler` fails clean. -/
lemma appendScheduler_records {event context} (hw : RecordInv s w)
    (none : own i w.schedulerLog = []) :
    Records s ok i c (FailsClean i) (appendScheduler event context) w := by
  refine wp_seq hw (schedulerLoad_records none) ?_ fun _ _ _ none _ => none
  intro history v hv none
  dsimp only
  split
  · refine wp_seq hv (schedulerAppend_records none) ?_ fun _ _ _ h => h
    exact fun _ _ _ _ _ _ _ => trivial
  · refine wp_seq hv (schedulerCreate_records none) ?_ fun _ _ _ h => h.1
    rintro created v' _ ⟨_, first⟩
    rw [if_neg (not_not.mpr (first created rfl))]
    exact fun _ _ _ => trivial

/-- Calls that record fail clean. -/
lemma body_records [ScheduledDomainEvent E] (m : c.Records) (hw : RecordInv s w)
    (none : own i w.schedulerLog = []) : Records s ok i c (FailsClean i) c.body w := by
  cases c with
  | arm d event =>
    refine wp_seq hw (appendScheduler_records hw none) ?_ fun _ _ _ h => h
    exact fun _ _ _ _ _ _ _ => trivial
  | cancel d event context =>
    refine wp_seq hw (appendScheduler_records hw none) ?_ fun _ _ _ h => h
    exact fun _ _ _ _ _ _ _ => trivial
  | fireSchedule => exact m.elim
  | recoverDue => exact m.elim

end Programs

section Runs

variable [ScheduledDomainEvent E] {s : Store SchedulerEvent} {t : Store E} {ok : E → Prop} {tr}
  {pool : Drivers E}

/-- A retryable failure of `arm` or `cancel` persisted nothing, in every interleaving in which every
`create` meets a scheduler store that has not given out an id: what is in the store was there at the
start or was written by another caller. And the store never gains a stream beside the singleton
stream. -/
theorem retryable_recorded_nothing
    (r : Run (fun P l P' => DriverStep True ok Call.Records P l P' ∧ StepCreatesFirst P l)
      (Pool.init (.start s t)) tr pool) :
    (∀ i c e, pool.slots i = .run c (.raise e) → e.category = .retryable →
      ∀ id env, env ∈ pool.world.scheduler.streams id → env ∈ s.streams id ∨
        ∃ j c', j ≠ i ∧ (j, c', env) ∈ pool.world.schedulerLog) ∧
    (∀ i c e, pool.slots i = .run c (.raise e) → e.category = .retryable →
      own i pool.world.schedulerLog = []) ∧
    ∀ id, id ≠ singletonStream → pool.world.scheduler.streams id = s.streams id := by
  have r' : Run (Pool.Step firstAwaits (OtherWriter ok) Call.body Call.Records) _ tr pool :=
    r.mono fun st => step_firstAwaits st.1 st.2
  have run : Pool.Ok (recordProtocol s ok) (fun i _ => FailsClean i) pool :=
    Pool.Ok.run (fun m hw fresh => body_records m hw fresh.schedulerLog)
      ⟨fun _ _ => rfl, fun _ _ mem => .inl mem⟩ (fun _ => Fresh.start) r'
  have none : ∀ i c e, pool.slots i = .run c (.raise e) → e.category = .retryable →
      own i pool.world.schedulerLog = [] := fun i c e at' retry => run.failed at' retry
  refine ⟨?_, none, run.inv.single⟩
  intro i c e at' retry id env mem
  refine (run.inv.logged id env mem).imp_right ?_
  rintro ⟨j, c', entry⟩
  refine ⟨j, c', ?_, entry⟩
  rintro rfl
  have own' : (j, c', env) ∈ own j pool.world.schedulerLog := by simp [own, entry]
  rw [none j c e at' retry] at own'
  cases own'

/-- A scheduler store in which one schedule is armed. -/
def auditArmed : Store SchedulerEvent :=
  (Store.empty.createNow [.armed (auditSchedule ⟨20⟩ 200)] auditContext).1

/-- Two callers append to a stream that is there; the second one meets a conflict. -/
theorem retryable_recorded_nothing_audit :
    ∃ tr, ∃ pool : Drivers AuditEvent,
      Run (fun P l P' => DriverStep True (fun _ => True) Call.Records P l P' ∧ StepCreatesFirst P l)
        (Pool.init (.start auditArmed .empty)) tr pool ∧
      (∃ c e, pool.slots 1 = .run c (.raise e) ∧ e.category = .retryable) ∧
      own 1 pool.world.schedulerLog = [] := by
  have r : Run (fun P l P' => DriverStep True (fun _ => True) Call.Records P l P' ∧
      StepCreatesFirst P l) (Pool.init (.start auditArmed (.empty : Store AuditEvent))) _ _ :=
    .cons ⟨begin_step (i := 0) (c := .arm auditDriver (auditSchedule ⟨30⟩ 300)) rfl trivial,
      trivial⟩ <|
    .cons ⟨begin_step (i := 1) (c := .arm auditDriver (auditSchedule ⟨31⟩ 301)) rfl trivial,
      trivial⟩ <|
    .cons ⟨turn_step (i := 0) rfl, by trivial⟩ <| .cons ⟨turn_step (i := 1) rfl, by trivial⟩ <|
    .cons ⟨turn_step (i := 0) rfl, by trivial⟩ <| .cons ⟨turn_step (i := 1) rfl, by trivial⟩ .nil
  exact ⟨_, _, r, ⟨_, _, rfl, rfl⟩, (retryable_recorded_nothing r).2.1 1 _ _ rfl rfl⟩

/-- Two callers find an empty scheduler store. Both create; the second one is given id 2, so it
fails with a retryable error although its fact is persisted, in a stream nobody reads. -/
theorem create_race_persists :
    ∃ tr, ∃ pool : Drivers AuditEvent,
      Run (DriverStep True (fun _ => True) Call.Records) (Pool.init .init) tr pool ∧
      (∃ c, pool.slots 0 = .run c (.ret .done)) ∧
      pool.slots 1 = .run (.arm auditDriver (auditSchedule ⟨31⟩ 301)) (.raise
        (.store (.infrastructure "scheduler stream must be 1, got 2"))) ∧
      AgentError.category (.store (.infrastructure "scheduler stream must be 1, got 2")) =
        .retryable ∧
      pool.world.facts ⟨⟨2, by decide, by decide⟩⟩ = [.armed (auditSchedule ⟨31⟩ 301)] := by
  have r : Run (DriverStep True (fun _ => True) Call.Records) (Pool.init .init) _ _ :=
    .cons (begin_step (i := 0) (c := .arm auditDriver (auditSchedule ⟨30⟩ 300)) rfl trivial) <|
    .cons (begin_step (i := 1) (c := .arm auditDriver (auditSchedule ⟨31⟩ 301)) rfl trivial) <|
    .cons (turn_step (i := 0) rfl) <| .cons (turn_step (i := 1) rfl) <|
    .cons (turn_step (i := 0) rfl) <| .cons (turn_step (i := 1) rfl) .nil
  exact ⟨_, _, r, ⟨_, rfl⟩, rfl, rfl, by decide⟩

end Runs

end CherryPit.Scheduler
