import CherryPit.Scheduler.System

/-!
# Fire decisions

Every `Fired` fact of a scheduler stream is the decision of one call, taken on the latest `Armed`
fact of its schedule, and is the only one for its schedule. The decision is taken on a history
loaded earlier and appended later; `Store.eq_of_last` is what makes the history the stream at the
moment the fact lands, whatever ran in between.

`FireInv` is the invariant; `appendScheduler_fires`, `fireSchedule_fires` and `recoverDue_fires`
show that the programs of the driver keep it under interference.
-/

namespace CherryPit.Scheduler

open Conc

variable {E : Type} {w w' : World E} {α : Type}

/-- A `Fired` fact `f` that call `c` appended after the facts `before`: it copies the latest `Armed`
fact of its schedule, which no other fact about that schedule follows, which was due, and for which
nothing had fired. -/
structure FiredBy (c : Call E) (before : List SchedulerEvent) (f : ScheduleFired) : Prop where
  armed : ∃ p a q, before = p ++ .armed a :: q ∧ f = .fromArmed a ∧
    (∀ e ∈ q, e.scheduleId ≠ a.scheduleId) ∧ ∃ now, c.now = some now ∧ a.fireAt ≤ now
  first : ∀ f', .fired f' ∈ before → f'.scheduleId ≠ f.scheduleId

/-- Every `Fired` fact of every scheduler stream was decided by a call. -/
def FireInv (w : World E) : Prop :=
  ∀ id pre env post f, w.scheduler.streams id = pre ++ env :: post → env.payload = .fired f →
    ∃ i c, (i, c, env) ∈ w.schedulerLog ∧ FiredBy c (pre.map (·.payload)) f

/-- The invariant speaks of the scheduler store and its ledger only. -/
lemma FireInv.congr (h : FireInv w) (e : w'.scheduler.streams = w.scheduler.streams)
    (e' : w'.schedulerLog = w.schedulerLog) : FireInv w' := by
  unfold FireInv
  rw [e, e']
  exact h

/-- Splitting a list at one of its elements, when it has grown by one. -/
lemma split_concat {l pre post : List α} {x y : α} (e : l ++ [y] = pre ++ x :: post) :
    (l = pre ∧ y = x) ∨ ∃ post', l = pre ++ x :: post' := by
  rcases List.eq_nil_or_concat post with rfl | ⟨post', z, rfl⟩
  · obtain ⟨e1, e2⟩ := List.append_inj' e rfl
    exact .inl ⟨e1, List.singleton_inj.mp e2⟩
  · rw [List.concat_eq_append, ← List.cons_append, ← List.append_assoc] at e
    exact .inr ⟨post', (List.append_inj' e rfl).1⟩

/-- The invariant is kept when one envelope lands, if a `Fired` fact in it is justified. -/
lemma FireInv.write {id env i c} (h : FireInv w)
    (es : w'.scheduler.streams =
      Function.update w.scheduler.streams id (w.scheduler.streams id ++ [env]))
    (el : w'.schedulerLog = w.schedulerLog ++ entries i [(c, env)])
    (new : ∀ f, env.payload = .fired f → FiredBy c (w.facts id) f) : FireInv w' := by
  intro id' pre x post f e ex
  rw [el]
  -- a fact that was there before has its decision in the old ledger
  have old : ∀ post', w.scheduler.streams id' = pre ++ x :: post' →
      ∃ i' c', (i', c', x) ∈ w.schedulerLog ++ entries i [(c, env)] ∧
        FiredBy c' (pre.map (·.payload)) f := by
    intro post' e'
    obtain ⟨i', c', mem, fb⟩ := h id' pre x post' f e' ex
    exact ⟨i', c', List.mem_append_left _ mem, fb⟩
  rcases eq_or_ne id' id with rfl | ne
  · rw [es, Function.update_self] at e
    rcases split_concat e with ⟨rfl, rfl⟩ | ⟨post', e'⟩
    · exact ⟨i, c, by simp [entries], new f ex⟩
    · exact old post' e'
  · rw [es, Function.update_of_ne ne] at e
    exact old post e

lemma FireInv.env {ok : E → Prop} (h : FireInv w) (st : OtherWriter ok w w') : FireInv w' := by
  cases st <;> exact h.congr rfl rfl

/-- The protocol of the fire decisions. -/
def fireProtocol (faults : Prop) (ok : E → Prop) :
    Protocol (awaits faults) (OtherWriter ok) :=
  protocol faults ok FireInv .env

/-- A program keeps the fire decisions justified. -/
abbrev Fires {α : Type} (faults : Prop) (ok : E → Prop) (i : Nat) (c : Call E)
    (p : Driver E α) (w : World E) : Prop :=
  wp (awaits faults) ((fireProtocol faults ok).assume i) i c (fun _ _ => True) p w

section Programs

variable {faults : Prop} {ok : E → Prop} {i : Nat} {c : Call E}

/-- The operations that leave the scheduler store alone. -/
def NotScheduler : DriverOp E → Prop
  | .schedulerLoad _ | .targetLoad _ | .targetAppend _ _ _ _ | .publish _ => True
  | .schedulerAppend _ _ _ _ | .schedulerCreate _ _ => False

lemma keep_load {o : DriverOp E} {w w' r} (h : NotScheduler o) (inv : FireInv w)
    (st : Performs faults i c w o w' r) : FireInv w' := by
  cases o with
  | schedulerLoad id => exact inv.congr (by rw [st.2]) (by rw [st.2])
  | schedulerAppend => exact h.elim
  | schedulerCreate => exact h.elim
  | targetLoad id => exact inv.congr (by rw [st.2]) (by rw [st.2])
  | targetAppend id expected events context =>
    obtain ⟨s, envs, _, rfl⟩ := st
    exact inv.congr rfl rfl
  | publish envelopes => exact inv.congr (by rw [st.2]) (by rw [st.2])

/-- One fact is appended; if it is a `Fired` fact, the stream it lands on justifies it. -/
lemma schedulerAppend_fires {id expected event context}
    (new : ∀ w' last f, Rely i w w' → (w'.scheduler.streams id).getLast? = some last →
      last.sequence = expected → event = .fired f → FiredBy c (w'.facts id) f) :
    Fires faults ok i c (DurableScheduler.schedulerAppend id expected [event] context) w := by
  apply wp_attempt
  rintro w' rel inv w'' r ⟨s, envs, ap, rfl⟩
  refine ⟨?_, fun _ _ _ => trivial⟩
  rcases ap.inv_one with ⟨rfl, rfl, _⟩ | ⟨last, env, hl, hs, rfl, rfl, _, es, _⟩
  · exact FireInv.congr inv rfl (by simp [entries])
  · exact FireInv.write inv es rfl fun f ef => new w' last f rel hl hs ef

/-- A stream is created with one fact that is not `Fired`. -/
lemma schedulerCreate_fires {event context} (new : ∀ f, event ≠ .fired f) :
    Fires faults ok i c (DurableScheduler.schedulerCreate [event] context) w := by
  apply wp_attempt
  rintro w' rel inv w'' r ⟨s, envs, cr, rfl⟩
  refine ⟨?_, fun _ _ _ => trivial⟩
  rcases cr.inv with ⟨es, rfl, _⟩ | ⟨id, _, st, es, _⟩
  · exact FireInv.congr inv es (by simp [entries])
  · obtain ⟨env, rfl, rfl, _⟩ := st.singleton
    exact FireInv.write inv es rfl fun f ef => (new f ef).elim

/-- `append_scheduler` of a fact that is not `Fired`. -/
lemma appendScheduler_fires {event context} (new : ∀ f, event ≠ .fired f) (hw : FireInv w) :
    Fires faults ok i c (DurableScheduler.appendScheduler event context) w := by
  refine wp_then hw (wp_uses keep_load (.attempt trivial)) ?_
  intro history v hv _
  dsimp only
  split
  · refine wp_then hv (schedulerAppend_fires fun _ _ f _ _ _ e => (new f e).elim) ?_
    exact fun _ _ _ _ _ _ _ => trivial
  · refine wp_then hv (schedulerCreate_fires new) ?_
    rintro ⟨created, _⟩ v' _ _
    dsimp only
    split <;> exact fun _ _ _ => trivial

/-- `complete_fired` leaves the scheduler store alone. -/
lemma completeFired_uses [ScheduledDomainEvent E] (d : DurableScheduler E) (fired : ScheduleFired) :
    (d.completeFired fired).Uses NotScheduler := by
  refine .bind (.attempt trivial) fun history => ?_
  split
  · trivial
  · split
    · trivial
    · split
      · trivial
      · refine .bind (.attempt trivial) fun envelopes => ?_
        exact .bind (.attempt trivial) fun _ => trivial

/-- The checks of `fire_schedule` on a history justify the fact it appends to that history. -/
lemma firedBy_of_checks {history : List (EventEnvelope SchedulerEvent)} {scheduleId armed now}
    (hc : c.now = some now)
    (hf : ¬ (((SchedulerState.fromHistory history).firedSchedule scheduleId).isSome ||
      (SchedulerState.fromHistory history).isCancelled scheduleId) = true)
    (hp : (SchedulerState.fromHistory history).pendingSchedule scheduleId = some armed)
    (due : ¬ armed.fireAt > now) :
    FiredBy c (history.map (·.payload)) (.fromArmed armed) := by
  rw [SchedulerState.fromHistory_eq] at hf hp
  obtain ⟨p, q, e, rfl, last⟩ := SchedulerState.pendingSchedule_eq_some.mp hp
  refine ⟨⟨p, armed, q, e, rfl, last, now, hc, not_lt.mp due⟩, ?_⟩
  apply SchedulerState.firedSchedule_eq_none.mp
  rw [Bool.or_eq_true, not_or, Option.not_isSome_iff_eq_none] at hf
  exact hf.1

/-- `fire_schedule` decides on a history that is still the stream when the fact lands. -/
lemma fireSchedule_fires [ScheduledDomainEvent E] (d : DurableScheduler E) {scheduleId now}
    (hc : c.now = some now) (hw : FireInv w) :
    Fires faults ok i c (d.fireSchedule scheduleId now) w := by
  refine wp_then hw schedulerLoad_history ?_
  intro history v hv pre
  replace pre := pre history rfl
  dsimp only
  split
  · exact fun _ _ _ => trivial
  rename_i hf
  split
  · exact fun _ _ _ => trivial
  rename_i armed hp
  split
  · exact fun _ _ _ => trivial
  rename_i due
  split
  · exact fun _ _ _ => trivial
  rename_i last hl
  refine wp_then hv (schedulerAppend_fires ?_) ?_
  · intro w' last' f rel hl' seq e
    cases e
    -- the fact lands only on the sequence it was decided on, so nothing came in between
    have whole : history = w'.scheduler.streams DurableScheduler.singletonStream :=
      w'.scheduler.eq_of_last (pre.trans (rel.scheduler _)) hl hl' seq
    rw [World.facts, ← whole]
    exact firedBy_of_checks hc hf hp due
  · intro _ v' hv' _
    exact wp_map hv' (wp_uses keep_load (completeFired_uses d _))

/-- `recover_due` completes and fires schedules one after the other. -/
lemma recoverDue_fires [ScheduledDomainEvent E] (d : DurableScheduler E) {now}
    (hc : c.now = some now) (hw : FireInv w) :
    Fires faults ok i c (d.recoverDue now) w := by
  refine wp_then hw (wp_uses keep_load (.attempt trivial)) ?_
  intro history v hv _
  refine wp_then hv (wp_foldlM_keep ?_ hv) ?_
  · intro acc fired v hv
    refine wp_then hv (wp_uses keep_load (completeFired_uses d fired)) ?_
    intro done _ _ _
    split <;> exact fun _ _ _ => trivial
  · intro report v hv _
    refine wp_foldlM_keep ?_ hv
    intro acc scheduleId v hv
    refine wp_then hv (fireSchedule_fires d hc hv) ?_
    intro o _ _ _
    split <;> exact fun _ _ _ => trivial

lemma body_fires [ScheduledDomainEvent E] (hw : FireInv w) : Fires faults ok i c c.body w := by
  cases c with
  | arm d event =>
    exact wp_map hw (appendScheduler_fires nofun hw)
  | cancel d event context =>
    exact wp_map hw (appendScheduler_fires nofun hw)
  | fireSchedule d scheduleId now =>
    exact wp_map hw (fireSchedule_fires d rfl hw)
  | recoverDue d now =>
    exact wp_map hw (recoverDue_fires d rfl hw)

end Programs

section Decisions

/-- A `Fired` fact for a schedule. -/
def SchedulerEvent.isFiredOf (id : ScheduleId) : SchedulerEvent → Bool
  | .fired f => f.scheduleId = id
  | _ => false

/-- If nothing before an element that counts counts, at most one element does. -/
lemma countP_le_one {P : α → Bool} {l : List α}
    (h : ∀ pre x post, l = pre ++ x :: post → P x → ∀ y ∈ pre, ¬ P y) : l.countP P ≤ 1 := by
  induction l with
  | nil => simp
  | cons x l ih =>
    by_cases hx : P x
    · have none : ∀ y ∈ l, ¬ P y := by
        intro y mem hy
        obtain ⟨s, t, rfl⟩ := List.append_of_mem mem
        exact h (x :: s) y t rfl hy x (by simp) hx
      rw [List.countP_cons_of_pos hx, List.countP_eq_zero.mpr none]
    · rw [List.countP_cons_of_neg hx]
      refine ih fun pre y post e hy z mem => ?_
      exact h (x :: pre) y post (by rw [e]; rfl) hy z (List.mem_cons_of_mem x mem)

lemma FireInv.facts (h : FireInv w) {stream pre f post}
    (e : w.facts stream = pre ++ .fired f :: post) : ∃ c : Call E, FiredBy c pre f := by
  obtain ⟨pre', rest, streams, rfl, e1⟩ := List.map_eq_append_iff.mp e
  obtain ⟨env, post', rfl, e2, _⟩ := List.map_eq_cons_iff.mp e1
  obtain ⟨_, c, _, fb⟩ := h stream pre' env post' f streams e2
  exact ⟨c, fb⟩

/-- One `Fired` fact per schedule and stream. -/
lemma FireInv.unique (h : FireInv w) (stream : AggregateId) (id : ScheduleId) :
    (w.facts stream).countP (·.isFiredOf id) ≤ 1 := by
  refine countP_le_one fun pre e post split he e' mem he' => ?_
  cases e with
  | fired f =>
    cases e' with
    | fired f' =>
      obtain ⟨_, fb⟩ := h.facts split
      rw [SchedulerEvent.isFiredOf, decide_eq_true_eq] at he he'
      exact fb.first f' mem (he'.trans he.symm)
    | _ => cases he'
  | _ => cases he

/-- Along every run of the drivers the fire decisions are justified. -/
lemma FireInv.run [ScheduledDomainEvent E] {faults : Prop} {ok : E → Prop} {may : Call E → Prop}
    {tr} {pool : Drivers E} (r : Run (DriverStep faults ok may) (Pool.init .init) tr pool) :
    FireInv pool.world := by
  have init : FireInv (.init : World E) := by
    intro id pre env post f e
    exact absurd e (by simp [World.init, World.start, Store.empty])
  have run : Pool.Ok (fireProtocol faults ok) (fun _ _ _ _ => True) pool :=
    Pool.Ok.run (fun _ hw _ => body_fires hw) init (fun _ => Fresh.start) r
  exact run.inv

/-- Every fire decision is justified and unique. In every interleaving of any number of drivers,
with any call abandoned at any point, a scheduler stream has at most one `Fired` fact per schedule;
each is `fromArmed` of the latest `Armed` fact of its schedule before it, with no other fact about
that schedule (so no `Cancelled`) between the two; and that `Armed` fact was due at the `now` of
the call that appended the `Fired` fact. -/
theorem fired_justified_unique [ScheduledDomainEvent E] {ok : E → Prop} {may : Call E → Prop}
    {tr} {pool : Drivers E} (r : Run (DriverStep True ok may) (Pool.init .init) tr pool)
    (stream : AggregateId) :
    (∀ id, (pool.world.facts stream).countP (·.isFiredOf id) ≤ 1) ∧
    ∀ pre env post f, pool.world.scheduler.streams stream = pre ++ env :: post →
      env.payload = .fired f →
      ∃ p a q, pre.map (·.payload) = p ++ .armed a :: q ∧ f = .fromArmed a ∧
        (∀ e ∈ q, e.scheduleId ≠ f.scheduleId) ∧
        ∃ i c now, (i, c, env) ∈ pool.world.schedulerLog ∧ c.now = some now ∧ a.fireAt ≤ now := by
  have inv := FireInv.run r
  refine ⟨inv.unique stream, ?_⟩
  intro pre env post f e ef
  obtain ⟨i, c, mem, ⟨p, a, q, e', rfl, last, now, hc, due⟩, _⟩ := inv stream pre env post f e ef
  exact ⟨p, a, q, e', rfl, last, i, c, now, mem, hc, due⟩

/-- One schedule armed and fired by two drivers. -/
theorem fired_justified_unique_audit :
    ∃ tr, ∃ pool : Drivers AuditEvent,
      Run (DriverStep True (fun _ => True) fun _ => True) (Pool.init .init) tr pool ∧
      pool.world.facts DurableScheduler.singletonStream =
        [.armed (auditSchedule ⟨30⟩ 300), .fired (.fromArmed (auditSchedule ⟨30⟩ 300))] ∧
      ∀ id, (pool.world.facts DurableScheduler.singletonStream).countP (·.isFiredOf id) ≤ 1 := by
  obtain ⟨tr, pool, r, e, _⟩ := audit_calls True (fun _ => True) (fun _ => True)
    [.arm auditDriver (auditSchedule ⟨30⟩ 300), .recoverDue auditDriver (auditAt 10)]
    trivial (fun _ _ => trivial)
  refine ⟨tr, pool, r, ?_, (fired_justified_unique r _).1⟩
  rw [e]
  decide

end Decisions

end CherryPit.Scheduler
