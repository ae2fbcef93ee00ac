import CherryPit.Scheduler.Fire

/-!
# At-most-once delivery

The caller event of a schedule reaches its target at most once and is published at most once,
although `complete_fired` is a check on a loaded history followed by an append to another store
and no transaction spans the two. What carries the argument is again `Store.eq_of_last`: the append
lands only on the very history the check was made on.

`DeliverInv u` is the invariant for one caller event id `u`. Publications are compared with the
ledger of appends caller by caller, since a caller only relies on its own entries.
-/

namespace CherryPit.Scheduler

open Conc DurableScheduler

variable {E : Type} [ScheduledDomainEvent E]

/-- The decoder returns an event that carries the caller event id of the fact. -/
def DurableScheduler.Preserves (d : DurableScheduler E) : Prop :=
  ∀ fired event, d.decode fired = .ok event → scheduledEventId event = fired.callerEventId

lemma auditDriver_preserves : auditDriver.Preserves := by
  rintro fired event ⟨⟩
  rfl

/-- An envelope carries a caller event id. -/
def carries (u : Uuid) (env : EventEnvelope E) : Bool :=
  scheduledEventId env.payload == u

/-- An envelope in the stream of `t` that carries a caller event id. -/
def carriesTo (t : AggregateId) (u : Uuid) (x : Nat × EventEnvelope E) : Bool :=
  decide (x.2.aggregateId = t) && carries u x.2

/-- What holds of the deliveries of caller event `u` in every interleaving. -/
structure DeliverInv (u : Uuid) (w : World E) : Prop where
  once : ∀ t, (w.target.streams t).countP (carries u) ≤ 1
  ours : ∀ t, w.targetLog.countP (carriesTo t u) = (w.target.streams t).countP (carries u)
  persisted : ∀ x ∈ w.targetLog, x.2 ∈ w.target.streams x.2.aggregateId
  justified : ∀ x ∈ w.targetLog, ∃ f, .fired f ∈ w.facts singletonStream ∧
    f.targetAggregate = x.2.aggregateId ∧ f.callerEventId = scheduledEventId x.2.payload
  published : ∀ i, (own i w.published).Subperm (own i w.targetLog)

/-- A history that was checked does not carry the caller event. -/
lemma countP_carries_of_not_delivered {u : Uuid} {history : List (EventEnvelope E)}
    (h : ¬ delivered u history = true) : history.countP (carries u) = 0 := by
  rw [delivered, List.any_eq_true] at h
  exact List.countP_eq_zero.mpr fun env mem hc => h ⟨env, mem, hc⟩

namespace DeliverInv

variable {u : Uuid} {w w' : World E}

/-- The deliveries do not depend on new facts in the scheduler store. -/
lemma scheduler (h : DeliverInv u w) (ext : w.scheduler.Extends w'.scheduler)
    (et : w'.target = w.target) (ep : w'.published = w.published)
    (el : w'.targetLog = w.targetLog) : DeliverInv u w' where
  once := et ▸ h.once
  ours := et ▸ el ▸ h.ours
  persisted := et ▸ el ▸ h.persisted
  justified x mem := by
    obtain ⟨f, fact, e⟩ := h.justified x (el ▸ mem)
    exact ⟨f, World.facts_mono fact ext, e⟩
  published := ep ▸ el ▸ h.published

/-- A write of events that do not carry `u`, by someone else. -/
lemma foreign (h : DeliverInv u w) {s} (id envs)
    (es : s.streams = Function.update w.target.streams id (w.target.streams id ++ envs))
    (no : ∀ env ∈ envs, scheduledEventId env.payload ≠ u) :
    DeliverInv u { w with target := s } := by
  have same : ∀ t, (s.streams t).countP (carries u) = (w.target.streams t).countP (carries u) := by
    intro t
    have zero : envs.countP (carries u) = 0 :=
      List.countP_eq_zero.mpr fun env mem hc => no env mem (beq_iff_eq.mp hc)
    rw [Store.countP_streams _ t es, zero, ite_self, Nat.add_zero]
  have grows : w.target.Extends s := Store.extends_update es (List.prefix_append _ _)
  refine ⟨fun t => (same t).trans_le (h.once t), fun t => (h.ours t).trans (same t).symm, ?_,
    h.justified, h.published⟩
  exact fun x mem => (grows _).subset (h.persisted x mem)

/-- Other writers never use `u`. -/
lemma env (h : DeliverInv u w) (st : OtherWriter (fun e => scheduledEventId e ≠ u) w w') :
    DeliverInv u w' := by
  cases st with
  | append no ap =>
    rcases ap.inv with ⟨rfl, _, _⟩ | ⟨_, _, _, st, es, _⟩
    · exact h
    · exact h.foreign _ _ es fun env mem => no _ (st.payloads ▸ List.mem_map_of_mem mem)
  | create no cr =>
    rcases cr.inv with ⟨es, _, _⟩ | ⟨_, _, st, es, _⟩
    · refine h.foreign singletonStream [] ?_ (by simp)
      rw [es, List.append_nil, Function.update_eq_self]
    · exact h.foreign _ _ es fun env mem => no _ (st.payloads ▸ List.mem_map_of_mem mem)

/-- One delivery by caller `i`: it must not be there yet, and a fact must ask for it. -/
lemma deliver (h : DeliverInv u w) {i s f env}
    (es : s.streams = Function.update w.target.streams env.aggregateId
      (w.target.streams env.aggregateId ++ [env]))
    (fact : .fired f ∈ w.facts singletonStream) (ht : f.targetAggregate = env.aggregateId)
    (hu : f.callerEventId = scheduledEventId env.payload)
    (new : (w.target.streams env.aggregateId).countP (carries f.callerEventId) = 0) :
    DeliverInv u { w with target := s, targetLog := w.targetLog ++ entries i [env] } := by
  have grows : w.target.Extends s := Store.extends_update es (List.prefix_append _ _)
  have count := fun t => Store.countP_streams (carries u) t es
  refine ⟨?_, ?_, ?_, ?_, ?_⟩
  · intro t
    rw [count t]
    split_ifs with ht
    · -- in the stream that grows `u` was absent, or the event does not carry it
      by_cases eu : f.callerEventId = u
      · rw [← ht, ← eu, new, Nat.zero_add]
        exact List.countP_le_length
      · have no : carries u env = false := beq_eq_false_iff_ne.mpr (hu ▸ eu)
        simpa [no] using h.once t
    · exact h.once t
  · intro t
    rw [count t, List.countP_append, h.ours t]
    simp [entries, carriesTo, List.countP_cons, ite_and]
  · intro x mem
    rcases List.mem_append.mp mem with mem | mem
    · exact (grows _).subset (h.persisted x mem)
    · obtain rfl : x = (i, env) := by simpa [entries] using mem
      rw [es]
      simp
  · intro x mem
    rcases List.mem_append.mp mem with mem | mem
    · exact h.justified x mem
    · obtain rfl : x = (i, env) := by simpa [entries] using mem
      exact ⟨f, fact, ht, hu⟩
  · intro j
    rcases eq_or_ne i j with rfl | ne
    · rw [own_append_self]
      exact (h.published i).trans (List.sublist_append_left _ _).subperm
    · rw [own_append_of_ne ne]
      exact h.published j

/-- One publication by caller `i` of what it has appended and not published. -/
lemma publish (h : DeliverInv u w) {i envs}
    (new : (own i w.published ++ entries i envs).Subperm (own i w.targetLog)) :
    DeliverInv u { w with published := w.published ++ entries i envs } := by
  refine ⟨h.once, h.ours, h.persisted, h.justified, ?_⟩
  intro j
  rcases eq_or_ne i j with rfl | ne
  · rw [own_append_self]
    exact new
  · rw [own_append_of_ne ne]
    exact h.published j

/-- Everything published was appended by the same caller. -/
lemma subperm (h : DeliverInv u w) : w.published.Subperm w.targetLog :=
  subperm_of_own h.published

end DeliverInv

/-- The protocol of the deliveries of `u`: other writers never use it. -/
def deliverProtocol (u : Uuid) (faults : Prop) :
    Protocol (awaits faults) (OtherWriter fun e : E => scheduledEventId e ≠ u) :=
  protocol faults _ (DeliverInv u) .env

/-- A program keeps the deliveries of `u` as they must be. -/
abbrev Delivers {α : Type} (faults : Prop) (u : Uuid) (i : Nat) (c : Call E)
    (Q : Except AgentError α → World E → Prop) (p : Driver E α) (w : World E) : Prop :=
  wp (awaits faults) ((deliverProtocol u faults).assume i) i c Q p w

section Programs

variable {faults : Prop} {u : Uuid} {i : Nat} {c : Call E} {d : DurableScheduler E} {w : World E}
  {o : DriverOp E}

/-- The operations that neither append to the target store nor publish. -/
def NotTarget : DriverOp E → Prop
  | .schedulerLoad _ | .schedulerAppend _ _ _ _ | .schedulerCreate _ _ | .targetLoad _ => True
  | .targetAppend _ _ _ _ | .publish _ => False

omit [ScheduledDomainEvent E] in
lemma NotTarget.same {w' r} (h : NotTarget o) (st : Performs faults i c w o w' r) :
    w'.target = w.target ∧ w'.published = w.published ∧ w'.targetLog = w.targetLog := by
  cases o with
  | schedulerLoad id => exact st.2 ▸ ⟨rfl, rfl, rfl⟩
  | schedulerAppend id expected events context =>
    obtain ⟨s, envs, _, rfl⟩ := st
    exact ⟨rfl, rfl, rfl⟩
  | schedulerCreate events context =>
    obtain ⟨s, envs, _, rfl⟩ := st
    exact ⟨rfl, rfl, rfl⟩
  | targetLoad id => exact st.2 ▸ ⟨rfl, rfl, rfl⟩
  | targetAppend => exact h.elim
  | publish => exact h.elim

lemma keep_scheduler {w w' r} (h : NotTarget o) (inv : DeliverInv u w)
    (st : Performs faults i c w o w' r) : DeliverInv u w' := by
  obtain ⟨et, ep, el⟩ := h.same st
  exact inv.scheduler st.grows.scheduler et ep el

/-- The append of `complete_fired` delivers what the loaded history lacks. -/
lemma targetAppend_delivers {fired event history last}
    (fact : .fired fired ∈ w.facts singletonStream)
    (hu : scheduledEventId event = fired.callerEventId)
    (nd : ¬ delivered fired.callerEventId history = true)
    (pre : history <+: w.target.streams fired.targetAggregate)
    (hl : history.getLast? = some last) :
    Delivers faults u i c
      (fun r v => ∀ envs, r = .ok envs →
        (own i v.published ++ entries i envs).Subperm (own i v.targetLog))
      (targetAppend fired.targetAggregate last.sequence [event] fired.correlation) w := by
  apply wp_attempt
  rintro w' rel inv w'' r ⟨s, envs, ap, rfl⟩
  replace inv : DeliverInv u w' := inv
  rcases ap.inv_one with ⟨rfl, rfl, e, rfl⟩ | ⟨last', env, hl', seq, rfl, rfl, own', es, re⟩
  · refine ⟨inv.scheduler (.refl _) rfl rfl (by simp [entries]), ?_⟩
    rintro v _ _ envs ⟨⟩
  · -- the sequence matched, so the history that was checked is the stream
    have whole : history = w'.target.streams fired.targetAggregate :=
      w'.target.eq_of_last (pre.trans (rel.target _)) hl hl' seq
    have new := countP_carries_of_not_delivered nd
    rw [whole, ← own'] at new
    rw [← own'] at es
    refine ⟨inv.deliver es (World.facts_mono fact rel.scheduler) own'.symm hu.symm new, ?_⟩
    rintro v rel' _ envs e
    obtain rfl : envs = [env] := by
      rcases re with rfl | ⟨_, rfl⟩
      · cases e
        rfl
      · cases e
    rw [rel'.published, rel'.targetLog, own_append_self]
    exact (List.subperm_append_right _).mpr (inv.published i)

/-- What a caller has appended and not published it may publish. -/
lemma publish_delivers {envs}
    (h : (own i w.published ++ entries i envs).Subperm (own i w.targetLog)) :
    Delivers faults u i c (fun _ _ => True) (publish envs) w := by
  apply wp_attempt
  rintro w' rel inv w'' r ⟨_, rfl⟩
  refine ⟨DeliverInv.publish inv ?_, fun _ _ _ => trivial⟩
  rw [rel.published, rel.targetLog]
  exact h

/-- `complete_fired` delivers at most once, for a fact of the scheduler stream. -/
lemma completeFired_delivers {fired} (hd : d.Preserves)
    (fact : .fired fired ∈ w.facts singletonStream) (hw : DeliverInv u w) :
    Delivers faults u i c (fun _ _ => True) (d.completeFired fired) w := by
  refine wp_then hw (wp_grown Rely.grows (fun h g => World.facts_mono h g.scheduler) fact
    targetLoad_history) ?_
  rintro history v hv ⟨fact, pre⟩
  replace pre := pre history rfl
  split
  · exact fun _ _ _ => trivial
  rename_i nd
  split
  · exact fun _ _ _ => trivial
  rename_i event dec
  split
  · exact fun _ _ _ => trivial
  rename_i last hl
  refine wp_then hv (targetAppend_delivers fact (hd _ _ dec) nd pre hl) ?_
  intro envelopes v' hv' h
  exact wp_map hv' (publish_delivers (h envelopes rfl))

/-- A fact whose append succeeds is in the stream. -/
lemma schedulerAppend_fact {id expected event context} :
    Delivers faults u i c (fun r v => ∀ envs, r = .ok envs → event ∈ v.facts id)
      (schedulerAppend id expected [event] context) w := by
  apply wp_attempt
  rintro w' rel inv w'' r st
  refine ⟨keep_scheduler (o := .schedulerAppend id expected [event] context) trivial inv st, ?_⟩
  obtain ⟨s, envs, ap, rfl⟩ := st
  rcases ap.inv_one with ⟨rfl, rfl, e, rfl⟩ | ⟨_, env, _, _, rfl, rfl, _, es, re⟩
  · rintro v _ _ envs ⟨⟩
  · rintro v rel' _ _ _
    refine World.facts_mono ?_ rel'.scheduler
    simp [World.facts, es]

/-- `fire_schedule` completes the fact it has appended. -/
lemma fireSchedule_delivers {scheduleId now} (hd : d.Preserves) (hw : DeliverInv u w) :
    Delivers faults u i c (fun _ _ => True) (d.fireSchedule scheduleId now) w := by
  refine wp_then hw (wp_uses keep_scheduler (.attempt trivial)) ?_
  intro history v hv _
  dsimp only
  split
  · exact fun _ _ _ => trivial
  split
  · exact fun _ _ _ => trivial
  split
  · exact fun _ _ _ => trivial
  split
  · exact fun _ _ _ => trivial
  refine wp_then hv schedulerAppend_fact ?_
  intro envs v' hv' fact
  exact wp_map hv' (completeFired_delivers hd (fact envs rfl) hv')

/-- What `recover_due` completes are facts of the stream it has loaded. -/
lemma fired_fact {history : List (EventEnvelope SchedulerEvent)} {fired}
    (mem : fired ∈ (SchedulerState.fromHistory history).fired) :
    .fired fired ∈ history.map (·.payload) := by
  rw [SchedulerState.fromHistory_eq] at mem
  obtain ⟨id, h⟩ := SchedulerState.mem_fired.mp mem
  exact (SchedulerState.firedSchedule_mem h).1

/-- `recover_due` completes facts of the stream and fires schedules. -/
lemma recoverDue_delivers {now} (hd : d.Preserves) (hw : DeliverInv u w) :
    Delivers faults u i c (fun _ _ => True) (d.recoverDue now) w := by
  refine wp_then hw schedulerLoad_history ?_
  intro history v hv pre
  replace pre := pre history rfl
  -- the first loop keeps the loaded history an initial part of the stream
  refine wp_seq hv (wp_foldlM (J := fun _ _ v => history <+: v.scheduler.streams singletonStream)
    (Q := fun _ _ => True) (fun h rel _ => h.trans (rel.scheduler _)) ?_ hv pre) ?_
    fun _ _ _ _ => trivial
  · intro done fired rest report v split hv pre
    have fact : .fired fired ∈ v.facts singletonStream :=
      (pre.map _).subset (fired_fact (by simp [split]))
    refine wp_seq hv (wp_grown Rely.grows (fun h g => List.IsPrefix.trans h (g.scheduler _)) pre
      (completeFired_delivers hd fact hv)) ?_ fun _ _ _ _ => trivial
    rintro done v hv ⟨pre, _⟩
    split <;> exact fun v' rel _ => pre.trans (rel.scheduler _)
  · intro report v hv _
    refine wp_foldlM_keep ?_ hv
    intro acc scheduleId v hv
    refine wp_then hv (fireSchedule_delivers hd hv) ?_
    intro o _ _ _
    split <;> exact fun _ _ _ => trivial

omit [ScheduledDomainEvent E] in
/-- `append_scheduler` leaves the target store and the bus alone. -/
lemma appendScheduler_uses (event : SchedulerEvent) (context : CorrelationContext) :
    (appendScheduler (E := E) event context).Uses NotTarget := by
  refine .bind (.attempt trivial) fun history => ?_
  dsimp only
  split
  · exact .bind (.attempt trivial) fun _ => trivial
  · refine .bind (.attempt trivial) fun created => ?_
    split <;> trivial

/-- Every call of a driver whose decoder preserves the caller event id keeps the deliveries. -/
lemma body_delivers (hd : c.driver.Preserves) (hw : DeliverInv u w) :
    Delivers faults u i c (fun _ _ => True) c.body w := by
  cases c with
  | arm d event =>
    exact wp_uses keep_scheduler (.bind (appendScheduler_uses _ _) fun _ => trivial)
  | cancel d event context =>
    exact wp_uses keep_scheduler (.bind (appendScheduler_uses _ _) fun _ => trivial)
  | fireSchedule d scheduleId now =>
    exact wp_map hw (fireSchedule_delivers hd hw)
  | recoverDue d now =>
    exact wp_map hw (recoverDue_delivers hd hw)

end Programs

section Runs

variable {faults : Prop} {u : Uuid} {may : Call E → Prop} {tr} {pool : Drivers E}

lemma DeliverInv.run (hd : ∀ c, may c → c.driver.Preserves)
    (r : Run (DriverStep faults (fun e => scheduledEventId e ≠ u) may) (Pool.init .init) tr pool) :
    DeliverInv u pool.world := by
  have init : DeliverInv u (.init : World E) :=
    ⟨by simp [World.init, World.start, Store.empty], by simp [World.init, World.start, Store.empty],
      by simp [World.init, World.start], by simp [World.init, World.start], fun _ => .refl _⟩
  have run : Pool.Ok (deliverProtocol u faults) (fun _ _ _ _ => True) pool :=
    Pool.Ok.run (fun m hw _ => body_delivers (hd _ m) hw) init (fun _ => Fresh.start) r
  exact run.inv

/-- A delivery goes to the target some `Armed` fact of the stream names. -/
lemma DeliverInv.armed {w : World E} (h : DeliverInv u w) (hf : FireInv w) {x}
    (mem : x ∈ w.targetLog) :
    ∃ a, .armed a ∈ w.facts singletonStream ∧ a.targetAggregate = x.2.aggregateId ∧
      a.callerEventId = scheduledEventId x.2.payload := by
  obtain ⟨f, fact, ht, hu⟩ := h.justified x mem
  obtain ⟨env, menv, ef⟩ := List.mem_map.mp fact
  obtain ⟨pre, post, split⟩ := List.append_of_mem menv
  obtain ⟨_, _, _, ⟨p, a, q, e, rfl, _⟩, _⟩ := hf _ pre env post f split ef
  refine ⟨a, ?_, ht, hu⟩
  have armed : .armed a ∈ pre.map (·.payload) := by simp [e]
  rw [World.facts, split, List.map_append]
  exact List.mem_append_left _ armed

/-- At-most-once delivery. In every interleaving of any number of drivers over the two stores, with
any call abandoned at any point, stores that fail or answer that they do not know, and other writers
that never use `u`: every target stream carries `u` at most once, every target has an envelope
carrying `u` published at most once, and `u` as a whole is published at most once if one target is
armed for it. An envelope is published only when it is already in the stream it names. -/
theorem delivered_at_most_once (hd : ∀ c, may c → c.driver.Preserves)
    (r : Run (DriverStep True (fun e => scheduledEventId e ≠ u) may) (Pool.init .init) tr pool) :
    (∀ t, (pool.world.target.streams t).countP (carries u) ≤ 1) ∧
    (∀ t, pool.world.published.countP (carriesTo t u) ≤ 1) ∧
    (∀ t, (∀ a, .armed a ∈ pool.world.facts singletonStream → a.callerEventId = u →
        a.targetAggregate = t) →
      pool.world.published.countP (fun x => carries u x.2) ≤ 1) ∧
    (∀ i envs pool',
      DriverStep True (fun e => scheduledEventId e ≠ u) may pool (.op i (.publish envs)) pool' →
      ∀ env ∈ envs, env ∈ pool.world.target.streams env.aggregateId) := by
  have inv := DeliverInv.run hd r
  have hf := FireInv.run r
  have perTarget : ∀ t, pool.world.published.countP (carriesTo t u) ≤ 1 := fun t =>
    calc pool.world.published.countP (carriesTo t u)
      _ ≤ pool.world.targetLog.countP (carriesTo t u) := inv.subperm.countP_le _
      _ = (pool.world.target.streams t).countP (carries u) := inv.ours t
      _ ≤ 1 := inv.once t
  refine ⟨inv.once, perTarget, ?_, ?_⟩
  · intro t one
    refine le_trans (le_of_eq (List.countP_congr fun x mem => ?_)) (perTarget t)
    rw [carriesTo, Bool.and_eq_true, decide_eq_true_eq]
    refine ⟨fun hx => ⟨?_, hx⟩, And.right⟩
    obtain ⟨a, armed, ht, hu⟩ := inv.armed hf (inv.subperm.subset mem)
    exact ht.symm.trans (one a armed (hu.trans (beq_iff_eq.mp hx)))
  · intro i envs pool' st env mem
    have inv' := DeliverInv.run hd (r.snoc st)
    cases st with
    | op _ ex =>
      obtain ⟨_, rfl⟩ := ex
      have pub : (i, env) ∈ pool.world.published ++ entries i envs :=
        List.mem_append_right _ (List.mem_map_of_mem mem)
      exact inv'.persisted _ (inv'.subperm.subset pub)

/-- One schedule, armed and recovered twice over. -/
theorem delivered_at_most_once_audit :
    ∃ tr, ∃ pool : Drivers AuditEvent,
      Run (DriverStep True (fun e => scheduledEventId e ≠ 300) fun c => c.driver = auditDriver)
        (Pool.init .init) tr pool ∧
      pool.world.published.length = 1 ∧
      (pool.world.target.streams ⟨.min⟩).countP (carries 300) ≤ 1 := by
  have hd : ∀ c : Call AuditEvent, c.driver = auditDriver → c.driver.Preserves :=
    fun c e => e ▸ auditDriver_preserves
  obtain ⟨tr, pool, r, e, _⟩ := audit_calls True (fun e => scheduledEventId e ≠ 300)
    (fun c => c.driver = auditDriver)
    [.arm auditDriver (auditSchedule ⟨30⟩ 300), .recoverDue auditDriver (auditAt 10),
      .recoverDue auditDriver (auditAt 10)] (by decide) (by simp [Call.driver])
  refine ⟨tr, pool, r, ?_, (delivered_at_most_once hd r).1 _⟩
  rw [e]
  decide

end Runs

end CherryPit.Scheduler
