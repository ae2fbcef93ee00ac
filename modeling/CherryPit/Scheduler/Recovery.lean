import CherryPit.Scheduler.Delivery

/-!
# Recovery

What one uninterrupted pass of `recover_due` does. It appends `Fired` facts only, one for each
schedule that was due, pending and never fired (`Ready`), and it delivers those and every fact that
had fired before (`recoverDue_recovers`). Two results follow: a second pass finds nothing to do, and
a schedule that is still owed after a pass is one that was armed again after it had fired.

`Recovering w now v` is the invariant of a pass that started in `w` and has reached `v`.
-/

namespace CherryPit.Scheduler

open Conc DurableScheduler SchedulerState

section Replay

/-- The facts of a list of fire decisions. -/
def fires (as : List ScheduleArmed) : List SchedulerEvent :=
  as.map fun a => .fired (.fromArmed a)

variable {es : List SchedulerEvent} {as : List ScheduleArmed} {id : ScheduleId} {now : Timestamp}
  {a b : ScheduleArmed}

lemma fires_concat : fires (as ++ [b]) = fires as ++ [.fired (.fromArmed b)] := by
  simp [fires]

/-- Fire decisions end what is pending for their schedules and nothing else. -/
lemma pendingSchedule_fires :
    (ofEvents (es ++ fires as)).pendingSchedule id = some a ↔
      (ofEvents es).pendingSchedule id = some a ∧ ∀ b ∈ as, b.scheduleId ≠ id := by
  induction as using List.reverseRecOn with
  | nil => simp [fires]
  | append_singleton as b ih =>
    rw [fires_concat, ← List.append_assoc, ofEvents_concat, pendingSchedule_replay]
    by_cases eq : b.scheduleId = id
    · simp [SchedulerEvent.scheduleId, ScheduleFired.fromArmed, eq]
    · have ne : (SchedulerEvent.fired (.fromArmed b)).scheduleId ≠ id := eq
      rw [if_neg ne, ih]
      simp [or_imp, forall_and, eq]

/-- A schedule has not fired after fire decisions for others. -/
lemma firedSchedule_fires_none :
    (ofEvents (es ++ fires as)).firedSchedule id = none ↔
      (ofEvents es).firedSchedule id = none ∧ ∀ b ∈ as, b.scheduleId ≠ id := by
  simp only [firedSchedule_eq_none, fires, List.mem_append, List.mem_map, or_imp, forall_and,
    forall_exists_index, and_imp, SchedulerEvent.fired.injEq]
  refine and_congr_right fun _ => ?_
  exact ⟨fun h b mem => h _ b mem rfl, fun h f b mem e => e ▸ h b mem⟩

/-- What has fired after fire decisions is one of them or had fired before. -/
lemma firedSchedule_fires_some {f} (h : (ofEvents (es ++ fires as)).firedSchedule id = some f) :
    (∃ b ∈ as, f = .fromArmed b) ∨ (ofEvents es).firedSchedule id = some f := by
  induction as using List.reverseRecOn with
  | nil => exact .inr (by simpa [fires] using h)
  | append_singleton as b ih =>
    rw [fires_concat, ← List.append_assoc, ofEvents_concat, firedSchedule_replay] at h
    dsimp only at h
    split at h
    · cases h
      exact .inl ⟨b, by simp, rfl⟩
    · refine (ih h).imp_left ?_
      rintro ⟨b', mem, e⟩
      exact ⟨b', by simp [mem], e⟩

/-- What is pending is not cancelled. -/
lemma isCancelled_of_pending (h : (ofEvents es).pendingSchedule id = some a) :
    (ofEvents es).isCancelled id = false := by
  obtain ⟨p, q, rfl, rfl, last⟩ := pendingSchedule_eq_some.mp h
  exact isCancelled_eq_false fun c mem => last _ mem

/-- A schedule that `fire_schedule` would fire. -/
structure Ready (es : List SchedulerEvent) (now : Timestamp) (a : ScheduleArmed) : Prop where
  pending : (ofEvents es).pendingSchedule a.scheduleId = some a
  unfired : (ofEvents es).firedSchedule a.scheduleId = none
  due : a.fireAt ≤ now

/-- Fire decisions for other schedules leave a schedule ready, and make none ready. -/
lemma ready_fires :
    Ready (es ++ fires as) now a ↔ Ready es now a ∧ ∀ b ∈ as, b.scheduleId ≠ a.scheduleId := by
  constructor
  · rintro ⟨hp, hf, due⟩
    obtain ⟨hp, ne⟩ := pendingSchedule_fires.mp hp
    exact ⟨⟨hp, (firedSchedule_fires_none.mp hf).1, due⟩, ne⟩
  · rintro ⟨⟨hp, hf, due⟩, ne⟩
    exact ⟨pendingSchedule_fires.mpr ⟨hp, ne⟩, firedSchedule_fires_none.mpr ⟨hf, ne⟩, due⟩

lemma Ready.unique (h : Ready es now a) (h' : Ready es now b) (e : a.scheduleId = b.scheduleId) :
    a = b := by
  have hp := h.pending
  rw [e, h'.pending] at hp
  exact (Option.some.inj hp).symm

/-- If a ready schedule has fired since, it is the decision for that schedule. -/
lemma Ready.fired_since {f} (h : Ready es now a) (hr : ∀ b ∈ as, Ready es now b)
    (hf : (ofEvents (es ++ fires as)).firedSchedule a.scheduleId = some f) : f = .fromArmed a := by
  have eid := (firedSchedule_mem hf).2
  rcases firedSchedule_fires_some hf with ⟨b, mem, rfl⟩ | old
  · rw [(hr b mem).unique h eid]
  · rw [h.unfired] at old
    cases old

end Replay

variable {E : Type} [ScheduledDomainEvent E] {v' : World E}

lemma delivered_mono {u : Uuid} {history history' : List (EventEnvelope E)}
    (h : delivered u history = true) (pre : history <+: history') :
    delivered u history' = true := by
  rw [delivered, List.any_eq_true] at h ⊢
  exact h.imp fun _ => And.imp_left fun mem => pre.subset mem

/-- A fired fact is recorded and its caller event delivered. -/
structure Settled (v : World E) (f : ScheduleFired) : Prop where
  fact : .fired f ∈ v.facts singletonStream
  delivered : delivered f.callerEventId (v.target.streams f.targetAggregate) = true

lemma Settled.mono {v : World E} {f} (h : Settled v f) (g : Grows v v') : Settled v' f :=
  ⟨World.facts_mono h.fact g.scheduler, delivered_mono h.delivered (g.target _)⟩

/-- A pass of `recover_due` at `now` that started in `w` and has reached `v`. -/
structure Recovering (w : World E) (now : Timestamp) (v : World E) : Prop where
  facts : ∃ as, v.facts singletonStream = w.facts singletonStream ++ fires as ∧
    ∀ a ∈ as, Ready (w.facts singletonStream) now a
  target : w.target.Extends v.target
  only : ∀ t u, delivered u (v.target.streams t) = true →
    delivered u (w.target.streams t) = true ∨
      ∃ f, .fired f ∈ v.facts singletonStream ∧ f.targetAggregate = t ∧ f.callerEventId = u

/-- Every fact that has fired during the pass is settled. -/
def NewsSettled (w v : World E) : Prop :=
  ∀ f, .fired f ∈ v.facts singletonStream → .fired f ∈ w.facts singletonStream ∨ Settled v f

namespace Recovering

variable {w v : World E} {now : Timestamp}

lemma refl : Recovering w now w :=
  ⟨⟨[], by simp [fires], by simp⟩, .refl _, fun _ _ h => .inl h⟩

/-- The invariant depends on the scheduler stream and the target store only. -/
lemma congr (h : Recovering w now v) (ef : v'.facts singletonStream = v.facts singletonStream)
    (et : v'.target = v.target) :
    Recovering w now v' :=
  ⟨ef ▸ h.facts, et ▸ h.target, ef ▸ et ▸ h.only⟩

/-- A ready schedule is fired. -/
lemma fire {a} (h : Recovering w now v) (ready : Ready (v.facts singletonStream) now a)
    (ef : v'.facts singletonStream = v.facts singletonStream ++ [.fired (.fromArmed a)])
    (et : v'.target = v.target) : Recovering w now v' := by
  obtain ⟨as, e, hr⟩ := h.facts
  rw [e] at ready
  refine ⟨⟨as ++ [a], by simp [ef, e, fires], ?_⟩, et ▸ h.target, ?_⟩
  · intro b mem
    rcases List.mem_append.mp mem with mem | mem
    · exact hr b mem
    · rw [List.mem_singleton.mp mem]
      exact (ready_fires.mp ready).1
  · intro t u hu
    rw [et] at hu
    refine (h.only t u hu).imp_right ?_
    rintro ⟨f, mem, e⟩
    exact ⟨f, ef ▸ List.mem_append_left _ mem, e⟩

/-- A recorded fact is delivered. -/
lemma deliver {fired env} (h : Recovering w now v) (fact : .fired fired ∈ v.facts singletonStream)
    (hu : scheduledEventId env.payload = fired.callerEventId)
    (ef : v'.facts singletonStream = v.facts singletonStream)
    (es : v'.target.streams = Function.update v.target.streams fired.targetAggregate
      (v.target.streams fired.targetAggregate ++ [env])) :
    Recovering w now v' := by
  refine ⟨ef ▸ h.facts, h.target.trans (Store.extends_update es (List.prefix_append _ _)), ?_⟩
  intro t u del
  rw [ef]
  rw [es] at del
  rcases eq_or_ne t fired.targetAggregate with rfl | ne
  · rw [Function.update_self, delivered, List.any_append, Bool.or_eq_true] at del
    rcases del with del | del
    · exact h.only _ u del
    · refine .inr ⟨fired, fact, rfl, ?_⟩
      rw [← hu]
      simpa using del
  · rw [Function.update_of_ne ne] at del
    exact h.only t u del

/-- A schedule that was ready when the pass started is ready until it fires. -/
lemma still_ready {a} (h : Recovering w now v) (ready : Ready (w.facts singletonStream) now a)
    (unfired : (ofEvents (v.facts singletonStream)).firedSchedule a.scheduleId = none) :
    Ready (v.facts singletonStream) now a := by
  obtain ⟨as, e, _⟩ := h.facts
  rw [e] at unfired ⊢
  exact ready_fires.mpr ⟨ready, (firedSchedule_fires_none.mp unfired).2⟩

/-- A schedule that was ready when the pass started is terminal only by what the pass settled. -/
lemma terminal {a} (h : Recovering w now v) (news : NewsSettled w v)
    (ready : Ready (w.facts singletonStream) now a)
    (term : (((ofEvents (v.facts singletonStream)).firedSchedule a.scheduleId).isSome ||
      (ofEvents (v.facts singletonStream)).isCancelled a.scheduleId) = true) :
    Settled v (.fromArmed a) := by
  cases hf : (ofEvents (v.facts singletonStream)).firedSchedule a.scheduleId with
  | none =>
    rw [hf, isCancelled_of_pending (h.still_ready ready hf).pending] at term
    cases term
  | some f =>
    -- the fact is not an old one, since the schedule had not fired when the pass started
    obtain ⟨as, e, hr⟩ := h.facts
    obtain ⟨fact, eid⟩ := firedSchedule_mem hf
    rw [e] at hf
    obtain rfl := ready.fired_since hr hf
    rcases news _ fact with old | settled
    · exact (firedSchedule_eq_none.mp ready.unfired _ old eid).elim
    · exact settled

end Recovering

/-- A program that is part of a pass of `recover_due` with nothing else running. -/
abbrev Recovers {α : Type} (faults : Prop) (w : World E) (now : Timestamp) (i : Nat) (c : Call E)
    (Q : Except AgentError α → World E → Prop) (p : Driver E α) (v : World E) : Prop :=
  wp (awaits faults) (.solo (Recovering w now)) i c Q p v

section Loads

variable {faults : Prop} {I : World E → Prop} {i : Nat} {c : Call E} {v : World E}

omit [ScheduledDomainEvent E] in
/-- With nothing else running a loaded scheduler history is the stream. -/
lemma schedulerLoad_alone {id : AggregateId} :
    wp (awaits faults) (.solo I) i c
      (fun r v' => v = v' ∧ (∀ history, r = .ok history → history = v.scheduler.streams id) ∧
        (¬ faults → ∀ e, r ≠ .error e))
      (schedulerLoad id) v := by
  apply wp_attempt
  rintro _ rfl hi _ r ⟨ld, rfl⟩
  refine ⟨hi, ?_⟩
  rintro _ rfl _
  cases ld with
  | ok => exact ⟨rfl, by rintro _ ⟨⟩; rfl, fun _ _ => nofun⟩
  | fault f => exact ⟨rfl, fun _ => nofun, fun nf => (nf f).elim⟩

omit [ScheduledDomainEvent E] in
/-- With nothing else running a loaded target history is the stream. -/
lemma targetLoad_alone {id : AggregateId} :
    wp (awaits faults) (.solo I) i c
      (fun r v' => v = v' ∧ (∀ history, r = .ok history → history = v.target.streams id) ∧
        (¬ faults → ∀ e, r ≠ .error e))
      (targetLoad id) v := by
  apply wp_attempt
  rintro _ rfl hi _ r ⟨ld, rfl⟩
  refine ⟨hi, ?_⟩
  rintro _ rfl _
  cases ld with
  | ok => exact ⟨rfl, by rintro _ ⟨⟩; rfl, fun _ _ => nofun⟩
  | fault f => exact ⟨rfl, fun _ => nofun, fun nf => (nf f).elim⟩

end Loads

section Pass

variable {faults : Prop} {w v : World E} {now : Timestamp} {i : Nat} {c : Call E}
  {d : DurableScheduler E}

/-- The append of `complete_fired` delivers. -/
lemma targetAppend_recovers {fired event expected context} (hv : Recovering w now v)
    (fact : .fired fired ∈ v.facts singletonStream)
    (hu : scheduledEventId event = fired.callerEventId) :
    Recovers faults w now i c
      (fun r v' => ∀ envs, r = .ok envs → v'.facts singletonStream = v.facts singletonStream ∧
        delivered fired.callerEventId (v'.target.streams fired.targetAggregate) = true)
      (targetAppend fired.targetAggregate expected [event] context) v := by
  apply wp_attempt
  rintro _ rfl _ _ r ⟨s, envs, ap, rfl⟩
  rcases ap.inv_one with ⟨rfl, rfl, e, rfl⟩ | ⟨_, env, _, _, rfl, rfl, _, es, re⟩
  · refine ⟨hv.congr rfl rfl, ?_⟩
    rintro _ rfl _ envs ⟨⟩
  · refine ⟨hv.deliver fact hu rfl es, ?_⟩
    rintro _ rfl _ _ _
    refine ⟨rfl, ?_⟩
    simp [es, delivered, hu]

/-- `complete_fired` settles a recorded fact. -/
lemma completeFired_recovers {fired} (hd : d.Preserves) (hv : Recovering w now v)
    (fact : .fired fired ∈ v.facts singletonStream) :
    Recovers faults w now i c
      (fun r v' => ∀ b, r = .ok b → v'.facts singletonStream = v.facts singletonStream ∧
        Settled v' fired) (d.completeFired fired) v := by
  refine wp_seq_ok hv targetLoad_alone ?_
  rintro history _ _ ⟨rfl, whole, _⟩
  obtain rfl := whole history rfl
  split
  · rename_i del
    rintro _ rfl _ _ _
    exact ⟨rfl, fact, del⟩
  split
  · rintro _ rfl _ b ⟨⟩
  rename_i event dec
  split
  · rintro _ rfl _ b ⟨⟩
  refine wp_seq_ok hv (targetAppend_recovers hv fact (hd _ _ dec)) ?_
  intro envelopes v' hv' h
  obtain ⟨ef, del⟩ := h envelopes rfl
  have publishes : Recovers faults w now i c
      (fun _ v'' => v''.facts singletonStream = v'.facts singletonStream ∧ v''.target = v'.target)
      (publish envelopes) v' := by
    apply wp_attempt
    rintro _ rfl hi _ r ⟨_, rfl⟩
    refine ⟨hi.congr rfl rfl, ?_⟩
    rintro _ rfl _
    exact ⟨rfl, rfl⟩
  refine wp_seq_ok hv' publishes ?_
  rintro _ v'' _ ⟨ef', et⟩ _ rfl _ _ _
  refine ⟨ef'.trans ef, ?_, ?_⟩
  · rw [ef', ef]
    exact fact
  · rw [et]
    exact del

/-- A ready schedule is recorded as fired. -/
lemma schedulerAppend_recovers {a expected context} (hv : Recovering w now v)
    (ready : Ready (v.facts singletonStream) now a) :
    Recovers faults w now i c
      (fun r v' => ∀ envs, r = .ok envs → v'.target = v.target ∧
        v'.facts singletonStream = v.facts singletonStream ++ [.fired (.fromArmed a)])
      (schedulerAppend singletonStream expected [.fired (.fromArmed a)] context) v := by
  apply wp_attempt
  rintro _ rfl _ _ r ⟨s, envs, ap, rfl⟩
  rcases ap.inv_one with ⟨rfl, rfl, e, rfl⟩ | ⟨_, env, _, _, rfl, ep, _, es, re⟩
  · refine ⟨hv.congr rfl rfl, ?_⟩
    rintro _ rfl _ envs ⟨⟩
  · have ef : s.streams singletonStream = v.scheduler.streams singletonStream ++ [env] := by
      rw [es, Function.update_self]
    refine ⟨hv.fire ready (by simp [World.facts, ef, ep]) rfl, ?_⟩
    rintro _ rfl _ _ _
    exact ⟨rfl, by simp [World.facts, ef, ep]⟩

/-- `fire_schedule` settles the schedule it is called for, if it was ready when the pass started. -/
lemma fireSchedule_recovers {id} (hd : d.Preserves) (hv : Recovering w now v)
    (news : NewsSettled w v) :
    Recovers faults w now i c
      (fun r v' => ∀ o, r = .ok o → NewsSettled w v' ∧
        ∀ a, Ready (w.facts singletonStream) now a → a.scheduleId = id →
          Settled v' (.fromArmed a)) (d.fireSchedule id now) v := by
  refine wp_seq_ok hv schedulerLoad_alone ?_
  rintro history _ _ ⟨rfl, whole, _⟩
  obtain rfl := whole history rfl
  dsimp only
  rw [World.fromHistory_streams]
  split
  · rename_i term
    rintro _ rfl _ _ _
    refine ⟨news, ?_⟩
    rintro a ready rfl
    exact hv.terminal news ready term
  rename_i term
  rw [Bool.or_eq_true, not_or, Option.not_isSome_iff_eq_none] at term
  split
  · rename_i hp
    rintro _ rfl _ _ _
    refine ⟨news, ?_⟩
    rintro a ready rfl
    rw [(hv.still_ready ready term.1).pending] at hp
    cases hp
  rename_i armed hp
  split
  · rename_i notDue
    rintro _ rfl _ _ _
    refine ⟨news, ?_⟩
    rintro a ready rfl
    rw [(hv.still_ready ready term.1).pending] at hp
    cases hp
    exact absurd ready.due (not_le.mpr notDue)
  rename_i due
  -- all checks passed: the schedule is ready, and is fired and completed
  obtain rfl : armed.scheduleId = id := pendingSchedule_id hp
  have ready : Ready (v.facts singletonStream) now armed := ⟨hp, term.1, not_lt.mp due⟩
  split
  · rename_i empty
    rw [World.facts, List.getLast?_eq_none_iff.mp empty] at hp
    cases hp
  refine wp_seq_ok hv (schedulerAppend_recovers hv ready) ?_
  intro envs v1 hv1 h1
  obtain ⟨et1, ef1⟩ := h1 envs rfl
  have fact : .fired (.fromArmed armed) ∈ v1.facts singletonStream := by simp [ef1]
  refine wp_seq_ok hv1 (wp_grown Grows.of_eq (fun h g => Store.Extends.trans h g.target)
    (.refl v1.target) (completeFired_recovers hd hv1 fact)) ?_
  rintro b v2 hv2 ⟨ext, h2⟩ _ rfl _ _ _
  obtain ⟨ef2, settled⟩ := h2 b rfl
  refine ⟨?_, ?_⟩
  · intro f mem
    rw [ef2, ef1, List.mem_append, List.mem_singleton] at mem
    rcases mem with mem | mem
    · refine (news f mem).imp_right fun s => ⟨?_, ?_⟩
      · rw [ef2, ef1]
        exact List.mem_append_left _ s.fact
      · exact delivered_mono s.delivered (et1 ▸ ext _)
    · cases mem
      exact .inr settled
  · intro a ready' e
    have same := (hv.still_ready ready' (e ▸ term.1)).unique ready e
    rw [same]
    exact settled

/-- A pass settles every fact that had fired and every schedule that was ready. -/
lemma recoverDue_recovers (hd : d.Preserves) :
    Recovers faults w now i c
      (fun r v => ∀ report, r = .ok report →
        (∀ f ∈ (ofEvents (w.facts singletonStream)).fired, Settled v f) ∧
        ∀ a, Ready (w.facts singletonStream) now a → Settled v (.fromArmed a))
      (d.recoverDue now) w := by
  refine wp_seq_ok .refl schedulerLoad_alone ?_
  rintro history _ hw ⟨rfl, whole, _⟩
  obtain rfl := whole history rfl
  dsimp only
  rw [World.fromHistory_streams]
  -- the first loop completes what had fired and leaves the scheduler stream alone
  refine wp_seq_ok hw (wp_foldlM (Q := fun _ _ => True)
    (J := fun done _ v => v.facts singletonStream = w.facts singletonStream ∧
      ∀ f ∈ done, Settled v f) (by rintro _ _ _ _ h rfl _; exact h) ?_ hw (by simp)) ?_
  · rintro done fired rest report v split hv ⟨ef, settled⟩
    have fact : .fired fired ∈ v.facts singletonStream := by
      have mem : fired ∈ (ofEvents (w.facts singletonStream)).fired := by simp [split]
      obtain ⟨id, h⟩ := mem_fired.mp mem
      rw [ef]
      exact (firedSchedule_mem h).1
    refine wp_seq hv (wp_grown (F := fun v => ∀ f ∈ done, Settled v f) Grows.of_eq
      (fun h g f mem => (h f mem).mono g) settled
      (completeFired_recovers hd hv fact)) ?_ fun _ _ _ _ => trivial
    rintro b v' hv' ⟨settled', h⟩
    obtain ⟨ef', new⟩ := h b rfl
    have all : ∀ f ∈ done ++ [fired], Settled v' f := by
      simpa [or_imp, forall_and, new] using settled'
    split <;> (rintro _ rfl _; exact ⟨ef'.trans ef, all⟩)
  · rintro report v hv ⟨ef, settled⟩
    -- the second loop fires what is due
    have start : NewsSettled w v := fun f mem => .inl (ef ▸ mem)
    refine wp_conseq ?_ (wp_foldlM (Q := fun _ _ => True)
      (J := fun done _ v => NewsSettled w v ∧
        (∀ f ∈ (ofEvents (w.facts singletonStream)).fired, Settled v f) ∧
        ∀ a, Ready (w.facts singletonStream) now a → a.scheduleId ∈ done → Settled v (.fromArmed a))
      (by rintro _ _ _ _ h rfl _; exact h) ?_ hv ⟨start, settled, by simp⟩)
    · rintro r v' _ h report rfl
      refine ⟨h.2.1, fun a ready => h.2.2 a ready (List.mem_map_of_mem ?_)⟩
      exact mem_duePending.mpr ⟨⟨_, ready.pending⟩, ready.due⟩
    · rintro done id rest report v split hv ⟨news, settled, fired⟩
      refine wp_seq hv (wp_grown
        (F := fun v => (∀ f ∈ (ofEvents (w.facts singletonStream)).fired, Settled v f) ∧
          ∀ a, Ready (w.facts singletonStream) now a → a.scheduleId ∈ done →
            Settled v (.fromArmed a)) Grows.of_eq
        (fun h g => ⟨fun f mem => (h.1 f mem).mono g, fun a r mem => (h.2 a r mem).mono g⟩)
        ⟨settled, fired⟩ (fireSchedule_recovers hd hv news)) ?_ fun _ _ _ _ => trivial
      rintro o v' hv' ⟨⟨settled', fired'⟩, h⟩
      obtain ⟨news', new⟩ := h o rfl
      have all : ∀ a, Ready (w.facts singletonStream) now a → a.scheduleId ∈ done ++ [id] →
          Settled v' (.fromArmed a) := by
        intro a ready mem
        rcases List.mem_append.mp mem with mem | mem
        · exact fired' a ready mem
        · exact new a ready (List.mem_singleton.mp mem)
      split <;> (rintro _ rfl _; exact ⟨news', settled', all⟩)

end Pass

/-- `recover_due` by caller `i` with nothing else running. -/
abbrev RecoverDue (faults : Prop) (i : Nat) (d : DurableScheduler E) (now : Timestamp)
    (w w' : World E) (x : Except AgentError ScheduleRecoveryReport) : Prop :=
  Exec (awaits faults) i (.recoverDue d now) w (d.recoverDue now) w' x

/-- `recover_due` over stores and a bus that do not fail. -/
def recoverDueNow (i : Nat) (d : DurableScheduler E) (now : Timestamp) (w : World E) :
    World E × Except AgentError ScheduleRecoveryReport :=
  (d.recoverDue now).interp (answer i (.recoverDue d now)) w

lemma recoverDueNow_recoverDue (faults : Prop) (i : Nat) (d : DurableScheduler E) (now : Timestamp)
    (w : World E) :
    RecoverDue faults i d now w (recoverDueNow i d now w).1 (recoverDueNow i d now w).2 :=
  (Prog.interp_exec answer_performs _ w).mono (Performs.mono False.elim)

section Idempotence

variable {w w' : World E} {now : Timestamp} {i : Nat} {d : DurableScheduler E}

/-- Nothing is left for `recover_due` to do. -/
structure Quiet (now : Timestamp) (w : World E) : Prop where
  completed : ∀ f ∈ (ofEvents (w.facts singletonStream)).fired,
    delivered f.callerEventId (w.target.streams f.targetAggregate) = true
  terminal : ∀ a ∈ (ofEvents (w.facts singletonStream)).duePending now,
    (((ofEvents (w.facts singletonStream)).firedSchedule a.scheduleId).isSome ||
      (ofEvents (w.facts singletonStream)).isCancelled a.scheduleId) = true

/-- After a pass that returned nothing is left to do. -/
lemma quiet_of_recovered {report} (hd : d.Preserves)
    (ex : RecoverDue True i d now w w' (.ok report)) : Quiet now w' := by
  obtain ⟨rec', h⟩ := wp_exec (recoverDue_recovers hd) .refl ex
  obtain ⟨settled, fired⟩ := h report rfl
  obtain ⟨as, ef, hr⟩ := rec'.facts
  refine ⟨?_, ?_⟩
  · intro f mem
    obtain ⟨id, hf⟩ := mem_fired.mp mem
    rw [ef] at hf
    rcases firedSchedule_fires_some hf with ⟨b, new, rfl⟩ | old
    · exact (fired b (hr b new)).delivered
    · exact (settled f (mem_fired.mpr ⟨id, old⟩)).delivered
  · intro a mem
    obtain ⟨⟨id, hp⟩, due⟩ := mem_duePending.mp mem
    obtain rfl : a.scheduleId = id := pendingSchedule_id hp
    rw [Bool.or_eq_true, Option.isSome_iff_ne_none]
    refine .inl fun unfired => ?_
    rw [ef] at hp unfired
    -- a schedule that has not fired was ready, and the pass has fired it
    have ready : Ready (w.facts singletonStream) now a :=
      (ready_fires.mp ⟨hp, unfired, due⟩).1
    rw [← ef] at unfired
    exact firedSchedule_eq_none.mp unfired _ (fired a ready).fact rfl

/-- `complete_fired` of what is delivered. -/
lemma completeFired_quiet {c fired}
    (h : delivered fired.callerEventId (w.target.streams fired.targetAggregate) = true) :
    wp (awaits False) (.solo (· = w)) i c (fun r _ => r = .ok false) (d.completeFired fired) w := by
  refine wp_seq rfl targetLoad_alone ?_ fun e _ _ h => (h.2.2 not_false e rfl).elim
  rintro history _ _ ⟨rfl, whole, _⟩
  obtain rfl := whole history rfl
  rw [if_pos h]
  exact fun _ _ _ => rfl

/-- `fire_schedule` of what is terminal. -/
lemma fireSchedule_quiet {c id}
    (h : (((ofEvents (w.facts singletonStream)).firedSchedule id).isSome ||
      (ofEvents (w.facts singletonStream)).isCancelled id) = true) :
    wp (awaits False) (.solo (· = w)) i c (fun r _ => r = .ok .terminal)
      (d.fireSchedule id now) w := by
  refine wp_seq rfl schedulerLoad_alone ?_ fun e _ _ h => (h.2.2 not_false e rfl).elim
  rintro history _ _ ⟨rfl, whole, _⟩
  obtain rfl := whole history rfl
  dsimp only
  rw [World.fromHistory_streams, if_pos h]
  exact fun _ _ _ => rfl

/-- `recover_due` of a quiet pair of stores reports nothing. -/
lemma recoverDue_quiet {c} (q : Quiet now w) :
    wp (awaits False) (.solo (· = w)) i c (fun r _ => r = .ok {}) (d.recoverDue now) w := by
  refine wp_seq rfl schedulerLoad_alone ?_ fun e _ _ h => (h.2.2 not_false e rfl).elim
  rintro history _ _ ⟨rfl, whole, _⟩
  obtain rfl := whole history rfl
  dsimp only
  rw [World.fromHistory_streams]
  refine wp_seq rfl (wp_foldlM (J := fun _ (report : ScheduleRecoveryReport) _ => report = {})
    (Q := fun _ _ => False) (fun h _ _ => h) ?_ rfl rfl) ?_ fun _ _ _ h => h.elim
  · rintro done fired rest _ v split hv rfl
    obtain rfl : v = w := hv
    refine wp_seq rfl (completeFired_quiet (q.completed fired (by simp [split]))) ?_ nofun
    rintro _ _ _ ⟨⟩
    exact fun _ _ _ => rfl
  · rintro _ v hv rfl
    obtain rfl : v = w := hv
    refine wp_conseq ?_ (wp_foldlM (J := fun _ (report : ScheduleRecoveryReport) _ => report = {})
      (Q := fun _ _ => False) (fun h _ _ => h) ?_ rfl rfl)
    · intro r _ _ h
      cases r with
      | ok report => exact congrArg _ h
      | error e => exact h.elim
    · rintro done id rest _ v' split hv rfl
      obtain rfl : v' = v := hv
      have mem : id ∈
          ((ofEvents (v'.facts singletonStream)).duePending now).map (·.scheduleId) := by
        simp [split]
      obtain ⟨a, due, rfl⟩ := List.mem_map.mp mem
      refine wp_seq rfl (fireSchedule_quiet (q.terminal a due)) ?_ nofun
      rintro _ _ _ ⟨⟩
      exact fun _ _ _ => rfl

/-- `recover_due` is idempotent. Whatever the two stores hold and whatever was left half done in
them, if a pass returns `Ok` and nothing else runs, a second pass at the same `now` (by any driver,
over stores that do not fail) returns `Ok` with nothing fired and nothing completed, and leaves both
stores and the bus as they were. -/
theorem recoverDue_idempotent {d d' : DurableScheduler E} {i i' report} (hd : d.Preserves)
    (ex : RecoverDue True i d now w w' (.ok report)) :
    (∃ w'' x, RecoverDue False i' d' now w' w'' x) ∧
    ∀ w'' x, RecoverDue False i' d' now w' w'' x →
      w'' = w' ∧ x = .ok { fired := 0, completed := 0 } := by
  refine ⟨⟨_, _, recoverDueNow_recoverDue False i' d' now w'⟩, ?_⟩
  intro w'' x ex'
  exact wp_exec (recoverDue_quiet (quiet_of_recovered hd ex)) rfl ex'

/-- A schedule that was armed is fired and delivered by the first pass. -/
theorem recoverDue_idempotent_audit :
    ∃ w' : World AuditEvent,
      RecoverDue True 1 auditDriver (auditAt 10)
        (runCalls 0 [.arm auditDriver (auditSchedule ⟨30⟩ 300)] auditOpened).1 w' (.ok ⟨1, 1⟩) ∧
      ∀ w'' x, RecoverDue False 2 auditDriver (auditAt 10) w' w'' x →
        w'' = w' ∧ x = .ok ⟨0, 0⟩ := by
  have ex := recoverDueNow_recoverDue True 1 auditDriver (auditAt 10)
    (runCalls 0 [.arm auditDriver (auditSchedule ⟨30⟩ 300)] auditOpened).1
  exact ⟨_, ex, (recoverDue_idempotent auditDriver_preserves ex).2⟩

end Idempotence

section Owed

/-- `a` is the latest `Armed` fact of its schedule, due, and no `Cancelled` fact follows it: after
it come only `Fired` facts for the schedule. -/
structure Owed (es : List SchedulerEvent) (now : Timestamp) (p : List SchedulerEvent)
    (a : ScheduleArmed) (q : List SchedulerEvent) : Prop where
  split : es = p ++ .armed a :: q
  latest : ∀ e ∈ q, e.scheduleId = a.scheduleId → ∃ f, e = .fired f
  due : a.fireAt ≤ now

/-- The caller event of every schedule that is owed is in the stream of its target. -/
def NoneLost (now : Timestamp) (w : World E) : Prop :=
  ∀ p a q, Owed (w.facts singletonStream) now p a q →
    delivered a.callerEventId (w.target.streams a.targetAggregate) = true

/-- The caller event of `a` is in the stream of its target, or a `Fired` fact carries it there, or a
schedule that is ready does. -/
def Covered (now : Timestamp) (w : World E) (a : ScheduleArmed) : Prop :=
  delivered a.callerEventId (w.target.streams a.targetAggregate) = true ∨
  (∃ f, .fired f ∈ w.facts singletonStream ∧ f.targetAggregate = a.targetAggregate ∧
    f.callerEventId = a.callerEventId) ∨
  ∃ b, Ready (w.facts singletonStream) now b ∧ b.targetAggregate = a.targetAggregate ∧
    b.callerEventId = a.callerEventId

/-- Every schedule that is owed and was armed again after it had fired is covered otherwise. -/
def RearmedCovered (now : Timestamp) (w : World E) : Prop :=
  ∀ p a q, Owed (w.facts singletonStream) now p a q →
    (∃ f, .fired f ∈ p ∧ f.scheduleId = a.scheduleId) → Covered now w a

variable {es p q : List SchedulerEvent} {as : List ScheduleArmed} {a : ScheduleArmed}
  {now : Timestamp} {w w' : World E}

lemma not_armed_mem_fires (a : ScheduleArmed) (as : List ScheduleArmed) : .armed a ∉ fires as := by
  simp [fires]

/-- What is owed stays owed after fire decisions. -/
lemma Owed.append (h : Owed es now p a q) : Owed (es ++ fires as) now p a (q ++ fires as) := by
  refine ⟨by simp [h.split], ?_, h.due⟩
  intro e mem
  rcases List.mem_append.mp mem with mem | mem
  · exact h.latest e mem
  · obtain ⟨b, _, rfl⟩ := List.mem_map.mp mem
    exact fun _ => ⟨_, rfl⟩

/-- What is owed after fire decisions was owed before. -/
lemma Owed.of_fires (h : Owed (es ++ fires as) now p a q) : ∃ q', Owed es now p a q' := by
  rcases List.append_eq_append_iff.mp h.split with ⟨t, _, e⟩ | ⟨t, e, e'⟩
  · exact absurd (by rw [e]; simp) (not_armed_mem_fires a as)
  · cases t with
    | nil =>
      rw [List.nil_append] at e'
      exact absurd (by simp [← e']) (not_armed_mem_fires a as)
    | cons x t =>
      obtain ⟨rfl, rfl⟩ := List.cons.inj e'
      exact ⟨t, e, fun e mem => h.latest e (List.mem_append_left _ mem), h.due⟩

omit [ScheduledDomainEvent E] in
/-- A fact that has fired is what the replay says has fired. -/
lemma FireInv.mem_fired {f stream} (h : FireInv w) (mem : .fired f ∈ w.facts stream) :
    f ∈ (ofEvents (w.facts stream)).fired := by
  cases hf : (ofEvents (w.facts stream)).firedSchedule f.scheduleId with
  | none => exact (firedSchedule_eq_none.mp hf f mem rfl).elim
  | some f' =>
    obtain ⟨mem', eid⟩ := firedSchedule_mem hf
    refine SchedulerState.mem_fired.mpr ⟨f.scheduleId, hf.trans (congrArg _ ?_)⟩
    -- of two different facts for one schedule the later one would not have been appended
    obtain ⟨pre, post, e⟩ := List.append_of_mem mem
    obtain ⟨_, fb⟩ := h.facts e
    rw [e, List.mem_append, List.mem_cons] at mem'
    rcases mem' with mem' | mem' | mem'
    · exact (fb.first f' mem' eid).elim
    · exact SchedulerEvent.fired.inj mem'
    · obtain ⟨s, t, rfl⟩ := List.append_of_mem mem'
      rw [← List.cons_append, ← List.append_assoc] at e
      obtain ⟨_, fb'⟩ := h.facts e
      exact (fb'.first f (by simp) eid.symm).elim

omit [ScheduledDomainEvent E] in
/-- What has fired after the latest `Armed` fact was decided on that fact. -/
lemma FireInv.fired_owed {f stream} (h : FireInv w) (o : Owed (w.facts stream) now p a q)
    (mem : .fired f ∈ q) (eid : f.scheduleId = a.scheduleId) : f = .fromArmed a := by
  obtain ⟨s, t, rfl⟩ := List.append_of_mem mem
  have e := o.split
  rw [← List.cons_append, ← List.append_assoc] at e
  obtain ⟨_, ⟨p', a', q', split, rfl, last, _⟩, first⟩ := h.facts e
  have quiet : ∀ e ∈ s, e.scheduleId ≠ a.scheduleId := by
    intro e mem' eq
    obtain ⟨f', rfl⟩ := o.latest e (by simp [mem']) eq
    exact first f' (by simp [mem']) (eq.trans eid.symm)
  have here : (ofEvents (p ++ .armed a :: s)).pendingSchedule a.scheduleId = some a :=
    pendingSchedule_eq_some.mpr ⟨p, s, rfl, rfl, quiet⟩
  have there : (ofEvents (p ++ .armed a :: s)).pendingSchedule a.scheduleId = some a' :=
    pendingSchedule_eq_some.mpr ⟨p', q', split, eid, eid ▸ last⟩
  rw [Option.some.inj (here.symm.trans there)]

omit [ScheduledDomainEvent E] in
/-- A schedule that is owed has fired on its latest `Armed` fact, was armed again after it had fired
before, or is ready. -/
lemma Owed.cases (hf : FireInv w) (o : Owed (w.facts singletonStream) now p a q) :
    .fired (.fromArmed a) ∈ w.facts singletonStream ∨
    (∃ f, .fired f ∈ p ∧ f.scheduleId = a.scheduleId) ∨
    Ready (w.facts singletonStream) now a := by
  by_cases after : ∃ f, .fired f ∈ q ∧ f.scheduleId = a.scheduleId
  · obtain ⟨f, mem, eid⟩ := after
    obtain rfl := hf.fired_owed o mem eid
    exact .inl (by simp [o.split, mem])
  by_cases before : ∃ f, .fired f ∈ p ∧ f.scheduleId = a.scheduleId
  · exact .inr (.inl before)
  refine .inr (.inr ⟨?_, ?_, o.due⟩)
  · refine pendingSchedule_eq_some.mpr ⟨p, q, o.split, rfl, fun e mem eq => ?_⟩
    obtain ⟨f, rfl⟩ := o.latest e mem eq
    exact after ⟨f, mem, eq⟩
  · rw [firedSchedule_eq_none, o.split]
    intro f mem eq
    rw [List.mem_append, List.mem_cons] at mem
    rcases mem with mem | mem | mem
    · exact before ⟨f, mem, eq⟩
    · cases mem
    · exact after ⟨f, mem, eq⟩

/-- No armed schedule is lost exactly if re-armed ones are covered. In every state the drivers can
reach, if `recover_due` returns `Ok` with nothing else running, then every schedule whose latest
`Armed` fact is due and not cancelled has its caller event in the stream of its target, if and only
if this was already so, or comes with another fact or schedule, for each schedule that had fired
before its latest `Armed` fact: such a schedule is pending and due but terminal, and `recover_due`
never fires it. -/
theorem noneLost_iff_rearmedCovered {ok : E → Prop} {may : Call E → Prop} {tr} {pool : Drivers E}
    {d : DurableScheduler E} {i report}
    (r : Run (DriverStep True ok may) (Pool.init .init) tr pool) (hd : d.Preserves)
    (ex : RecoverDue True i d now pool.world w' (.ok report)) :
    NoneLost now w' ↔ RearmedCovered now pool.world := by
  have hf := FireInv.run r
  obtain ⟨rec', h⟩ := wp_exec (recoverDue_recovers hd) .refl ex
  obtain ⟨settled, fired⟩ := h report rfl
  obtain ⟨as, ef, hr⟩ := rec'.facts
  have delivered_fact : ∀ f, .fired f ∈ pool.world.facts singletonStream →
      delivered f.callerEventId (w'.target.streams f.targetAggregate) = true :=
    fun f mem => (settled f (hf.mem_fired mem)).delivered
  constructor
  · intro none p a q o _
    have del := none p a _ (ef ▸ o.append)
    refine (rec'.only _ _ del).imp_right ?_
    rintro ⟨f, mem, ht, hu⟩
    rw [ef, List.mem_append] at mem
    rcases mem with mem | mem
    · exact .inl ⟨f, mem, ht, hu⟩
    · obtain ⟨b, new, e⟩ := List.mem_map.mp mem
      obtain rfl := SchedulerEvent.fired.inj e
      exact .inr ⟨b, hr b new, ht, hu⟩
  · intro covered p a q o
    rw [ef] at o
    obtain ⟨q', o⟩ := o.of_fires
    rcases o.cases hf with fact | rearmed | ready
    · exact delivered_fact _ fact
    · rcases covered p a q' o rearmed with del | ⟨f, mem, ht, hu⟩ | ⟨b, ready, ht, hu⟩
      · exact delivered_mono del (rec'.target _)
      · rw [← ht, ← hu]
        exact delivered_fact f mem
      · rw [← ht, ← hu]
        exact (fired b ready).delivered
    · exact (fired a ready).delivered

/-- A schedule that was armed once is delivered. -/
theorem noneLost_iff_rearmedCovered_audit :
    ∃ tr, ∃ pool : Drivers AuditEvent,
      Run (DriverStep True (fun _ => True) fun _ => True) (Pool.init .init) tr pool ∧
      ∃ w', RecoverDue True 1 auditDriver (auditAt 10) pool.world w' (.ok ⟨1, 1⟩) ∧
        NoneLost (auditAt 10) w' := by
  obtain ⟨tr, pool, r, e, _⟩ := audit_calls True (fun _ => True) (fun _ => True)
    [.arm auditDriver (auditSchedule ⟨30⟩ 300)] trivial (fun _ _ => trivial)
  have facts : pool.world.facts singletonStream = [.armed (auditSchedule ⟨30⟩ 300)] := by
    rw [e]
    decide
  have ex : RecoverDue True 1 auditDriver (auditAt 10) pool.world
      (recoverDueNow 1 auditDriver (auditAt 10) pool.world).1 (.ok ⟨1, 1⟩) := by
    rw [e]
    exact recoverDueNow_recoverDue True 1 auditDriver (auditAt 10) _
  refine ⟨tr, pool, r, _, ex, (noneLost_iff_rearmedCovered r auditDriver_preserves ex).mpr ?_⟩
  rintro p a q o ⟨f, mem, _⟩
  have split := o.split
  rw [facts] at split
  cases p with
  | nil => cases mem
  | cons x p => simp at split

/-- A schedule that has fired and is armed again is due, pending and not cancelled, and is never
delivered, although every call succeeds. -/
theorem rearmed_schedule_lost :
    ∃ tr, ∃ pool : Drivers AuditEvent,
      Run (DriverStep True (fun _ => True) fun c => c.driver = auditDriver)
        (Pool.init .init) tr pool ∧
      (∀ i < 3, ∃ c reply, pool.slots i = .run c (.ret reply)) ∧
      pool.world.facts singletonStream =
        [.armed (auditSchedule ⟨30⟩ 300), .fired (.fromArmed (auditSchedule ⟨30⟩ 300)),
          .armed (auditSchedule ⟨30⟩ 301)] ∧
      ∃ w', RecoverDue True 3 auditDriver (auditAt 10) pool.world w' (.ok ⟨0, 0⟩) ∧
        ¬ NoneLost (auditAt 10) w' := by
  obtain ⟨tr, pool, r, e, slots⟩ := audit_calls True (fun _ => True)
    (fun c => c.driver = auditDriver)
    [.arm auditDriver (auditSchedule ⟨30⟩ 300), .recoverDue auditDriver (auditAt 10),
      .arm auditDriver (auditSchedule ⟨30⟩ 301)] trivial (by simp [Call.driver])
  have ex : RecoverDue True 3 auditDriver (auditAt 10) pool.world
      (recoverDueNow 3 auditDriver (auditAt 10) pool.world).1 (.ok ⟨0, 0⟩) := by
    rw [e]
    exact recoverDueNow_recoverDue True 3 auditDriver (auditAt 10) _
  refine ⟨tr, pool, r, ?_, ?_, _, ex, ?_⟩
  · intro i lt
    interval_cases i
    · exact ⟨_, .done, slots 0 _ (.ok .done) rfl rfl⟩
    · exact ⟨_, .report ⟨1, 1⟩, slots 1 _ (.ok (.report ⟨1, 1⟩)) rfl rfl⟩
    · exact ⟨_, .done, slots 2 _ (.ok .done) rfl rfl⟩
  · rw [e]
    decide
  · rw [e]
    intro none
    have owed := none
      [.armed (auditSchedule ⟨30⟩ 300), .fired (.fromArmed (auditSchedule ⟨30⟩ 300))]
      (auditSchedule ⟨30⟩ 301) [] ⟨by decide, by simp, by decide⟩
    exact absurd owed (by decide)

end Owed

end CherryPit.Scheduler
