import CherryPit.Scheduler.Recovery

/-!
# What a pass reports

The counts that `recover_due` reports and the outcome that `fire_schedule` returns, against what
they have appended. Both call `complete_fired`, which appends nothing if the target's stream has an
event with the caller's id; `fire_schedule` does not look at its answer, so it returns `Fired` for a
caller event that was there before, and `recover_due` counts that event as completed.

`Completes` and `Answers` say what `complete_fired` and `fire_schedule` do with nothing else
running. The decoder is arbitrary: what an appended event carries need not be the id it was appended
for.
-/

namespace CherryPit.Scheduler

open Conc DurableScheduler SchedulerState Function

variable {E : Type} [ScheduledDomainEvent E] {v' : World E}

/-! ## The ids in the target's streams -/

/-- The ids that the events of a target's stream carry. -/
def World.carried (w : World E) (t : AggregateId) : List Uuid :=
  (w.target.streams t).map fun env => scheduledEventId env.payload

lemma delivered_iff_carried {w : World E} {u : Uuid} {t : AggregateId} :
    delivered u (w.target.streams t) = true ↔ u ∈ w.carried t := by
  simp [delivered, World.carried, List.any_eq_true]

/-- What `complete_fired` does to the ids. -/
def complete (d : DurableScheduler E) (carried : AggregateId → List Uuid) (fired : ScheduleFired) :
    AggregateId → List Uuid :=
  if (carried fired.targetAggregate).contains fired.callerEventId then carried
  else match d.decode fired with
    | .error _ => carried
    | .ok event => update carried fired.targetAggregate
        (carried fired.targetAggregate ++ [scheduledEventId event])

/-- None of the caller events is in its target's stream when it is completed, one after the other.
-/
def AllNew (d : DurableScheduler E) (carried : AggregateId → List Uuid) : List ScheduleFired → Prop
  | [] => True
  | fired :: rest =>
    fired.callerEventId ∉ carried fired.targetAggregate ∧ AllNew d (complete d carried fired) rest

instance decidableAllNew (d : DurableScheduler E) : ∀ carried fs, Decidable (AllNew d carried fs)
  | _, [] => inferInstanceAs (Decidable True)
  | carried, fired :: rest =>
    have := decidableAllNew d (complete d carried fired) rest
    inferInstanceAs (Decidable (fired.callerEventId ∉ carried fired.targetAggregate ∧
      AllNew d (complete d carried fired) rest))

lemma allNew_concat {d : DurableScheduler E} {carried : AggregateId → List Uuid}
    {done : List ScheduleFired} {fired : ScheduleFired} :
    AllNew d carried (done ++ [fired]) ↔
      AllNew d carried done ∧
        fired.callerEventId ∉ (done.foldl (complete d) carried) fired.targetAggregate := by
  induction done generalizing carried with
  | nil => simp [AllNew]
  | cons f done ih => simp [AllNew, ih, and_assoc]

/-! ## The two calls with nothing else running -/

/-- What `complete_fired` did for caller `i`. -/
structure Completes (i : Nat) (d : DurableScheduler E) (fired : ScheduleFired) (v v' : World E)
    (appended : Bool) : Prop where
  facts : v'.facts singletonStream = v.facts singletonStream
  outcome :
    (appended = false ∧ fired.callerEventId ∈ v.carried fired.targetAggregate ∧
      v'.target = v.target ∧ v'.targetLog = v.targetLog) ∨
    (appended = true ∧ fired.callerEventId ∉ v.carried fired.targetAggregate ∧
      ∃ env, d.decode fired = .ok env.payload ∧
        v'.target.streams = update v.target.streams fired.targetAggregate
          (v.target.streams fired.targetAggregate ++ [env]) ∧
        v'.targetLog = v.targetLog ++ [(i, env)])

/-- The ids afterwards. -/
lemma Completes.carried {i d fired appended} {v : World E} (h : Completes i d fired v v' appended) :
    v'.carried = complete d v.carried fired := by
  rcases h.outcome with ⟨-, mem, et, -⟩ | ⟨-, new, env, dec, es, -⟩
  · rw [complete, if_pos (List.contains_iff_mem.mpr mem)]
    funext t
    rw [World.carried, et, World.carried]
  · rw [complete, if_neg (mt List.contains_iff_mem.mp new), dec]
    funext t
    rcases eq_or_ne t fired.targetAggregate with rfl | ne
    · simp [World.carried, es]
    · simp [World.carried, es, update_of_ne ne]

section Calls

variable {faults : Prop} {i : Nat} {c : Call E} {d : DurableScheduler E} {v : World E}

/-- The append of `complete_fired`. -/
lemma targetAppend_completes {fired event expected context} (dec : d.decode fired = .ok event)
    (new : fired.callerEventId ∉ v.carried fired.targetAggregate) :
    wp (awaits faults) (.solo fun _ => True) i c
      (fun r v' => ∀ envs, r = .ok envs → Completes i d fired v v' true)
      (targetAppend fired.targetAggregate expected [event] context) v := by
  apply wp_attempt
  rintro _ rfl _ _ r ⟨s, envs, ap, rfl⟩
  refine ⟨trivial, ?_⟩
  rintro _ rfl _ envs' ok
  rcases ap.inv_one with ⟨rfl, rfl, e, rfl⟩ | ⟨_, env, _, _, rfl, rfl, _, es, re⟩
  · cases ok
  · exact ⟨rfl, .inr ⟨rfl, new, env, dec, es, rfl⟩⟩

/-- `complete_fired` with nothing else running. -/
lemma completeFired_completes {fired} :
    wp (awaits faults) (.solo fun _ => True) i c
      (fun r v' => ∀ b, r = .ok b → Completes i d fired v v' b) (d.completeFired fired) v := by
  refine wp_seq_ok trivial targetLoad_alone ?_
  rintro history _ _ ⟨rfl, whole, _⟩
  obtain rfl := whole history rfl
  split
  · rename_i del
    rintro _ rfl _ b ⟨⟩
    exact ⟨rfl, .inl ⟨rfl, delivered_iff_carried.mp del, rfl, rfl⟩⟩
  rename_i del
  split
  · rintro _ rfl _ b ⟨⟩
  rename_i event dec
  split
  · rintro _ rfl _ b ⟨⟩
  have new := fun mem => del (delivered_iff_carried.mpr mem)
  refine wp_seq_ok trivial (targetAppend_completes dec new) ?_
  intro envelopes v' _ h
  have completes := h envelopes rfl
  have publishes : wp (awaits faults) (.solo fun _ => True) i c
      (fun _ v'' => Completes i d fired v v'' true) (publish envelopes) v' := by
    apply wp_attempt
    rintro _ rfl _ _ r ⟨_, rfl⟩
    refine ⟨trivial, ?_⟩
    rintro _ rfl _
    exact ⟨completes.facts, completes.outcome⟩
  refine wp_seq_ok trivial publishes ?_
  rintro _ v'' _ done _ rfl _ _ ⟨⟩
  exact done

/-- The fire decision of a schedule was recorded, and nothing else. -/
structure Recorded (a : ScheduleArmed) (v v' : World E) : Prop where
  facts : v'.facts singletonStream = v.facts singletonStream ++ [.fired (.fromArmed a)]
  target : v'.target = v.target
  targetLog : v'.targetLog = v.targetLog

lemma Recorded.carried {a} {v : World E} (h : Recorded a v v') : v'.carried = v.carried := by
  funext t
  rw [World.carried, h.target, World.carried]

/-- What `fire_schedule` did and returned. -/
inductive Answers (i : Nat) (d : DurableScheduler E) (id : ScheduleId) (now : Timestamp)
    (v : World E) : World E → ScheduleFireOutcome → Prop where
  | terminal :
    (((ofEvents (v.facts singletonStream)).firedSchedule id).isSome ||
      (ofEvents (v.facts singletonStream)).isCancelled id) = true →
    Answers i d id now v v .terminal
  | unknown :
    (ofEvents (v.facts singletonStream)).pendingSchedule id = none →
    Answers i d id now v v .unknown
  | notDue {a} :
    (ofEvents (v.facts singletonStream)).firedSchedule id = none →
    (ofEvents (v.facts singletonStream)).pendingSchedule id = some a →
    now < a.fireAt →
    Answers i d id now v v .notDue
  | fired {a v1 v' b} :
    Ready (v.facts singletonStream) now a →
    a.scheduleId = id →
    Recorded a v v1 →
    Completes i d (.fromArmed a) v1 v' b →
    Answers i d id now v v' .fired

omit [ScheduledDomainEvent E] in
/-- The append of `fire_schedule`. -/
lemma schedulerAppend_recorded {a expected context} :
    wp (awaits faults) (.solo fun _ => True) i c
      (fun r v' => ∀ envs, r = .ok envs → Recorded a v v')
      (schedulerAppend singletonStream expected [.fired (.fromArmed a)] context) v := by
  apply wp_attempt
  rintro _ rfl _ _ r ⟨s, envs, ap, rfl⟩
  refine ⟨trivial, ?_⟩
  rintro _ rfl _ envs' ok
  rcases ap.inv_one with ⟨rfl, rfl, e, rfl⟩ | ⟨_, env, _, _, rfl, ep, _, es, re⟩
  · cases ok
  · have ef : s.streams singletonStream = v.scheduler.streams singletonStream ++ [env] := by
      rw [es, update_self]
    exact ⟨by simp [World.facts, ef, ep], rfl, rfl⟩

/-- `fire_schedule` with nothing else running. -/
lemma fireSchedule_answers {id now} :
    wp (awaits faults) (.solo fun _ => True) i c
      (fun r v' => ∀ o, r = .ok o → Answers i d id now v v' o) (d.fireSchedule id now) v := by
  refine wp_seq_ok trivial schedulerLoad_alone ?_
  rintro history _ _ ⟨rfl, whole, _⟩
  obtain rfl := whole history rfl
  dsimp only
  rw [World.fromHistory_streams]
  split
  · rename_i term
    rintro _ rfl _ _ ⟨⟩
    exact .terminal term
  rename_i term
  rw [Bool.or_eq_true, not_or, Option.not_isSome_iff_eq_none] at term
  split
  · rename_i hp
    rintro _ rfl _ _ ⟨⟩
    exact .unknown hp
  rename_i armed hp
  split
  · rename_i later
    rintro _ rfl _ _ ⟨⟩
    exact .notDue term.1 hp later
  rename_i due
  obtain rfl : armed.scheduleId = id := pendingSchedule_id hp
  have ready : Ready (v.facts singletonStream) now armed := ⟨hp, term.1, not_lt.mp due⟩
  split
  · rename_i empty
    rw [World.facts, List.getLast?_eq_none_iff.mp empty] at hp
    cases hp
  refine wp_seq_ok trivial schedulerAppend_recorded ?_
  intro envs v1 _ h1
  refine wp_seq_ok trivial completeFired_completes ?_
  rintro b v2 _ h2 _ rfl _ _ ⟨⟩
  exact .fired ready rfl (h1 envs rfl) (h2 b rfl)

end Calls

/-! ## The pass -/

/-- The schedules that a pass fires, in its order: what is due and pending, but has not fired in an
earlier round. -/
def firing (state : SchedulerState) (now : Timestamp) : List ScheduleArmed :=
  (state.duePending now).filter fun a => (state.firedSchedule a.scheduleId).isNone

/-- A schedule is listed once. -/
lemma duePending_distinct (es : List SchedulerEvent) (now : Timestamp) :
    ((ofEvents es).duePending now).Pairwise fun a b => a.scheduleId ≠ b.scheduleId := by
  have keys := (ofEvents es).pending.distinct_keys_toList
  have named : ∀ x ∈ (ofEvents es).pending.toList, x.2.scheduleId = x.1 := by
    rintro ⟨id, a⟩ mem
    exact pendingSchedule_id (Std.TreeMap.mem_toList_iff_getElem?_eq_some.mp mem)
  refine List.Pairwise.filter _ (List.pairwise_map.mpr ?_)
  refine keys.imp_of_mem ?_
  intro x y memx memy ne eq
  rw [named x memx, named y memy] at eq
  exact ne (by rw [eq]; exact Std.ReflCmp.compare_self)

section Pass

variable {faults : Prop} {i : Nat} {c : Call E} {d : DurableScheduler E} {w v : World E}
  {now : Timestamp}

/-- The first loop after completing the facts `done`. -/
structure Completing (d : DurableScheduler E) (w : World E) (done : List ScheduleFired)
    (report : ScheduleRecoveryReport) (v : World E) : Prop where
  facts : v.facts singletonStream = w.facts singletonStream
  carried : v.carried = done.foldl (complete d) w.carried
  fired : report.fired = 0
  completed : ∃ new, v.targetLog = w.targetLog ++ new ∧ new.length = report.completed

/-- One round of the first loop. -/
lemma Completing.step {done report fired b} (h : Completing d w done report v)
    (completes : Completes i d fired v v' b) :
    Completing d w (done ++ [fired])
      (if b = true then { report with completed := report.completed + 1 } else report) v' := by
  obtain ⟨new, log, count⟩ := h.completed
  have carried : v'.carried = (done ++ [fired]).foldl (complete d) w.carried := by
    rw [completes.carried, h.carried, List.foldl_append]
    rfl
  rcases completes.outcome with ⟨rfl, -, -, same⟩ | ⟨rfl, -, env, -, -, grown⟩
  · exact ⟨completes.facts.trans h.facts, carried, h.fired, new, same.trans log, count⟩
  · refine ⟨completes.facts.trans h.facts, carried, h.fired, new ++ [(i, env)], ?_, ?_⟩
    · rw [grown, log, List.append_assoc]
    · simpa using count

/-- The second loop after the schedules `done`, started with the ids `base`. -/
structure Firing (d : DurableScheduler E) (w : World E) (base : AggregateId → List Uuid)
    (done : List ScheduleArmed) (report : ScheduleRecoveryReport) (v : World E) : Prop where
  facts : v.facts singletonStream = w.facts singletonStream ++ fires done
  carried : v.carried = (done.map ScheduleFired.fromArmed).foldl (complete d) base
  fired : report.fired = done.length
  completed : ∃ new, v.targetLog = w.targetLog ++ new ∧ new.length ≤ report.completed ∧
    (new.length = report.completed ↔ AllNew d base (done.map .fromArmed))

/-- The first loop is followed by the second. -/
lemma Completing.firing {facts report} (h : Completing d w facts report v) :
    Firing d w (facts.foldl (complete d) w.carried) [] report v := by
  obtain ⟨new, log, count⟩ := h.completed
  exact ⟨by simpa [fires] using h.facts, h.carried, h.fired, new, log, count.le,
    iff_of_true count trivial⟩

/-- A round of the second loop that fires a schedule. -/
lemma Firing.step {base done report a b} {v1 : World E} (h : Firing d w base done report v)
    (recorded : Recorded a v v1) (completes : Completes i d (.fromArmed a) v1 v' b) :
    Firing d w base (done ++ [a])
      { fired := report.fired + 1, completed := report.completed + 1 } v' := by
  have same := recorded.carried
  obtain ⟨new, log, le, exact_iff⟩ := h.completed
  refine ⟨?_, ?_, by simp [h.fired], ?_⟩
  · rw [completes.facts, recorded.facts, h.facts, fires_concat, List.append_assoc]
  · rw [completes.carried, same, h.carried, List.map_append, List.foldl_append]
    rfl
  · have turn := completes.outcome
    rw [same, h.carried, recorded.targetLog] at turn
    rw [List.map_append, List.map_singleton, allNew_concat]
    rcases turn with ⟨-, held, -, kept⟩ | ⟨-, unheld, env, -, -, grown⟩
    · refine ⟨new, kept.trans log, by simp only; omega, ?_⟩
      exact iff_of_false (by simp only; omega) fun all => all.2 held
    · refine ⟨new ++ [(i, env)], ?_, ?_, ?_⟩
      · rw [grown, log, List.append_assoc]
      · simpa using le
      · rw [List.length_append, List.length_singleton, Nat.add_right_cancel_iff, exact_iff]
        exact (and_iff_left unheld).symm

/-- A round of the second loop for a schedule that is listed. -/
lemma Firing.round {base done report a o}
    (h : Firing d w base (done.filter fun a =>
      ((ofEvents (w.facts singletonStream)).firedSchedule a.scheduleId).isNone) report v)
    (listed : a ∈ (ofEvents (w.facts singletonStream)).duePending now)
    (distinct : ∀ b ∈ done, b.scheduleId ≠ a.scheduleId)
    (answers : Answers i d a.scheduleId now v v' o) :
    Firing d w base ((done ++ [a]).filter fun a =>
        ((ofEvents (w.facts singletonStream)).firedSchedule a.scheduleId).isNone)
      (if o = .fired then { fired := report.fired + 1, completed := report.completed + 1 }
        else report) v' := by
  obtain ⟨⟨id, pending⟩, due⟩ := mem_duePending.mp listed
  obtain rfl : a.scheduleId = id := pendingSchedule_id pending
  rw [List.filter_append]
  cases unfired : (ofEvents (w.facts singletonStream)).firedSchedule a.scheduleId with
  | some f =>
    -- it has fired in an earlier round, so it is terminal
    have still : (ofEvents (v.facts singletonStream)).firedSchedule a.scheduleId ≠ none := by
      rw [h.facts]
      intro none
      rw [(firedSchedule_fires_none.mp none).1] at unfired
      cases unfired
    rw [List.filter_cons_of_neg (by simp [unfired]), List.filter_nil, List.append_nil]
    cases answers with
    | terminal _ => exact h
    | unknown _ => exact h
    | notDue none _ _ => exact absurd none still
    | fired ready eq => exact absurd (eq ▸ ready.unfired) still
  | none =>
    have ready : Ready (v.facts singletonStream) now a := by
      rw [h.facts]
      refine ready_fires.mpr ⟨⟨pending, unfired, due⟩, ?_⟩
      intro b mem
      exact distinct b (List.mem_filter.mp mem).1
    rw [List.filter_cons_of_pos (by simp [unfired]), List.filter_nil]
    cases answers with
    | terminal term =>
      rw [ready.unfired, isCancelled_of_pending ready.pending] at term
      cases term
    | unknown none =>
      rw [ready.pending] at none
      cases none
    | notDue _ pending later =>
      rw [ready.pending] at pending
      cases pending
      exact absurd due (not_le.mpr later)
    | fired ready' eq recorded completes =>
      obtain rfl := ready'.unique ready eq
      exact h.step recorded completes

/-- What a pass did. -/
lemma recoverDue_counts :
    wp (awaits faults) (.solo fun _ => True) i c
      (fun r v => ∀ report, r = .ok report →
        Firing d w ((ofEvents (w.facts singletonStream)).fired.foldl (complete d) w.carried)
          (firing (ofEvents (w.facts singletonStream)) now) report v)
      (d.recoverDue now) w := by
  refine wp_seq_ok trivial schedulerLoad_alone ?_
  rintro history _ _ ⟨rfl, whole, _⟩
  obtain rfl := whole history rfl
  dsimp only
  rw [World.fromHistory_streams]
  refine wp_seq_ok trivial (wp_foldlM (Q := fun _ _ => True) (J := Completing d w)
    (by rintro _ _ _ _ h rfl _; exact h) ?_ trivial ⟨rfl, rfl, rfl, [], by simp, rfl⟩) ?_
  · rintro done fired rest report v split _ h
    refine wp_seq trivial completeFired_completes ?_ fun _ _ _ _ => trivial
    intro b v' _ completes
    have next := h.step (completes b rfl)
    cases b <;> (rintro _ rfl _; exact next)
  · rintro report v _ h
    rw [List.foldlM_map]
    refine wp_conseq ?_ (wp_foldlM (Q := fun _ _ => True)
      (J := fun done report v => Firing d w _ (done.filter fun a =>
        ((ofEvents (w.facts singletonStream)).firedSchedule a.scheduleId).isNone) report v)
      (by rintro _ _ _ _ h rfl _; exact h) ?_ trivial h.firing)
    · rintro r v' _ counts report rfl
      exact counts
    · rintro done a rest report v split _ h
      have listed : a ∈ (ofEvents (w.facts singletonStream)).duePending now := by simp [split]
      have distinct : ∀ b ∈ done, b.scheduleId ≠ a.scheduleId := by
        have pairwise := duePending_distinct (w.facts singletonStream) now
        rw [split, List.pairwise_append] at pairwise
        exact fun b mem => pairwise.2.2 b mem a List.mem_cons_self
      refine wp_seq trivial fireSchedule_answers ?_ fun _ _ _ _ => trivial
      intro o v' _ answers
      have next := h.round listed distinct (answers o rfl)
      split
      · rename_i eq
        rw [if_pos eq] at next
        rintro _ rfl _
        exact next
      · rename_i ne
        rw [if_neg ne] at next
        rintro _ rfl _
        exact next

end Pass

/-! ## Reports and outcomes -/

def SchedulerEvent.isFired : SchedulerEvent → Bool
  | .fired _ => true
  | _ => false

lemma countP_isFired_fires (as : List ScheduleArmed) :
    (fires as).countP SchedulerEvent.isFired = as.length := by
  rw [fires, List.countP_map]
  exact List.countP_eq_length.mpr fun _ _ => rfl

/-- A report counts the `Fired` facts appended to the scheduler stream and the caller events
appended to the targets' streams. -/
structure ReportTruthful (w w' : World E) (report : ScheduleRecoveryReport) : Prop where
  fired : ∃ new, w'.facts singletonStream = w.facts singletonStream ++ new ∧
    new.countP SchedulerEvent.isFired = report.fired
  completed : ∃ new, w'.targetLog = w.targetLog ++ new ∧ new.length = report.completed

/-- The outcome is `Fired` only if the caller event was appended, and `Terminal` if it was there. -/
structure OutcomeTruthful (d : DurableScheduler E) (id : ScheduleId) (w w' : World E)
    (o : ScheduleFireOutcome) : Prop where
  fired : o = .fired → ∃ a env,
    (ofEvents (w.facts singletonStream)).pendingSchedule id = some a ∧
    d.decode (.fromArmed a) = .ok env.payload ∧
    w'.target.streams a.targetAggregate = w.target.streams a.targetAggregate ++ [env]
  terminal : ∀ a, (ofEvents (w.facts singletonStream)).pendingSchedule id = some a →
    a.callerEventId ∈ w.carried a.targetAggregate → o = .terminal

/-- No caller event of a schedule that a pass fires is in its target's stream when it is fired: not
before the pass, and not by a fact it completes or a schedule it fires earlier. -/
def NoneHeld (d : DurableScheduler E) (now : Timestamp) (w : World E) : Prop :=
  AllNew d ((ofEvents (w.facts singletonStream)).fired.foldl (complete d) w.carried)
    ((firing (ofEvents (w.facts singletonStream)) now).map .fromArmed)

/-- The caller event of a schedule that has not fired is not in its target's stream. -/
def NotHeld (id : ScheduleId) (w : World E) : Prop :=
  ∀ a, (ofEvents (w.facts singletonStream)).pendingSchedule id = some a →
    (ofEvents (w.facts singletonStream)).firedSchedule id = none →
    a.callerEventId ∉ w.carried a.targetAggregate

/-- `fire_schedule` by caller `i` with nothing else running. -/
abbrev FireSchedule (faults : Prop) (i : Nat) (d : DurableScheduler E) (id : ScheduleId)
    (now : Timestamp) (w w' : World E) (x : Except AgentError ScheduleFireOutcome) : Prop :=
  Exec (awaits faults) i (.fireSchedule d id now) w (d.fireSchedule id now) w' x

section Truth

variable {i : Nat} {d : DurableScheduler E} {id : ScheduleId} {now : Timestamp} {w w' : World E}

/-- When a report is truthful. -/
lemma Firing.truthful_iff {base as report} (h : Firing d w base as report w') :
    ReportTruthful w w' report ↔ AllNew d base (as.map .fromArmed) := by
  obtain ⟨new, log, -, exact_iff⟩ := h.completed
  rw [← exact_iff]
  constructor
  · rintro ⟨-, new', log', count⟩
    rw [log] at log'
    rwa [List.append_cancel_left log']
  · intro count
    refine ⟨⟨fires as, h.facts, ?_⟩, new, log, count⟩
    rw [countP_isFired_fires, h.fired]

lemma Answers.truthful_iff {o} (h : Answers i d id now w w' o) :
    OutcomeTruthful d id w w' o ↔ NotHeld id w := by
  constructor
  · intro truthful a pending unfired held
    have eq := truthful.terminal a pending held
    cases h with
    | terminal term =>
      rw [unfired, isCancelled_of_pending pending] at term
      cases term
    | unknown _ => cases eq
    | notDue _ _ _ => cases eq
    | fired _ _ _ _ => cases eq
  · intro notHeld
    refine ⟨?_, ?_⟩
    · rintro rfl
      cases h with
      | @fired a v1 _ b ready eq recorded completes =>
        subst eq
        have new := notHeld a ready.pending ready.unfired
        rcases completes.outcome with ⟨-, held, -, -⟩ | ⟨-, -, env, dec, es, -⟩
        · rw [recorded.carried] at held
          exact absurd held new
        · refine ⟨a, env, ready.pending, dec, ?_⟩
          rw [es, recorded.target]
          exact update_self ..
    · intro a pending held
      cases h with
      | terminal _ => rfl
      | unknown none =>
        rw [pending] at none
        cases none
      | notDue unfired _ _ => exact absurd held (notHeld a pending unfired)
      | fired ready eq _ _ =>
        subst eq
        exact absurd held (notHeld a pending ready.unfired)

end Truth

/-- Reports and outcomes are truthful exactly if no caller event was there before. -/
theorem truthful_iff_not_held (i : Nat) (d : DurableScheduler E) (now : Timestamp) (w : World E) :
    (∀ w' report, RecoverDue True i d now w w' (.ok report) →
      (ReportTruthful w w' report ↔ NoneHeld d now w)) ∧
    ∀ id w' o, FireSchedule True i d id now w w' (.ok o) →
      (OutcomeTruthful d id w w' o ↔ NotHeld id w) := by
  refine ⟨?_, ?_⟩
  · intro w' report ex
    exact ((wp_exec recoverDue_counts trivial ex).2 report rfl).truthful_iff
  · intro id w' o ex
    exact ((wp_exec fireSchedule_answers trivial ex).2 o rfl).truthful_iff

/-- `fire_schedule` over stores and a bus that do not fail. -/
def fireScheduleNow (i : Nat) (d : DurableScheduler E) (id : ScheduleId) (now : Timestamp)
    (w : World E) : World E × Except AgentError ScheduleFireOutcome :=
  (d.fireSchedule id now).interp (answer i (.fireSchedule d id now)) w

lemma fireScheduleNow_fireSchedule (i : Nat) (d : DurableScheduler E) (id : ScheduleId)
    (now : Timestamp) (w : World E) :
    FireSchedule True i d id now w (fireScheduleNow i d id now w).1
      (fireScheduleNow i d id now w).2 :=
  (Prog.interp_exec answer_performs _ w).mono (Performs.mono False.elim)

/-- One schedule with a caller event of its own. -/
def auditOne : World AuditEvent :=
  (runCalls 0 [.arm auditDriver (auditSchedule ⟨30⟩ 300)] auditOpened).1

/-- The report and the outcome for this schedule. -/
theorem truthful_iff_not_held_audit :
    (∃ w', RecoverDue True 1 auditDriver (auditAt 10) auditOne w' (.ok ⟨1, 1⟩) ∧
      ReportTruthful auditOne w' ⟨1, 1⟩) ∧
    ∃ w', FireSchedule True 1 auditDriver ⟨30⟩ (auditAt 10) auditOne w' (.ok .fired) ∧
      OutcomeTruthful auditDriver ⟨30⟩ auditOne w' .fired := by
  have iffs := truthful_iff_not_held 1 auditDriver (auditAt 10) auditOne
  have report := recoverDueNow_recoverDue True 1 auditDriver (auditAt 10) auditOne
  have outcome := fireScheduleNow_fireSchedule 1 auditDriver ⟨30⟩ (auditAt 10) auditOne
  refine ⟨⟨_, report, (iffs.1 _ _ report).mpr ?_⟩, _, outcome, (iffs.2 _ _ _ outcome).mpr ?_⟩
  · unfold NoneHeld
    decide
  · intro a pending _
    have eq : (ofEvents (auditOne.facts singletonStream)).pendingSchedule ⟨30⟩ =
        some (auditSchedule ⟨30⟩ 300) := by decide
    rw [eq] at pending
    cases pending
    decide

/-- Two schedules share a caller event, and the first has fired. -/
theorem shared_event_reported_twice :
    ∃ tr, ∃ pool : Drivers AuditEvent,
      Run (DriverStep True (fun _ => True) fun c => c.driver = auditDriver)
        (Pool.init .init) tr pool ∧
      (∃ w', RecoverDue True 3 auditDriver (auditAt 10) pool.world w' (.ok ⟨1, 1⟩) ∧
        w'.targetLog = pool.world.targetLog ∧ ¬ ReportTruthful pool.world w' ⟨1, 1⟩) ∧
      ∃ w', FireSchedule True 3 auditDriver ⟨31⟩ (auditAt 10) pool.world w' (.ok .fired) ∧
        w'.target.streams ⟨.min⟩ = pool.world.target.streams ⟨.min⟩ ∧
        ¬ OutcomeTruthful auditDriver ⟨31⟩ pool.world w' .fired := by
  obtain ⟨tr, pool, r, e, _⟩ := audit_calls True (fun _ => True) (fun c => c.driver = auditDriver)
    [.arm auditDriver (auditSchedule ⟨30⟩ 300), .fireSchedule auditDriver ⟨30⟩ (auditAt 10),
      .arm auditDriver (auditSchedule ⟨31⟩ 300)] trivial (by simp [Call.driver])
  have report : RecoverDue True 3 auditDriver (auditAt 10) pool.world
      (recoverDueNow 3 auditDriver (auditAt 10) pool.world).1 (.ok ⟨1, 1⟩) := by
    rw [e]
    exact recoverDueNow_recoverDue True 3 auditDriver (auditAt 10) _
  have outcome : FireSchedule True 3 auditDriver ⟨31⟩ (auditAt 10) pool.world
      (fireScheduleNow 3 auditDriver ⟨31⟩ (auditAt 10) pool.world).1 (.ok .fired) := by
    rw [e]
    exact fireScheduleNow_fireSchedule 3 auditDriver ⟨31⟩ (auditAt 10) _
  have log : (recoverDueNow 3 auditDriver (auditAt 10) pool.world).1.targetLog =
      pool.world.targetLog := by
    rw [e]
    rfl
  have stream : (fireScheduleNow 3 auditDriver ⟨31⟩ (auditAt 10) pool.world).1.target.streams
      ⟨.min⟩ = pool.world.target.streams ⟨.min⟩ := by
    rw [e]
    rfl
  refine ⟨tr, pool, r, ⟨_, report, log, ?_⟩, _, outcome, stream, ?_⟩
  · rintro ⟨-, new, grown, count⟩
    rw [log, List.self_eq_append_right] at grown
    rw [grown] at count
    cases count
  · intro truthful
    have eq : (ofEvents (pool.world.facts singletonStream)).pendingSchedule ⟨31⟩ =
        some (auditSchedule ⟨31⟩ 300) := by
      rw [e]
      decide
    have held : 300 ∈ pool.world.carried ⟨.min⟩ := by
      rw [e]
      decide
    cases truthful.terminal _ eq held

end CherryPit.Scheduler
