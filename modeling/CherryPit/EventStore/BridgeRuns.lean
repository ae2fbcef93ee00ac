import CherryPit.Data.TryEach
import CherryPit.EventStore.Bridge
import CherryPit.EventStore.PgnoLinear

/-!
# Runs of the stores over the durable event store

What is known of the store behind a bridged store carries over to it: it is linearizable over the
events of its callers, as long as these come back as they were (`bridge_linearizable`). A scheduler
event does unless its context has a cause without a correlation, and any other event if its JSON is
read as it. An event that is kept and cannot be read makes its stream unreadable for good
(`unreadable_blocks_loads`).
-/

namespace CherryPit.Pgno

open Conc Store

variable {E : Type}

namespace Bridge

variable {Ev D : Type} {b : Bridge Ev D} {codec : Codec D} {P P' : Calls Ev} {Q : Calls D}
  {tr tr' : List (Label Ev)} {i : Nat} {c : Call Ev} {c' : Call D}
  {x : Except Failure (Reply Ev)} {trace : List (Label D)} {env : EventEnvelope D}
  {events : List Ev} {j : Nat}

/-! ## Events that come back -/

/-- What is kept for the event is converted back to it. -/
def Keeps (b : Bridge Ev D) (e : Ev) : Prop := ∀ d, b.toDto e = .ok d → b.fromDto d = .ok e

/-- The envelope with the event that its payload was made of. -/
def original (env : EventEnvelope D) (e : Ev) : EventEnvelope Ev :=
  ⟨env.eventId, env.aggregateId, env.sequence, env.timestamp, env.correlationId, env.causationId, e⟩

lemma remapEnvelope_eq {e : Ev} (back : b.fromDto env.payload = .ok e) (named : env.eventId ≠ 0) :
    b.remapEnvelope env = .ok (original env e) := by
  unfold remapEnvelope
  rw [back]
  dsimp only
  rw [EventEnvelope.new_eq_ok named]
  rfl

/-- The call behind a call has its arguments, with what its events were converted to. -/
inductive Asks (b : Bridge Ev D) : Call Ev → Call D → Prop where
  | load {id : AggregateId} :
    Asks b (.load id) (.load id)
  | create {events ds ctx} :
    List.Forall₂ (fun e d => b.toDto e = .ok d) events ds →
    Asks b (.create events ctx) (.create ds ctx)
  | append {id : AggregateId} {expected events ds ctx} :
    List.Forall₂ (fun e d => b.toDto e = .ok d) events ds →
    Asks b (.append id expected events ctx) (.append id expected ds ctx)

/-- The events are converted, one by one, or the call is answered on the spot. -/
lemma converted_or_refused {x : Except (Except Failure (Reply Ev)) (Call D)} {f : List D → Call D}
    (asked : ((b.dtos events).mapError .error).map f = x) :
    (∃ ds, x = .ok (f ds) ∧ List.Forall₂ (fun e d => b.toDto e = .ok d) events ds) ∨
      ∃ e, x = .error (.error (.store (.infrastructure e))) := by
  subst asked
  unfold dtos
  cases converted : events.mapM b.toDto with
  | ok ds => exact .inl ⟨ds, rfl, mapM_eq_ok_iff.mp converted⟩
  | error e => exact .inr ⟨e, rfl⟩

/-- Every call is handed on with its events converted, or refused before the store is asked. -/
lemma asks_or_refused (c : Call Ev) : (∃ c', b.adapter.ask c = .ok c' ∧ b.Asks c c') ∨
    ∃ e, b.adapter.ask c = .error (.error (.store (.infrastructure e))) := by
  cases c with
  | load id => exact .inl ⟨_, rfl, .load⟩
  | create events ctx =>
    exact (converted_or_refused rfl).imp_left fun ⟨_, asked, each⟩ => ⟨_, asked, .create each⟩
  | append id expected events ctx =>
    exact (converted_or_refused rfl).imp_left fun ⟨_, asked, each⟩ => ⟨_, asked, .append each⟩

lemma asks_of_ok (asked : b.adapter.ask c = .ok c') : b.Asks c c' := by
  rcases asks_or_refused (b := b) c with ⟨_, asked', asks⟩ | ⟨_, refused⟩
  · cases asked.symm.trans asked'
    exact asks
  · cases asked.symm.trans refused

/-- A call that is answered on the spot is refused. -/
lemma refused_of_error (asked : b.adapter.ask c = .error x) :
    ∃ e, x = .error (.store (.infrastructure e)) := by
  rcases asks_or_refused (b := b) c with ⟨_, asked', -⟩ | ⟨e, refused⟩
  · cases asked.symm.trans asked'
  · cases asked.symm.trans refused
    exact ⟨e, rfl⟩

/-- One event was converted. -/
lemma converted_singleton {d : D}
    (converted : List.Forall₂ (fun e d => b.toDto e = .ok d) events [d])
    (keeps : ∀ e ∈ events, b.Keeps e) : ∃ e, events = [e] ∧ b.fromDto d = .ok e := by
  obtain ⟨e, rest, to', none', rfl⟩ := List.forall₂_cons_right_iff.mp converted
  cases none'
  exact ⟨e, rfl, keeps e (List.mem_singleton_self e) d to'⟩

/-- What the call behind a call asks for is what the call asks for. -/
lemma Asks.wants (asks : b.Asks c c') (keeps : ∀ e ∈ c.events, b.Keeps e) (wants : Wants c' env) :
    ∃ e, b.fromDto env.payload = .ok e ∧ Wants c (original env e) := by
  cases asks with
  | load => exact wants.elim
  | create converted =>
    obtain ⟨rfl, sequence, correlated⟩ := wants
    obtain ⟨e, rfl, back⟩ := converted_singleton converted keeps
    exact ⟨e, back, rfl, sequence, correlated⟩
  | append converted =>
    obtain ⟨same, rfl, sequence, correlated⟩ := wants
    obtain ⟨e, rfl, back⟩ := converted_singleton converted keeps
    exact ⟨e, back, same, rfl, sequence, correlated⟩

/-- An entry and the envelope of a caller's event. -/
def Carries (b : Bridge Ev D) (codec : Codec D) (entry : Entry) (env : EventEnvelope Ev) : Prop :=
  ∃ stored, Pgno.Carries codec entry stored ∧ b.remapEnvelope stored = .ok env

lemma carries_comp {added : List Entry} {stored : List (EventEnvelope D)}
    {envs : List (EventEnvelope Ev)} (carries : List.Forall₂ (Pgno.Carries codec) added stored)
    (remapped : List.Forall₂ (fun a a' => b.remapEnvelope a = .ok a') stored envs) :
    List.Forall₂ (b.Carries codec) added envs := by
  induction carries generalizing envs with
  | nil =>
    cases remapped
    exact .nil
  | cons here _ ih =>
    cases remapped with
    | cons back rest => exact .cons ⟨_, here, back⟩ (ih rest)

/-- Call `i` took effect at one point of the log since it was `start`, over the events of the
callers. -/
def TakesEffect (b : Bridge Ev D) (codec : Codec D) (start : List Entry) (i : Nat) (c : Call Ev)
    (x : Except Failure (Reply Ev)) (log : List Entry) : Prop :=
  ∃ before added after streams effect, log = before ++ added ++ after ∧ start <+: before ∧
    log.filter (·.writer = i) = added ∧ List.Forall₂ (b.Carries codec) added effect.toList ∧
    (∀ id, b.remap (streamOf codec id before) = .ok (streams id)) ∧ Serves streams c x effect

/-- A store with the streams as they are kept and one with the streams as they are read. -/
lemma Asks.serves {streams : AggregateId → List (EventEnvelope D)}
    {read : AggregateId → List (EventEnvelope Ev)} {y : Except Failure (Reply D)}
    {effect : Option (EventEnvelope D)} (asks : b.Asks c c') (keeps : ∀ e ∈ c.events, b.Keeps e)
    (reads : ∀ id, b.remap (streams id) = .ok (read id))
    (named : ∀ env ∈ effect, env.eventId ≠ 0) (h : Serves streams c' y effect) :
    ∃ effect', List.Forall₂ (fun a a' => b.remapEnvelope a = .ok a') effect.toList effect'.toList ∧
      Serves read c (b.adapter.answer c y) effect' := by
  have length : ∀ id, (streams id).length = (read id).length :=
    fun id => (mapM_eq_ok_iff.mp (reads id)).length_eq
  have empty : ∀ id, read id = [] → streams id = [] := by
    intro id none'
    rw [← List.length_eq_zero_iff, length, none']
    rfl
  -- an envelope that is added
  have added : ∀ {env}, effect = some env → Wants c' env →
      env.sequence.get = (streams env.aggregateId).length + 1 →
      ∃ env', b.remapEnvelope env = .ok env' ∧ env'.aggregateId = env.aggregateId ∧ Wants c env' ∧
        env'.sequence.get = (read env'.aggregateId).length + 1 := by
    rintro env rfl wants next
    obtain ⟨e, back, wants'⟩ := asks.wants keeps wants
    refine ⟨original env e, remapEnvelope_eq back (named env rfl), rfl, wants', ?_⟩
    rw [← length]
    exact next
  have one : ∀ {env env'}, b.remapEnvelope env = .ok env' → b.remap [env] = .ok [env'] :=
    fun back => mapM_eq_ok_iff.mpr (.cons back .nil)
  cases h with
  | @loaded id =>
    cases asks
    refine ⟨none, .nil, ?_⟩
    simp only [adapter, reads id, Except.mapError, Except.map]
    exact .loaded
  | @created ds ctx env wants next =>
    obtain ⟨env', back, same, wants', next'⟩ := added rfl wants next
    cases asks
    refine ⟨some env', .cons back .nil, ?_⟩
    simp only [adapter, one back, Except.mapError, Except.map]
    rw [← same]
    exact .created wants' next'
  | @appended id expected ds ctx env wants next =>
    obtain ⟨env', back, same, wants', next'⟩ := added rfl wants next
    cases asks
    refine ⟨some env', .cons back .nil, ?_⟩
    simp only [adapter, one back, Except.mapError, Except.map]
    exact .appended wants' next'
  | nothing =>
    cases asks with
    | append converted =>
      cases converted
      exact ⟨none, .nil, .nothing⟩
  | @conflict id expected ds ctx some' ne =>
    cases asks
    refine ⟨none, .nil, ?_⟩
    rw [length] at ne ⊢
    exact .conflict (fun none' => some' (empty id none')) ne
  | refused plain => exact ⟨none, .nil, .refused plain⟩
  | lost unknown wants next =>
    obtain ⟨env', back, -, wants', next'⟩ := added rfl wants next
    exact ⟨some env', .cons back .nil, .lost unknown wants' next'⟩

/-! ## Runs -/

/-- The caller, if the call is one of `create`. -/
def creator {E : Type} : Nat × Call E → Option Nat
  | (i, .create _ _) => some i
  | _ => none

lemma label_made_eq_some {l : Label E} {c : Call E} (h : l.made = some (j, c)) :
    l = .step (.call j c) := by
  cases l with
  | reopen => cases h
  | step l =>
    cases l with
    | call i c' =>
      cases h
      rfl
    | op i o => cases h
    | abandon i => cases h
    | env => cases h

lemma creator_made (l : Label E) : l.made.bind creator = l.creator := by
  cases l with
  | reopen => rfl
  | step l =>
    cases l with
    | call i c => cases c <;> rfl
    | op i o => rfl
    | abandon i => rfl
    | env => rfl

lemma made_eq_some {l : Label Ev} (h : b.made l = some (j, c')) :
    ∃ c, l = .step (.call j c) ∧ b.adapter.ask c = .ok c' := by
  cases l with
  | reopen => cases h
  | step l =>
    cases l with
    | call i c =>
      cases asked : b.adapter.ask c with
      | error x => simp [made, Adapter.made, asked, Except.toOption] at h
      | ok c'' =>
        simp only [made, Adapter.made, asked, Except.toOption, Option.map_some,
          Option.some.injEq, Prod.mk.injEq] at h
        obtain ⟨rfl, rfl⟩ := h
        exact ⟨c, rfl, asked⟩
    | op i o => cases h
    | abandon i => cases h
    | env => cases h

/-- No more aggregates are created behind a bridged store than in it. -/
lemma creators_le (tr : List (Label Ev)) :
    ((tr.filterMap b.made).filterMap creator).length ≤ (tr.filterMap Label.creator).length := by
  induction tr with
  | nil => exact Nat.le_refl _
  | cons l tr ih =>
    cases made : b.made l with
    | none =>
      rw [List.filterMap_cons_none made]
      exact ih.trans ((List.sublist_cons_self l tr).filterMap _).length_le
    | some call =>
      obtain ⟨j, c'⟩ := call
      obtain ⟨c, rfl, asked⟩ := made_eq_some made
      rw [List.filterMap_cons_some made]
      cases asks_of_ok asked with
      | load => exact ih
      | append => exact ih
      | create => simpa [creator, Label.creator] using ih

/-- A run of a bridged store and the run behind it. -/
structure Mirrored (b : Bridge Ev D) (codec : Codec D) (tr : List (Label Ev)) (P : Calls Ev)
    (trace : List (Label D)) (Q : Calls D) : Prop where
  run : Run (Pgno.SystemStep codec (Pgno.Performs codec)) (Pool.init .created) trace Q
  made : trace.filterMap Label.made = tr.filterMap b.made
  covers : b.adapter.Covers P Q

lemma Mirrored.few (h : Mirrored b codec tr P trace Q)
    (few : (tr.filterMap Label.creator).length < 2 ^ 64 - 1) :
    (trace.filterMap Label.creator).length < 2 ^ 64 - 1 := by
  have same : trace.filterMap Label.creator = (trace.filterMap Label.made).filterMap creator := by
    rw [List.filterMap_filterMap]
    exact congrArg (List.filterMap · trace) (funext fun l => (creator_made l).symm)
  rw [same, h.made]
  exact (creators_le tr).trans_lt few

/-- Every entry is read as an event of a caller. -/
lemma Mirrored.readable (h : Mirrored b codec tr P trace Q)
    (keeps : ∀ j c, .step (.call j c) ∈ tr → ∀ e ∈ c.events, b.Keeps e) {entry : Entry}
    (mem : entry ∈ Q.world.issued) (carries : Pgno.Carries codec entry env) :
    ∃ env', b.remapEnvelope env = .ok env' := by
  obtain ⟨c', env', called, carries', wants⟩ := (sourced_run h.run).wanted mem
  cases carries'.inj carries
  have seen : (entry.writer, c') ∈ tr.filterMap b.made := by
    rw [← h.made]
    exact List.mem_filterMap.mpr ⟨_, called, rfl⟩
  obtain ⟨l, mem, made⟩ := List.mem_filterMap.mp seen
  obtain ⟨c, rfl, asked⟩ := made_eq_some made
  obtain ⟨e, back, -⟩ := (asks_of_ok asked).wants (keeps _ c mem) wants
  exact ⟨_, remapEnvelope_eq back carries.named⟩

lemma Mirrored.reads (h : Mirrored b codec tr P trace Q)
    (few : (tr.filterMap Label.creator).length < 2 ^ 64 - 1)
    (keeps : ∀ j c, .step (.call j c) ∈ tr → ∀ e ∈ c.events, b.Keeps e) {log : List Entry}
    (pre : log <+: Q.world.session.log) :
    ∃ streams : AggregateId → List (EventEnvelope Ev),
      ∀ id, b.remap (streamOf codec id log) = .ok (streams id) := by
  have ok := system_ok (run_within h.run ((allocs_le h.run).trans_lt (h.few few)))
  have part : log <+: Q.world.issued := pre.trans (List.prefix_append _ _)
  have each : ∀ id, ∃ stream, b.remap (streamOf codec id log) = .ok stream := by
    intro id
    refine exists_mapM_eq_ok fun env mem => ?_
    obtain ⟨entry, mem, carries, -⟩ := mem_streamOf (ok.inv.sound.of_prefix part).legible mem
    exact h.readable keeps (part.subset mem) carries
  exact ⟨fun id => (each id).choose, fun id => (each id).choose_spec⟩

/-- A call that has returned was refused on the spot, or it made its answer of the answer to a call
that took effect. -/
lemma returned_behind (r : Run (b.SystemStep codec) (Pool.init .created) tr P)
    (r' : Run (b.SystemStep codec) P (.step (.call i c) :: tr') P')
    (few : ((tr ++ .step (.call i c) :: tr').filterMap Label.creator).length < 2 ^ 64 - 1)
    (returned : P'.slots i = .run c (.ofExcept x)) :
    ∃ trace Q, Mirrored b codec (tr ++ .step (.call i c) :: tr') P' trace Q ∧
      P.world.session.log <+: Q.world.session.log ∧
      ((b.adapter.ask c = .error x ∧ Q.slots i = .idle) ∨
        ∃ c' y, b.adapter.ask c = .ok c' ∧ x = b.adapter.answer c y ∧
          Pgno.TakesEffect codec P.world.session.log i c' y Q.world.session.log) := by
  obtain ⟨tr1, Q, run, made, covers⟩ := system_matches.run (Adapter.covers_init .created) r
  obtain ⟨tr2, Q', run', made', covers'⟩ := system_matches.run covers r'
  have mirrored : Mirrored b codec (tr ++ .step (.call i c) :: tr') P' (tr1 ++ tr2) Q' :=
    ⟨run.append run', by rw [List.filterMap_append, List.filterMap_append, made, made'], covers'⟩
  rw [covers.world]
  refine ⟨_, Q', mirrored, log_mono run', ?_⟩
  rcases covers'.returned returned with refused | ⟨c', y, asked, there, answer⟩
  · exact .inl refused
  · have first : b.made (.step (.call i c)) = some (i, c') := by
      simp [Bridge.made, Adapter.made, asked, Except.toOption]
    rw [List.filterMap_cons_some first] at made'
    -- the point of the run behind at which the call was made
    obtain ⟨tr3, l, tr4, rfl, -, call, -⟩ := List.filterMap_eq_cons_iff.mp made'
    cases label_made_eq_some call
    obtain ⟨Q1, runA, runB⟩ := run'.split
    have few' := (allocs_le mirrored.run).trans_lt (mirrored.few few)
    obtain ⟨before, added, after, effect, split, since, own, carries, serves⟩ :=
      returned_takesEffect (run.append runA) runB few' there
    exact .inr ⟨c', y, asked, answer, before, added, after, effect, split,
      (log_mono runA).trans since, own, carries, serves⟩

/-- If the events of all callers come back as they were: every call that has returned took effect at
one point of the log, since it was made, as in a sequential store of the callers' events. -/
theorem bridge_linearizable
    (r : Run (b.SystemStep codec) (Pool.init .created) tr P)
    (r' : Run (b.SystemStep codec) P (.step (.call i c) :: tr') P')
    (few : ((tr ++ .step (.call i c) :: tr').filterMap Label.creator).length < 2 ^ 64 - 1)
    (keeps : ∀ j c', .step (.call j c') ∈ tr ++ .step (.call i c) :: tr' →
      ∀ e ∈ c'.events, b.Keeps e)
    (returned : P'.slots i = .run c (.ofExcept x)) :
    b.TakesEffect codec P.world.session.log i c x P'.world.session.log := by
  obtain ⟨trace, Q, mirrored, since, refused | behind⟩ := returned_behind r r' few returned
  · -- nothing was called
    obtain ⟨asked, idle⟩ := refused
    obtain ⟨e, rfl⟩ := refused_of_error asked
    obtain ⟨streams, reads⟩ := mirrored.reads few keeps (List.prefix_refl _)
    have clean : ownEntries i Q.world = [] := by
      have sources := (sourced_run mirrored.run).slots i
      rwa [idle] at sources
    rw [mirrored.covers.world]
    exact ⟨_, [], [], streams, none, by simp, since, List.sublist_nil.mp (logged_own clean), .nil,
      reads, .refused trivial⟩
  · obtain ⟨c', y, asked, rfl, before, added, after, effect, split, since, own, carries, serves⟩ :=
      behind
    have part : before <+: Q.world.session.log := by
      rw [split, List.append_assoc]
      exact List.prefix_append _ _
    obtain ⟨streams, reads⟩ := mirrored.reads few keeps part
    have named : ∀ env ∈ effect, env.eventId ≠ 0 := by
      rintro env ⟨⟩
      obtain ⟨entry, _, carried, -, rfl⟩ := List.forall₂_cons_right_iff.mp carries
      exact carried.named
    obtain ⟨effect', remapped, serves'⟩ := (asks_of_ok asked).serves
      (keeps i c (List.mem_append_right _ List.mem_cons_self)) reads named serves
    rw [mirrored.covers.world]
    exact ⟨before, added, after, streams, effect', split, since, own, carries_comp carries remapped,
      reads, serves'⟩

/-- Once a stream has an envelope that cannot be converted back, no load of it succeeds any more. -/
theorem unreadable_blocks_loads {id : AggregateId} {env : EventEnvelope D}
    (r : Run (b.SystemStep codec) (Pool.init .created) tr P)
    (mem : env ∈ streamOf codec id P.world.session.log)
    (unreadable : ∀ env', b.remapEnvelope env ≠ .ok env')
    (r' : Run (b.SystemStep codec) P (.step (.call i (.load id)) :: tr') P')
    (few : ((tr ++ .step (.call i (.load id)) :: tr').filterMap Label.creator).length < 2 ^ 64 - 1)
    (returned : P'.slots i = .run (.load id) (.ofExcept x)) : ∃ f, x = .error f := by
  obtain ⟨trace, Q, mirrored, -,
      ⟨⟨⟩, -⟩ | ⟨_, y, ⟨⟩, rfl, before, _, _, _, -, since, -, -, serves⟩⟩ :=
    returned_behind r r' few returned
  cases serves with
  | refused => exact ⟨_, rfl⟩
  | lost => exact ⟨_, rfl⟩
  | loaded =>
    cases read : b.remap (streamOf codec id before) with
    | error e => exact ⟨.store e, by simp [adapter, read, Except.mapError, Except.map]⟩
    | ok envs =>
      have there : env ∈ streamOf codec id before := (streamOf_mono since).subset mem
      obtain ⟨n, lt, at'⟩ := List.mem_iff_getElem.mp there
      have all := mapM_eq_ok_iff.mp read
      have back := all.get lt (all.length_eq ▸ lt)
      rw [List.get_eq_getElem, at'] at back
      exact absurd back (unreadable _)

end Bridge

/-! ## The two stores -/

/-- A scheduler event comes back as it was if it is not an orphan. -/
lemma schedulerBridge_keeps {jiff : Scheduler.Jiff} {e : Scheduler.SchedulerEvent}
    (timed : e.Timed jiff) (parented : ¬ e.Orphaned) : (schedulerBridge jiff).Keeps e := by
  intro d stored
  have fits : e.Fits := by
    by_contra over'
    obtain ⟨error, refused⟩ := Scheduler.toDto_error over'
    simp [schedulerBridge, refused, Except.mapError] at stored
  simp only [schedulerBridge, Scheduler.toDto_ok fits, Except.mapError, Except.ok.injEq] at stored
  subst stored
  exact (Scheduler.fromDto_mirror timed).mpr parented

/-- An event comes back as it was if its JSON is read as it or is too large. -/
lemma serdeBridge_keeps_iff {Ev : Type} {serde : Serde Ev} {e : Ev} :
    (serdeBridge serde).Keeps e ↔
      ∀ json, serde.toVec e = .ok json → json.length ≤ serdeEnvelopeMax →
        serde.fromSlice json = .ok e := by
  constructor
  · intro keeps json encoded le
    have back : (serdeBridge serde).fromDto ⟨json⟩ = .ok e := by
      refine keeps ⟨json⟩ ?_
      simp [serdeBridge, Serde.toDto, encoded, Nat.not_lt.mpr le, Except.mapError]
    cases read : serde.fromSlice json with
    | ok e' =>
      simp only [serdeBridge, Serde.fromDto, read, Except.mapError, Except.ok.injEq] at back
      rw [back]
    | error e' => simp [serdeBridge, Serde.fromDto, read, Except.mapError] at back
  · intro reads d stored
    cases encoded : serde.toVec e with
    | error e' => simp [serdeBridge, Serde.toDto, encoded, Except.mapError] at stored
    | ok json =>
      by_cases large : serdeEnvelopeMax < json.length
      · simp [serdeBridge, Serde.toDto, encoded, large, Except.mapError] at stored
      · simp only [serdeBridge, Serde.toDto, encoded, large, if_false, Except.mapError,
          Except.ok.injEq] at stored
        subst stored
        simp only [serdeBridge, Serde.fromDto, reads json encoded (Nat.not_lt.mp large),
          Except.mapError]

/-! ## Runs of them -/

/-- The record with another payload. -/
def PgnoEnvelope.carry {E E' : Type} (r : PgnoEnvelope E) (payload : E') : PgnoEnvelope E' :=
  ⟨r.eventId, r.aggregateId, r.sequence, r.timestampNanos, r.correlationId, r.causationId, payload⟩

/-- A codec for a single event. -/
def soleCodec {E : Type} (e : E) (is : E → Bool) (sole : ∀ e', is e' = true → e' = e) :
    Codec E where
  toVec r := if is r.payload then unitCodec.toVec (r.carry ()) else .error "another event"
  fromSlice bytes := (unitCodec.fromSlice bytes).map (·.carry e)
  newBytes := unitCodec.newBytes
  encodeType := unitCodec.encodeType
  decodeType := unitCodec.decodeType
  fromNanosecond := unitCodec.fromNanosecond
  fromSlice_toVec {r json} h := by
    split at h
    · rename_i this
      rw [unitCodec.fromSlice_toVec h]
      have same := sole _ this
      cases r
      cases same
      rfl
    · cases h
  newBytes_bytes := unitCodec.newBytes_bytes
  decodeType_encodeType := unitCodec.decodeType_encodeType
  fromNanosecond_i64 := unitCodec.fromNanosecond_i64

lemma soleCodec_fits {e : E} {is : E → Bool} {sole : ∀ e', is e' = true → e' = e}
    (this : is e = true) : Fits (soleCodec e is sole) e := by
  intro record same
  obtain ⟨bytes, encoded⟩ := unitCodec_fits () (record.carry ()) rfl
  refine ⟨bytes, ?_⟩
  rw [← encoded]
  simp only [encodeRecord, soleCodec, same, this, if_true]

section Witness

variable {Ev D : Type} {b : Bridge Ev D} {codec : Codec D}

/-- A call of a bridged store that runs alone. -/
lemma Bridge.run_alone {P : Calls Ev} {i : Nat} {c : Call Ev} {c' : Call D} {w : World}
    {y : Except Failure (Reply D)} (idle : P.slots i = .idle) (asked : b.adapter.ask c = .ok c')
    (ex : Exec (Pgno.Performs codec) i c' P.world (Pgno.program codec c') w y) :
    ∃ tr, Run (b.SystemStep codec) P (.step (.call i c) :: tr)
        ⟨w, Function.update P.slots i (.run c (.ofExcept (b.adapter.answer c y)))⟩ ∧
      ∀ j d, .step (.call j d) ∉ tr := by
  have whole : Exec (b.Performs codec) i c P.world (b.program codec c) w
      (b.adapter.answer c y) := by
    rw [b.program_eq codec]
    exact Adapter.exec_body (fun ex _ _ => ex) asked ex
  obtain ⟨ops, run⟩ := @Pool.run_call_ops sig (Call Ev) World Failure (Reply Ev) (b.Performs codec)
    (fun _ _ => False) (b.program codec) (fun _ => True) P i c w _ idle trivial whole
  have seen : Run (b.SystemStep codec) _ (List.filterMap (fun l => some (.step l))
      (.call i c :: ops.map (.op i))) _ :=
    run.seen id _ fun st => .inl ⟨_, rfl, .step st⟩
  refine ⟨_, seen, fun j d mem => ?_⟩
  simp at mem

lemma creators_nil {tr : List (Label E)} (none' : ∀ j d, .step (.call j d) ∉ tr) :
    tr.filterMap Label.creator = [] := by
  rw [List.filterMap_eq_nil_iff]
  intro l mem
  cases l with
  | reopen => rfl
  | step l =>
    cases l with
    | call j d => exact absurd mem (none' j d)
    | op i o => rfl
    | abandon i => rfl
    | env => rfl

end Witness

/-- Only the event that cancels schedule 0. -/
def isCancelled : Scheduler.SchedulerEventDto → Bool
  | .cancelled d => d.scheduleId == 0
  | _ => false

lemma isCancelled_sole (d : Scheduler.SchedulerEventDto) (h : isCancelled d = true) :
    d = .cancelled ⟨0⟩ := by
  cases d with
  | cancelled d =>
    cases d
    simpa [isCancelled] using h
  | armed d => cases h
  | fired d => cases h

/-- Nothing but the epoch. -/
def epochOnly : Scheduler.Jiff := ⟨0, 0, fun _ => "out of range"⟩

/-- A schedule is cancelled in a new scheduler store: the call takes effect. -/
theorem bridge_linearizable_cancelled : ∃ tr P env,
    Run ((schedulerBridge epochOnly).SystemStep (soleCodec _ isCancelled isCancelled_sole))
      (Pool.init .created) (.step (.call 0 (.create [.cancelled ⟨⟨0⟩⟩] ⟨none, none⟩)) :: tr) P ∧
    (schedulerBridge epochOnly).TakesEffect (soleCodec _ isCancelled isCancelled_sole) [] 0
      (.create [.cancelled ⟨⟨0⟩⟩] ⟨none, none⟩) (.ok (.created ⟨.min⟩ [env]))
      P.world.session.log := by
  have fits : Fits (soleCodec _ isCancelled isCancelled_sole) (.cancelled ⟨0⟩) := soleCodec_fits rfl
  obtain ⟨w, entry, env, ex, named, payload, -⟩ := create_alone fits ⟨none, none⟩
  let P0 : Calls Scheduler.SchedulerEvent := Pool.init .created
  have asked : (schedulerBridge epochOnly).adapter.ask (.create [.cancelled ⟨⟨0⟩⟩] ⟨none, none⟩) =
      .ok (.create [.cancelled ⟨0⟩] ⟨none, none⟩) := rfl
  obtain ⟨tr, run, none'⟩ := Bridge.run_alone (P := P0) rfl asked ex
  have back : (schedulerBridge epochOnly).remapEnvelope env =
      .ok (Bridge.original env (.cancelled ⟨⟨0⟩⟩)) := by
    refine Bridge.remapEnvelope_eq ?_ (by rw [named]; decide)
    rw [payload]
    rfl
  have answer : (schedulerBridge epochOnly).adapter.answer
      (.create [.cancelled ⟨⟨0⟩⟩] ⟨none, none⟩) (.ok (.created ⟨.min⟩ [env])) =
      .ok (.created ⟨.min⟩ [Bridge.original env (.cancelled ⟨⟨0⟩⟩)]) := by
    have read : (schedulerBridge epochOnly).remap [env] = .ok [_] :=
      mapM_eq_ok_iff.mpr (.cons back .nil)
    simp only [Bridge.adapter, read, Except.mapError, Except.map]
  rw [answer] at run
  refine ⟨tr, _, _, run, Bridge.bridge_linearizable .nil run ?_ ?_ rfl⟩
  · simp only [List.nil_append, List.filterMap_cons, Label.creator, creators_nil none']
    decide
  · intro j c mem e mem'
    rw [List.nil_append, List.mem_cons] at mem
    rcases mem with mem | mem
    · cases mem
      rw [List.mem_singleton.mp mem']
      exact schedulerBridge_keeps trivial not_false
    · exact absurd mem (none' j c)

/-- `serde_json` on an event whose JSON is not read. -/
def oneWay : Serde Unit := ⟨fun _ => .ok [], fun _ => .error "EOF while parsing a value"⟩

/-- Only the empty bytes. -/
def isEmpty (d : SerdeEnvelopeDto) : Bool := d.bytes == []

lemma isEmpty_sole (d : SerdeEnvelopeDto) (h : isEmpty d = true) : d = ⟨[]⟩ := by
  cases d
  simpa [isEmpty] using h

/-- An event whose JSON is not read is created, and then its aggregate cannot be loaded. -/
theorem unreadable_blocks_loads_created : ∃ tr P tr' P' f,
    Run ((serdeBridge oneWay).SystemStep (soleCodec _ isEmpty isEmpty_sole))
      (Pool.init .created) (.step (.call 0 (.create [()] ⟨none, none⟩)) :: tr) P ∧
    Run ((serdeBridge oneWay).SystemStep (soleCodec _ isEmpty isEmpty_sole)) P
      (.step (.call 1 (.load ⟨.min⟩)) :: tr') P' ∧
    P'.slots 1 = .run (.load ⟨.min⟩) (.raise f) := by
  have fits : Fits (soleCodec _ isEmpty isEmpty_sole) ⟨[]⟩ := soleCodec_fits rfl
  obtain ⟨w, entry, env, ex, named, payload, sequence, aggregate, carries, session⟩ :=
    create_alone fits ⟨none, none⟩
  let P0 : Calls Unit := Pool.init .created
  have asked : (serdeBridge oneWay).adapter.ask (.create [()] ⟨none, none⟩) =
      .ok (.create [⟨[]⟩] ⟨none, none⟩) := rfl
  obtain ⟨tr, run, none'⟩ := Bridge.run_alone (P := P0) rfl asked ex
  have calm : Calm (soleCodec _ isEmpty isEmpty_sole) w.session := by
    rw [session]
    refine ⟨rfl, rfl, ?_⟩
    refine Sound.nil.concat carries ?_ fun _ mem => absurd mem List.not_mem_nil
    rw [sequence]
    rfl
  have read : Exec (Performs (soleCodec _ isEmpty isEmpty_sole)) 1 (.load ⟨.min⟩) w
      (program (soleCodec _ isEmpty isEmpty_sole) (.load ⟨.min⟩)) w _ :=
    ((orderedStream_exec (u := 1) (t := 0) List.Perm.refl calm).mono And.left).bind .ret
  let P1 : Calls Unit := ⟨w, Function.update P0.slots 0 (.run (.create [()] ⟨none, none⟩)
    (.ofExcept ((serdeBridge oneWay).adapter.answer (.create [()] ⟨none, none⟩)
      (.ok (.created ⟨.min⟩ [env])))))⟩
  obtain ⟨tr', run', none''⟩ := Bridge.run_alone (b := serdeBridge oneWay) (P := P1) (i := 1)
    (c := .load ⟨.min⟩) rfl rfl read
  have mem : env ∈ streamOf (soleCodec _ isEmpty isEmpty_sole) ⟨.min⟩ w.session.log := by
    rw [session, ← aggregate]
    show env ∈ streamOf _ _ [entry]
    rw [carries.streamOf_singleton, if_pos rfl]
    exact List.mem_singleton_self env
  have unreadable : ∀ env', (serdeBridge oneWay).remapEnvelope env ≠ .ok env' := by
    intro env' e
    cases e
  obtain ⟨f, failed⟩ := Bridge.unreadable_blocks_loads run mem unreadable run' (by
    simp only [List.cons_append, List.filterMap_cons, List.filterMap_append, Label.creator,
      creators_nil none', creators_nil none'']
    decide) rfl
  refine ⟨tr, _, tr', _, f, run, run', ?_⟩
  rw [failed]
  rfl

end CherryPit.Pgno
