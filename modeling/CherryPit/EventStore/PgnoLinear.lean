import CherryPit.EventStore.PgnoSource

/-!
# The durable event store is linearizable

Every call of the durable store takes effect at one point between its start and its return, and the
log is the order of these points. `Serves` is a sequential store: what it answers to a call while
its streams are given, and the envelope that it adds to them. For every call that has returned there
is a prefix of the log, at least as long as the log was when the call was made, such that the answer
is the one of a sequential store with the streams of this prefix and what the call wrote is the
entry that follows it (`linearizable`).

A call whose outcome is unknown may also take effect after it has returned, when the store is opened
again, or not at all; it does not take effect twice.
-/

namespace CherryPit.Pgno

open Conc Store
open Projection (U64 u64)

variable {E α : Type} {codec : Codec E} {i : Nat} {c : Call E} {w w' : World}
  {ctx : CorrelationContext} {env : EventEnvelope E} {e : StoreError} {expected : NonZeroU64}
  {entry : Entry} {payload : E} {P' P : Calls E} {tr tr' : List (Label E)}

/-! ## A sequential store -/

/-- The failure says nothing about the streams. -/
def Failure.Plain : Failure → Prop
  | .store (.concurrencyConflict _ _ _) | .store (.corruptData _) => False
  | _ => True

/-- The failure leaves open what the call has done. -/
def Failure.Unknown : Failure → Prop
  | .panicked _ => True
  | .store e => e.category = .reconciliationRequired

/-- What a store with these streams answers to a call, and the envelope it adds to them. -/
inductive Serves (streams : AggregateId → List (EventEnvelope E)) :
    Call E → Except Failure (Reply E) → Option (EventEnvelope E) → Prop where
  | loaded {id} :
    Serves streams (.load id) (.ok (.loaded (streams id))) none
  | created {events ctx env} :
    Wants (.create events ctx) env →
    env.sequence.get = (streams env.aggregateId).length + 1 →
    Serves streams (.create events ctx) (.ok (.created env.aggregateId [env])) (some env)
  | appended {id expected events ctx env} :
    Wants (.append id expected events ctx) env →
    env.sequence.get = (streams env.aggregateId).length + 1 →
    Serves streams (.append id expected events ctx) (.ok (.appended [env])) (some env)
  | nothing {id expected ctx} :
    Serves streams (.append id expected [] ctx) (.ok (.appended [])) none
  | conflict {id expected events ctx} :
    streams id ≠ [] →
    (streams id).length ≠ expected.get →
    Serves streams (.append id expected events ctx)
      (.error (.store (.concurrencyConflict id expected (streams id).length))) none
  | refused {c f} :
    f.Plain →
    Serves streams c (.error f) none
  -- the envelope was added and the answer was lost
  | lost {c f env} :
    f.Unknown →
    Wants c env →
    env.sequence.get = (streams env.aggregateId).length + 1 →
    Serves streams c (.error f) (some env)

/-! ## What a call has seen -/

/-- What the answer of a call says about the streams was so at some point since the log was
`start`. -/
inductive Timely (codec : Codec E) (start : List Entry) (w : World) :
    Call E → Except Failure (Reply E) → Prop where
  | loaded {id : AggregateId} {log} :
    start <+: log →
    log <+: w.session.log →
    Timely codec start w (.load id) (.ok (.loaded (streamOf codec id log)))
  | conflict {id : AggregateId} {expected events ctx log} :
    start <+: log →
    log <+: w.session.log →
    streamOf codec id log ≠ [] →
    (streamOf codec id log).length ≠ expected.get →
    Timely codec start w (.append id expected events ctx)
      (.error (.store (.concurrencyConflict id expected (streamOf codec id log).length)))
  | failed {c f} :
    f.Plain →
    Timely codec start w c (.error f)
  | created {events ctx reply} :
    Timely codec start w (.create events ctx) (.ok reply)
  | appended {id : AggregateId} {expected events ctx reply} :
    Timely codec start w (.append id expected events ctx) (.ok reply)

lemma Timely.mono {start : List Entry} {x : Except Failure (Reply E)}
    (h : Timely codec start w c x) (log : w.session.log <+: w'.session.log) :
    Timely codec start w' c x := by
  cases h with
  | loaded pre pre' => exact .loaded pre (pre'.trans log)
  | conflict pre pre' some' ne => exact .conflict pre (pre'.trans log) some' ne
  | failed plain => exact .failed plain
  | created => exact .created
  | appended => exact .appended

/-- A program of caller `i` meets its postcondition, given that the protocol is kept. -/
abbrev Sees (codec : Codec E) (i : Nat) (c : Call E) (Q : Except Failure α → World → Prop)
    (p : Prog sig Failure α) (w : World) : Prop :=
  wp ((Within codec).keeping (Inv codec)) ((protocol codec).assume i) i c Q p w

/-- A program that fails only in ways that say nothing about the streams. -/
def FailsPlainly (r : Except Failure α) (_ : World) : Prop := ∀ f, r = .error f → f.Plain

lemma failsPlainly_ok (a : α) (w : World) : FailsPlainly (.ok a) w := by
  rintro f ⟨⟩

lemma failsPlainly_error {f : Failure} (h : f.Plain) (w : World) :
    FailsPlainly (.error f : Except Failure α) w := by
  rintro _ ⟨⟩
  exact h

lemma plain_of_reconciliation (h : e.category = .reconciliationRequired) :
    (Failure.store e).Plain := by
  cases e with
  | concurrencyConflict => cases h
  | corruptData => cases h
  | _ => trivial

lemma afterLanded_plain (f : Failure) : f.afterLanded.Plain := by
  cases f <;> trivial

lemma encodeRecord_plain {record : PgnoEnvelope E} (h : encodeRecord codec record = .error e) :
    (Failure.store e).Plain := by
  unfold encodeRecord at h
  split at h
  · cases h
    trivial
  split at h
  · cases h
    trivial
  generalize codec.encodeType _ = wire at h
  cases wire <;> cases h
  trivial

lemma record_plain {s : Session} {answers : Answers} (h : (s.record answers entry).2 = .error e) :
    (Failure.store e).Plain := by
  unfold Session.record at h
  cases ready : s.ready with
  | error e' =>
    rw [ready] at h
    cases h
    exact plain_of_reconciliation (ready_error ready)
  | ok =>
    rw [ready] at h
    dsimp only at h
    split at h
    · cases h
      trivial
    split at h
    · cases h
      trivial
    · cases h
      trivial
    split at h <;> cases h
    trivial

lemma addOne_plain (n : U64) (w : World) : FailsPlainly (addOne n) w := by
  intro f e
  unfold addOne at e
  split at e <;> cases e
  trivial

lemma ready_sees {start : List Entry} (since : start <+: w.session.log) :
    Sees codec i c (fun r v => FailsPlainly r v ∧ start <+: v.session.log) ready w := by
  apply wp_keeping_attempt
  rintro w1 rely inv w2 r ⟨⟨rfl, rfl⟩, -⟩ - v rely' inv'
  refine ⟨?_, (since.trans (rely.kept inv.orderly).log).trans (rely'.kept inv'.orderly).log⟩
  intro f e
  cases ready : w2.session.ready with
  | ok =>
    rw [ready] at e
    cases e
  | error e' =>
    rw [ready] at e
    cases e
    exact plain_of_reconciliation (ready_error ready)

lemma recordSingle_sees {aggregateId : U64} {eventId : Uuid} {sequence : U64}
    {correlationId causationId : Option Uuid} :
    Sees codec i c FailsPlainly
      (recordSingle codec aggregateId eventId sequence correlationId causationId payload) w := by
  refine wp_keeping_op fun w1 _ _ w2 now _ _ => ?_
  dsimp only
  split
  · rename_i failed
    exact fun v _ _ => failsPlainly_error (encodeRecord_plain failed) v
  · apply wp_keeping_attempt
    rintro w3 - - w4 r ⟨⟨answers, rfl, -⟩, -⟩ - v - - f e
    cases recorded : (w3.session.record answers _).2 with
    | ok =>
      rw [recorded] at e
      cases e
    | error e' =>
      rw [recorded] at e
      cases e
      exact record_plain recorded

variable {id : AggregateId}

/-- A read finds the streams of a moment since the log was `start`. -/
lemma orderedStream_sees {start : List Entry} (since : start <+: w.session.log) :
    Sees codec i c
      (fun r v => match r with
        | .ok stream => ∃ log, start <+: log ∧ log <+: v.session.log ∧ Sound codec log ∧
            stream = streamOf codec id log
        | .error f => f.Plain)
      (orderedStream codec id) w := by
  apply wp_keeping_attempt
  rintro w1 rely inv w2 r ⟨⟨entries, read, rfl, rfl⟩, -⟩ - v rely' inv'
  have here := since.trans (rely.kept inv.orderly).log
  unfold Session.readAll
  cases ready : w2.session.ready with
  | error e => exact plain_of_reconciliation (ready_error ready)
  | ok =>
    cases entries with
    | error e => trivial
    | ok entries =>
      have sound : Sound codec w2.session.log := inv.sound.of_prefix (List.prefix_append _ _)
      dsimp only [Except.bind, Except.mapError]
      rw [sound.streamIn (read entries rfl) id]
      exact ⟨_, here, (rely'.kept inv'.orderly).log, sound, rfl⟩

lemma reread_sees :
    Sees codec i c FailsPlainly ((orderedStream codec id).mapError Failure.afterLanded) w := by
  refine wp_mapError (wp_conseq ?_ (orderedStream_sees (List.nil_prefix)))
  intro r v _ _
  cases r with
  | ok stream => exact failsPlainly_ok stream v
  | error f => exact failsPlainly_error (afterLanded_plain f) v

lemma Performs.log {o : Op} {r : o.Res} (reads : o.Reads) (ex : Performs codec i c w o w' r) :
    w'.session.log = w.session.log :=
  congrArg Session.log (ex.session reads)

/-- The scope of an aggregate's lock. -/
lemma withAggregate_sees {Q : Except Failure α → World → Prop} {start : List Entry}
    {body : Prog sig Failure α} (since : start <+: w.session.log)
    (inside : ∀ {v}, Inv codec v → start <+: v.session.log → Sees codec i c Q body v)
    (grows : ∀ {x v v'}, Q x v → v.session.log <+: v'.session.log → Q x v')
    (panics : ∀ {message v}, Q (.error (.panicked message)) v) :
    Sees codec i c Q (withAggregate id body) w := by
  refine wp_keeping_op fun w1 rely inv w2 poisoned ex inv2 => ?_
  cases poisoned with
  | true => exact fun v _ _ => panics
  | false =>
    have same : w2.session.log = w1.session.log := ex.1.log (by trivial)
    have here := since.trans (rely.kept inv.orderly).log
    rw [← same] at here
    show Sees codec i c Q (body.result >>= _) _
    refine wp_seq (R := fun r v => ∃ x, r = .ok x ∧ Q x v) inv2 (wp_result ?_) ?_ ?_
    · exact wp_conseq (fun x _ _ post => ⟨x, rfl, post⟩) (inside inv2 here)
    · rintro x v - ⟨_, ⟨⟩, post⟩
      refine wp_keeping_op fun w3 rely3 inv3 w4 r ex' inv4 => wp_ofExcept fun v' rely5 inv5 => ?_
      have same : w4.session.log = w3.session.log := ex'.1.log (by trivial)
      refine grows (grows post (rely3.kept inv3.orderly).log) ?_
      rw [← same]
      exact (rely5.kept inv5.orderly).log
    · rintro f v _ ⟨_, ⟨⟩, _⟩

variable {events : List E}

/-- Rust `create` fails with plain errors. -/
lemma create_sees (inv : Inv codec w) :
    Sees codec i c FailsPlainly (create codec events ctx) w := by
  refine wp_seq inv (ready_sees List.nil_prefix) ?_
    fun f v _ h => failsPlainly_error (h.1 f rfl) v
  rintro ⟨⟩ v inv -
  match events with
  | _ :: _ :: _ => exact fun v _ _ => failsPlainly_error (by trivial) v
  | [] => exact fun v _ _ => failsPlainly_error (by trivial) v
  | [payload] =>
    refine wp_keeping_op fun w1 _ _ w2 old _ inv2 => ?_
    refine wp_seq inv2 (wp_ofExcept fun v _ _ => addOne_plain old v) ?_
      fun f v _ h => failsPlainly_error (h f rfl) v
    intro rawId v3 inv3 _
    split
    · exact fun v _ _ => failsPlainly_error (by trivial) v
    · refine withAggregate_sees (List.nil_prefix : [] <+: _) ?_ (fun h _ => h)
        (failsPlainly_error (by trivial) _)
      intro v4 inv4 _
      refine wp_keeping_op fun w5 _ _ w6 u _ inv6 => ?_
      refine wp_seq inv6 recordSingle_sees ?_ fun f v _ h => failsPlainly_error (h f rfl) v
      rintro ⟨⟩ v7 inv7 -
      refine wp_seq inv7 reread_sees ?_ fun f v _ h => failsPlainly_error (h f rfl) v
      exact fun full v8 _ _ v9 _ _ => failsPlainly_ok _ v9

/-- What an append answers when it fails. -/
def AppendTimely (codec : Codec E) (start : List Entry) (id : AggregateId)
    (expected : NonZeroU64) (events : List E) (ctx : CorrelationContext)
    (r : Except Failure (List (EventEnvelope E))) (w : World) : Prop :=
  Timely codec start w (.append id expected events ctx) (r.map .appended)

lemma appendLocked_sees {start : List Entry} (inv : Inv codec w) (since : start <+: w.session.log) :
    Sees codec i c (AppendTimely codec start id expected events ctx)
      (appendLocked codec id expected ctx payload) w := by
  refine wp_seq inv (orderedStream_sees since) ?_ fun f v _ plain => .failed plain
  rintro _ v1 inv1 ⟨log, pre, pre', sound, rfl⟩
  split
  · exact fun v _ _ => .failed trivial
  rename_i some'
  dsimp only
  rw [(sound.wellFormed id).lastSequence]
  split
  · rename_i ne
    exact fun v rely inv => .conflict pre (pre'.trans (rely.kept inv.orderly).log) some' ne
  refine wp_keeping_op fun w2 _ _ w3 u _ inv3 => ?_
  refine wp_seq inv3 (wp_ofExcept fun v _ _ => addOne_plain _ v) ?_
    fun f v _ h => .failed (h f rfl)
  intro sequence v4 inv4 _
  refine wp_seq inv4 recordSingle_sees ?_ fun f v _ h => .failed (h f rfl)
  rintro ⟨⟩ v5 inv5 -
  refine wp_seq inv5 reread_sees ?_ fun f v _ h => .failed (h f rfl)
  intro full v6 _ _
  split
  · exact fun v _ _ => .failed trivial
  · exact fun v _ _ => .appended

/-- Rust `append` answers by what it saw. -/
lemma append_sees {start : List Entry} (inv : Inv codec w) (since : start <+: w.session.log) :
    Sees codec i c (AppendTimely codec start id expected events ctx)
      (append codec id expected events ctx) w := by
  refine wp_seq inv (ready_sees since) ?_ fun f v _ h => .failed (h.1 f rfl)
  rintro ⟨⟩ v1 inv1 ⟨-, since⟩
  match events with
  | _ :: _ :: _ => exact fun v _ _ => .failed trivial
  | [] => exact fun v _ _ => .appended
  | [payload] =>
    refine withAggregate_sees since ?_ ?_ (.failed trivial)
    · exact fun inv since => appendLocked_sees inv since
    · exact fun h log => h.mono log

/-- Every call answers what was so since it was made. -/
lemma program_timely {start : List Entry} (inv : Inv codec w) (since : start <+: w.session.log) :
    Sees codec i c (fun x v => Timely codec start v c x) (program codec c) w := by
  cases c with
  | load id =>
    refine wp_seq inv (orderedStream_sees since) ?_ fun f v _ plain => .failed plain
    rintro _ v - ⟨log, pre, pre', -, rfl⟩ v' rely inv'
    exact .loaded pre (pre'.trans (rely.kept inv'.orderly).log)
  | create events ctx =>
    refine wp_seq inv (create_sees inv) ?_ fun f v _ h => .failed (h f rfl)
    exact fun made v _ _ v' _ _ => .created
  | append id expected events ctx =>
    refine wp_seq inv (append_sees inv since) ?_ fun f v _ h => h
    exact fun envs v _ _ v' _ _ => .appended

/-! ## One call in a run -/

/-- All that is known of a call once it has returned. -/
structure Known (codec : Codec E) (start : List Entry) (i : Nat) (c : Call E)
    (x : Except Failure (Reply E)) (w : World) : Prop where
  post : Post codec i c x w
  timely : Timely codec start w c x

lemma Known.later {start : List Entry} {x : Except Failure (Reply E)}
    (h : Known codec start i c x w) (later : Later i w w') : Known codec start i c x w' :=
  ⟨h.post.later later, h.timely.mono later.log⟩

/-- What is known of a call when it returns. -/
lemma program_known {start : List Entry} (inv : Inv codec w) (clean : ownEntries i w = [])
    (since : start <+: w.session.log) :
    Meets codec i c (Known codec start i c) (program codec c) w := by
  refine wp_conseq ?_ (wp_and (program_meets inv clean) (program_timely inv since))
  rintro x v - ⟨post, timely⟩
  exact ⟨post, timely⟩

/-- One call of the system. -/
abbrev Follows (codec : Codec E) (start : List Entry) (i : Nat) (c : Call E) (P : Calls E) : Prop :=
  Pool.Watched (protocol codec) i c (Known codec start i c) P

/-- A step keeps what is known of the call. -/
lemma Follows.step {start : List Entry} {l : Label E}
    (ok : Pool.Ok (protocol codec) (Post codec) P) (h : Follows codec start i c P)
    (st : SystemStep codec (Within codec) P l P') : Follows codec start i c P' := by
  cases st with
  | step st => exact ok.watch h st
  | @reopen w reopens =>
    rcases h with ⟨p, at', meets⟩ | gone
    · -- a call that has returned keeps its result, the others are gone
      have known : ∀ x, p = .ofExcept x →
          Follows codec start i c ⟨w, fun j => cut (P.slots j)⟩ := by
        rintro x rfl
        refine .inl ⟨.ofExcept x, ?_, wp_ofExcept fun v rely inv => ?_⟩
        · show cut (P.slots i) = _
          rw [at']
          cases x <;> rfl
        · have now : Known codec start i c x P.world :=
            Pool.Watched.returned (.inl ⟨_, at', meets⟩) ok.inv at'
          exact (now.later (reopens.later i)).later (rely.kept inv.orderly).later
      cases p with
      | ret reply => exact known (.ok reply) rfl
      | raise f => exact known (.error f) rfl
      | op o k =>
        refine .inr ?_
        show cut (P.slots i) = _
        rw [at']
        rfl
    · refine .inr ?_
      show cut (P.slots i) = _
      rw [gone]
      rfl

/-- A call from its start on. -/
lemma follows_run (r : Run (SystemStep codec (Within codec)) (Pool.init .created) tr P)
    (r' : Run (SystemStep codec (Within codec)) P (.step (.call i c) :: tr') P') :
    Follows codec P.world.session.log i c P' := by
  have ok := system_ok r
  cases r' with
  | @cons _ _ P1 _ _ st r' =>
    have ok' := system_ok (r.snoc st)
    have follows : Follows codec P.world.session.log i c P1 := by
      cases st with
      | step st =>
        cases st with
        | call idle may =>
          refine .inl ⟨_, Function.update_self .., ?_⟩
          exact program_known ok.inv (ok.unused idle ok.inv.orderly) (List.prefix_refl _)
    refine (r'.invariant (I := fun Q => Pool.Ok (protocol codec) (Post codec) Q ∧
      Follows codec P.world.session.log i c Q) ?_ ⟨ok', follows⟩).2
    rintro Q l Q' ⟨ok, follows⟩ st
    refine ⟨?_, follows.step ok st⟩
    cases st with
    | step st => exact ok.step (fun _ inv fresh => program_meets inv (fresh inv.orderly)) st
    | reopen h => exact ok_reopen ok h

/-! ## The point at which a call takes effect -/

/-- The entry of a call has its place in the log, after all that was there before the call. -/
lemma exists_place {start log : List Entry} (sound : Sound codec log) (since : start <+: log)
    (new : entry ∉ start) (mem : entry ∈ log) (carries : Carries codec entry env) :
    ∃ before after, log = before ++ [entry] ++ after ∧ start <+: before ∧
      env.sequence.get = (streamOf codec env.aggregateId before).length + 1 := by
  obtain ⟨before, after, rfl⟩ := List.append_of_mem mem
  have split : before ++ entry :: after = before ++ [entry] ++ after := by simp
  refine ⟨before, after, split, ?_, ?_⟩
  · -- otherwise the entry would have been there at the start
    rcases Nat.lt_or_ge before.length start.length with lt | le
    · have upto : before ++ [entry] <+: start := by
        refine List.prefix_of_prefix_length_le (split ▸ List.prefix_append _ _) since ?_
        rw [List.length_append, List.length_singleton]
        exact lt
      exact absurd (upto.subset (List.mem_append_right _ (List.mem_singleton_self _))) new
    · exact List.prefix_of_prefix_length_le since (List.prefix_append _ _) le
  · have wf := (sound.of_prefix (split ▸ List.prefix_append (before ++ [entry]) after)).wellFormed
      env.aggregateId
    rw [carries.streamOf_concat] at wf
    exact wf.numbered _ _ List.getElem?_concat_length

/-- A successful call returns the envelope of its entry. -/
lemma Added.carried {n : Nat} (h : Added codec i id n ctx payload env w)
    (once : ownEntries i w = [] ∨
      ∃ entry env, ownEntries i w = [entry] ∧ Carries codec entry env ∧ Wants c env) :
    ∃ entry, ownEntries i w = [entry] ∧ entry ∈ w.session.log ∧ Carries codec entry env ∧
      Wants c env := by
  obtain ⟨before, entry, after, log, own, -, here, -⟩ := h.landed
  rcases once with none | ⟨entry', env', own', carries, wants⟩
  · cases none.symm.trans own
  · cases own'.symm.trans own
    rw [streamOf_append, List.append_cancel_left_eq, carries.streamOf_singleton] at here
    split at here
    · cases here
      exact ⟨entry, own, by simp [log], carries, wants⟩
    · cases here

/-- Call `i` took effect at one point of the log since it was `start`: its answer is the one of a
sequential store with the streams of that moment, and what it wrote is the next entry. -/
def TakesEffect (codec : Codec E) (start : List Entry) (i : Nat) (c : Call E)
    (x : Except Failure (Reply E)) (log : List Entry) : Prop :=
  ∃ before added after effect, log = before ++ added ++ after ∧ start <+: before ∧
    log.filter (·.writer = i) = added ∧ List.Forall₂ (Carries codec) added effect.toList ∧
    Serves (fun id => streamOf codec id before) c x effect

section Effect

variable {start log : List Entry} {x : Except Failure (Reply E)}

/-- A call that wrote nothing. -/
lemma TakesEffect.silent {seen : List Entry} (clean : log.filter (·.writer = i) = [])
    (pre : start <+: seen) (pre' : seen <+: log)
    (serves : Serves (fun id => streamOf codec id seen) c x none) :
    TakesEffect codec start i c x log := by
  obtain ⟨after, rfl⟩ := pre'
  exact ⟨seen, [], after, none, by simp, pre, clean, .nil, serves⟩

/-- A call that wrote an entry. -/
lemma TakesEffect.written (sound : Sound codec log) (since : start <+: log) (new : entry ∉ start)
    (own : log.filter (·.writer = i) = [entry]) (carries : Carries codec entry env)
    (serves : ∀ {streams : AggregateId → List (EventEnvelope E)},
      env.sequence.get = (streams env.aggregateId).length + 1 → Serves streams c x (some env)) :
    TakesEffect codec start i c x log := by
  have mem : entry ∈ log := List.mem_of_mem_filter (own ▸ List.mem_singleton_self entry)
  obtain ⟨before, after, split, pre, next⟩ := exists_place sound since new mem carries
  exact ⟨before, [entry], after, some env, split, pre, own, .cons carries .nil, serves next⟩

/-- What is logged of the entries of a caller. -/
lemma logged_own {l : List Entry} (own : ownEntries i w = l) :
    (w.session.log.filter (·.writer = i)).Sublist l := by
  subst own
  exact (List.prefix_append _ _).sublist.filter _

lemma Failed.unknown {f : Failure} (h : Failed i w f) (wrote : ownEntries i w ≠ []) :
    f.Unknown := by
  cases f with
  | panicked message => trivial
  | store e =>
    by_contra other
    exact wrote (h.2 other)

lemma Known.takesEffect (h : Known codec start i c x w) (asked : Asked codec i c w)
    (issued : Sound codec w.issued) (since : start <+: w.session.log)
    (new : ∀ entry ∈ start, entry.writer ≠ i) :
    TakesEffect codec start i c x w.session.log := by
  have sound : Sound codec w.session.log := issued.of_prefix (List.prefix_append _ _)
  have once := asked.cases
  have clean : ownEntries i w = [] → w.session.log.filter (·.writer = i) = [] :=
    fun own => List.sublist_nil.mp (logged_own own)
  have written : ∀ {entry env}, ownEntries i w = [entry] → entry ∈ w.session.log →
      Carries codec entry env → (∀ {streams : AggregateId → List (EventEnvelope E)},
        env.sequence.get = (streams env.aggregateId).length + 1 → Serves streams c x (some env)) →
      TakesEffect codec start i c x w.session.log := by
    intro entry env own mem carries serves
    have writer : entry.writer = i := by
      have mine : entry ∈ ownEntries i w := own ▸ List.mem_singleton_self entry
      exact of_decide_eq_true (List.mem_filter.mp mine).2
    have logged : w.session.log.filter (·.writer = i) = [entry] := by
      refine (logged_own own).antisymm (List.singleton_sublist.mpr ?_)
      exact List.mem_filter.mpr ⟨mem, decide_eq_true writer⟩
    exact .written sound since (fun there => new entry there writer) logged carries serves
  obtain ⟨post, timely⟩ := h
  cases timely with
  | loaded pre pre' =>
    rcases once with own | ⟨_, _, _, _, wants⟩
    · exact .silent (clean own) pre pre' .loaded
    · exact wants.elim
  | conflict pre pre' some' ne =>
    exact .silent (clean (post.2 (by rintro ⟨⟩))) pre pre' (.conflict some' ne)
  | @failed _ f plain =>
    have failed : Failed i w f := by cases c <;> exact post
    rcases once with own | ⟨entry, env, own, carries, wants⟩
    · exact .silent (clean own) since (List.prefix_refl _) (.refused plain)
    · by_cases mem : entry ∈ w.session.log
      · exact written own mem carries fun next => .lost (failed.unknown (by simp [own])) wants next
      · -- the entry may have been on its way and is not there
        refine .silent ?_ since (List.prefix_refl _) (.refused plain)
        rw [List.filter_eq_nil_iff]
        intro other there mine
        have among : other ∈ ownEntries i w :=
          List.mem_filter.mpr ⟨List.mem_append_left _ there, mine⟩
        rw [own, List.mem_singleton] at among
        exact mem (among ▸ there)
  | @created events ctx reply =>
    cases reply with
    | loaded _ => exact post.elim
    | appended _ => exact post.elim
    | created id envs =>
      obtain ⟨payload, env, rfl, rfl, added⟩ := post
      obtain ⟨entry, own, mem, carries, wants⟩ := added.carried once
      refine written own mem carries fun next => ?_
      rw [← added.aggregateId]
      exact .created wants next
  | @appended id expected events ctx reply =>
    cases reply with
    | loaded _ => exact post.elim
    | created _ _ => exact post.elim
    | appended envs =>
      obtain ⟨rfl, rfl, own⟩ | ⟨payload, env, rfl, rfl, added⟩ := post
      · exact .silent (clean own) since (List.prefix_refl _) .nothing
      obtain ⟨entry, own, mem, carries, wants⟩ := added.carried once
      exact written own mem carries fun next => .appended wants next

/-- A call that has returned while ids are left took effect. -/
lemma returned_takesEffect (r : Run (SystemStep codec (Performs codec)) (Pool.init .created) tr P)
    (r' : Run (SystemStep codec (Performs codec)) P (.step (.call i c) :: tr') P')
    (few : P'.world.allocs.length < 2 ^ 64 - 1) (returned : P'.slots i = .run c (.ofExcept x)) :
    TakesEffect codec P.world.session.log i c x P'.world.session.log := by
  have within := run_within r ((allocs_mono r').trans_lt few)
  have ok := system_ok within
  have ok' := system_ok (run_within (r.append r') few)
  have known : Known codec P.world.session.log i c x P'.world :=
    (follows_run within (run_within r' few)).returned ok'.inv returned
  have idle : P.slots i = .idle := by
    cases r' with
    | cons st _ =>
      cases st with
      | step st =>
        cases st with
        | call idle _ => exact idle
  have asked : Asked codec i c P'.world := by
    have sources := (sourced_run (r.append r')).slots i
    rw [returned] at sources
    exact sources.asked
  refine known.takesEffect asked ok'.inv.sound (log_mono r') ?_
  -- at the start of the call there was nothing of it
  intro entry mem writer
  have own : entry ∈ ownEntries i P.world :=
    List.mem_filter.mpr ⟨List.mem_append_left _ mem, decide_eq_true writer⟩
  rw [ok.unused idle ok.inv.orderly] at own
  cases own

end Effect

/-- Every call that has returned took effect at one point of the log, since it was made: its answer
is the one of a sequential store with the streams of that moment, and what it wrote, if anything, is
the next entry. A call that did not learn its outcome wrote once or not at all. -/
theorem linearizable {P P' : Calls E} {tr tr' : List (Label E)} {i : Nat} {c : Call E}
    {x : Except Failure (Reply E)}
    (r : Run (SystemStep codec (Performs codec)) (Pool.init .created) tr P)
    (r' : Run (SystemStep codec (Performs codec)) P (.step (.call i c) :: tr') P')
    (few : ((tr ++ .step (.call i c) :: tr').filterMap Label.creator).length < 2 ^ 64 - 1)
    (returned : P'.slots i = .run c (.ofExcept x)) :
    TakesEffect codec P.world.session.log i c x P'.world.session.log :=
  returned_takesEffect r r' ((allocs_le (r.append r')).trans_lt few) returned

/-- An aggregate is created in a new store: the call takes effect. -/
theorem linearizable_created : ∃ tr P env,
    Run (SystemStep unitCodec (Performs unitCodec)) (Pool.init .created)
      (.step (.call 0 (.create [()] ⟨none, none⟩)) :: tr) P ∧
    P.slots 0 = .run (.create [()] ⟨none, none⟩) (.ret (.created ⟨.min⟩ [env])) ∧
    TakesEffect unitCodec [] 0 (.create [()] ⟨none, none⟩) (.ok (.created ⟨.min⟩ [env]))
      P.world.session.log := by
  obtain ⟨w, entry, env, ex, -⟩ := create_alone (unitCodec_fits ()) ⟨none, none⟩
  obtain ⟨tr, run, none'⟩ := run_first ex
  refine ⟨tr, _, _, run, rfl, ?_⟩
  refine linearizable .nil run ?_ rfl
  simp only [List.nil_append, List.filterMap_cons, Label.creator, none']
  decide

end CherryPit.Pgno
