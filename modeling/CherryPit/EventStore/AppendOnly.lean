import CherryPit.EventStore.InMemory

/-!
# The in-memory store is append-only and optimistic

`Effect` is what a call can do: it leaves the streams alone, starts one under the next id, or
extends one whose last sequence was expected. From it follow the invariant of all histories
(`Valid`), that streams only grow, and that at most one append wins at each sequence. The store also
does no more than the contract of the port allows (`implements_step`).
-/

namespace CherryPit.InMemory

open Conc Store Function

variable {E : Type} {s s' : EventStoreState E} {clock : Clock} {tr tr' : List (Done E)}
  {stream envs : List (EventEnvelope E)} {answer : Except StoreError (Reply E)}
  {ctx : CorrelationContext} {events : List E} {expected : NonZeroU64} {env : EventEnvelope E}
  {c : Call E} {d : Done E} {t : Store E}

/-- What a call does. -/
inductive Effect (s : EventStoreState E) (clock : Clock) :
    Call E → Except StoreError (Reply E) → EventStoreState E → Prop where
  | loaded {id} :
    Effect s clock (.load id) ((load s id).map .loaded) s
  | refused {c e} :
    Effect s clock c (.error e) s
  -- the id was taken before the envelopes could not be built
  | burnt {events ctx e next} :
    next.get = s.nextId.get + 1 →
    Effect s clock (.create events ctx) (.error e) { s with nextId := next }
  | nothing {id expected ctx} :
    Effect s clock (.append id expected [] ctx) (.ok (.appended [])) s
  | created {events ctx envs next} :
    events ≠ [] →
    Built ⟨s.nextId⟩ 0 ctx clock 0 events envs →
    next.get = s.nextId.get + 1 →
    Effect s clock (.create events ctx) (.ok (.created ⟨s.nextId⟩ envs))
      ⟨update s.streams ⟨s.nextId⟩ (some envs), next⟩
  | appended {id expected events ctx stream envs} :
    events ≠ [] →
    s.streams id = some stream →
    lastSequence stream = expected.get →
    Built id expected.get ctx clock 0 events envs →
    Effect s clock (.append id expected events ctx) (.ok (.appended envs))
      { s with streams := update s.streams id (some (stream ++ envs)) }

lemma create_effect (fresh : Fresh s clock events.length) :
    Effect s clock (.create events ctx)
      (perform s clock (.create events ctx)).2 (perform s clock (.create events ctx)).1 := by
  simp only [perform, create]
  split_ifs with empty fits
  · exact .refused
  · rcases buildFrom_spec ⟨s.nextId⟩ 0 ctx events fresh.drawn (by decide) with
      ⟨envs, e, built, -⟩ | ⟨e, -⟩
    · simp only [buildEnvelopes, e]
      exact .created empty built rfl
    · simp only [buildEnvelopes, e]
      exact .burnt rfl
  · exact .refused

variable {id : AggregateId}

lemma append_effect (fresh : Fresh s clock events.length) :
    Effect s clock (.append id expected events ctx)
      (perform s clock (.append id expected events ctx)).2
      (perform s clock (.append id expected events ctx)).1 := by
  simp only [perform, append]
  split_ifs with empty
  · subst empty
    exact .nothing
  · rcases at' : s.streams id with _ | stream
    · exact .refused
    · dsimp only
      split_ifs with conflict
      · exact .refused
      · rw [not_not] at conflict
        rcases buildFrom_spec id expected.get ctx events fresh.drawn expected.lt with
          ⟨envs, e, built, -⟩ | ⟨e, -⟩
        · simp only [buildEnvelopes, e]
          exact .appended empty at' conflict built
        · simp only [buildEnvelopes, e]
          exact .refused

lemma perform_effect (fresh : Fresh s clock c.events.length) :
    Effect s clock c (perform s clock c).2 (perform s clock c).1 := by
  cases c with
  | load id => exact .loaded
  | create events ctx => exact create_effect fresh
  | append id expected events ctx => exact append_effect fresh

lemma StoreStep.effect (st : StoreStep s d s') :
    ∃ clock, Fresh s clock d.call.events.length ∧ Effect s clock d.call d.answer s' := by
  cases st with
  | @call c clock fresh => exact ⟨clock, fresh, perform_effect fresh⟩

/-! ## The invariant -/

/-- Every stream is well formed and not empty, ids come from the counter, and no identity is used in
two streams. -/
structure Valid (s : EventStoreState E) : Prop where
  wellFormed : ∀ id stream, s.streams id = some stream → EventEnvelope.WellFormed id stream
  nonempty : ∀ id, s.streams id ≠ some []
  below : ∀ id stream, s.streams id = some stream → id.get < s.nextId.get
  distinct : ∀ id id' stream stream', s.streams id = some stream → s.streams id' = some stream' →
    ∀ env ∈ stream, ∀ env' ∈ stream', env.eventId = env'.eventId → id = id'

lemma Valid.new : Valid (.new : EventStoreState E) :=
  ⟨by simp [EventStoreState.new], by simp [EventStoreState.new], by simp [EventStoreState.new],
    by simp [EventStoreState.new]⟩

/-- The sequence that an append has to expect is the number of envelopes. -/
lemma Valid.lastSequence_eq (valid : Valid s) (at' : s.streams id = some stream) :
    lastSequence stream = stream.length :=
  (valid.wellFormed id stream at').lastSequence

/-- The identities of a batch. -/
lemma Built.mem {start : Nat} (built : Built id start ctx clock 0 events envs) (mem : env ∈ envs) :
    ∃ i < events.length, env.eventId = clock.uuid i := by
  have drawn := List.mem_map_of_mem (f := (·.eventId)) mem
  rw [built.drawn, List.mem_map] at drawn
  obtain ⟨i, mem, e⟩ := drawn
  rw [List.mem_range'_1] at mem
  exact ⟨i, by omega, e.symm⟩

/-- A stream that holds something is in the store. -/
lemma streams_of_mem (old : (s.streams id).getD [] = stream) (mem : env ∈ stream) :
    s.streams id = some stream := by
  rcases at' : s.streams id with _ | stream'
  · rw [at'] at old
    cases old
    cases mem
  · rw [at'] at old
    exact congrArg some old

/-- A batch goes at the end of the stream that it was built for. -/
lemma Built.extends (fresh : Fresh s clock events.length)
    (wf : EventEnvelope.WellFormed id stream) (old : (s.streams id).getD [] = stream)
    (built : Built id stream.length ctx clock 0 events envs) :
    EventEnvelope.WellFormed id (stream ++ envs) := by
  refine wf.append ?_ ?_ ?_ (fun env => built.stamped.owned) ?_
  · intro env mem
    obtain ⟨i, lt, e⟩ := built.mem mem
    rw [e]
    exact fresh.named i lt
  · rw [built.drawn]
    refine List.Nodup.map_on ?_ List.nodup_range'
    intro i mem j mem' e
    rw [List.mem_range'_1] at mem mem'
    exact fresh.distinct i (by omega) j (by omega) e
  · intro env mem env' mem'
    obtain ⟨i, lt, e⟩ := built.mem mem
    rw [e]
    exact (fresh.unused i lt id stream (streams_of_mem old mem') env' mem').symm
  · intro n env at'
    have number := built.stamped.numbered at'
    omega

/-- Writing a stream that has only grown by fresh envelopes keeps the invariant. -/
lemma Valid.write (valid : Valid s) (fresh : Fresh s clock events.length)
    (old : (s.streams id).getD [] = stream) (some' : events ≠ [])
    (built : Built id stream.length ctx clock 0 events envs)
    (written : s'.streams = update s.streams id (some (stream ++ envs)))
    (le : s.nextId.get ≤ s'.nextId.get) (lt : id.get < s'.nextId.get) : Valid s' := by
  have wf : EventEnvelope.WellFormed id stream := by
    cases stream with
    | nil => exact .nil
    | cons first rest => exact valid.wellFormed id _ (streams_of_mem old List.mem_cons_self)
  -- an envelope of the written stream that stands in another one too is not a new one
  have other : ∀ id' stream', id' ≠ id → s.streams id' = some stream' → ∀ env ∈ stream ++ envs,
      ∀ env' ∈ stream', env.eventId ≠ env'.eventId := by
    intro id' stream' ne at' env mem env' mem' e
    rcases List.mem_append.mp mem with mem | mem
    · have here := streams_of_mem old mem
      exact ne (valid.distinct id id' stream stream' here at' env mem env' mem' e).symm
    · obtain ⟨i, lt, drawn⟩ := built.mem mem
      exact fresh.unused i lt id' stream' at' env' mem' (e.symm.trans drawn)
  refine ⟨?_, ?_, ?_, ?_⟩
  · intro id' stream' at'
    rcases eq_or_ne id' id with rfl | ne
    · rw [written, update_self] at at'
      cases at'
      exact built.extends fresh wf old
    · rw [written, update_of_ne ne] at at'
      exact valid.wellFormed id' stream' at'
  · intro id'
    rcases eq_or_ne id' id with rfl | ne
    · rw [written, update_self]
      have payloads := built.stamped.payloads
      rintro e
      rw [(List.append_eq_nil_iff.mp (Option.some.inj e)).2] at payloads
      exact some' payloads.symm
    · rw [written, update_of_ne ne]
      exact valid.nonempty id'
  · intro id' stream' at'
    rcases eq_or_ne id' id with rfl | ne
    · exact lt
    · rw [written, update_of_ne ne] at at'
      exact (valid.below id' stream' at').trans_le le
  · intro id1 id2 stream1 stream2 at1 at2 env mem env' mem' e
    rcases eq_or_ne id1 id with here1 | ne1 <;> rcases eq_or_ne id2 id with here2 | ne2
    · rw [here1, here2]
    · rw [written, here1, update_self] at at1
      rw [written, update_of_ne ne2] at at2
      cases at1
      exact (other id2 stream2 ne2 at2 env mem env' mem' e).elim
    · rw [written, update_of_ne ne1] at at1
      rw [written, here2, update_self] at at2
      cases at2
      exact (other id1 stream1 ne1 at1 env' mem' env mem e.symm).elim
    · rw [written, update_of_ne ne1] at at1
      rw [written, update_of_ne ne2] at at2
      exact valid.distinct id1 id2 stream1 stream2 at1 at2 env mem env' mem' e

/-- The id that the counter gives out is not in use. -/
lemma Valid.next (valid : Valid s) : s.streams ⟨s.nextId⟩ = none := by
  rcases at' : s.streams ⟨s.nextId⟩ with _ | stream
  · rfl
  · exact absurd (valid.below _ stream at') (lt_irrefl _)

/-- A call leaves the streams alone or puts a batch at the end of one. -/
lemma Effect.writes (valid : Valid s) (ef : Effect s clock c answer s') : s'.streams = s.streams ∨
    ∃ id stream ctx envs, (s.streams id).getD [] = stream ∧ ctx ∈ c.context ∧
      Built id stream.length ctx clock 0 c.events envs ∧
      s'.streams = update s.streams id (some (stream ++ envs)) := by
  cases ef with
  | loaded => exact .inl rfl
  | refused => exact .inl rfl
  | burnt => exact .inl rfl
  | nothing => exact .inl rfl
  | @created events ctx envs next _ built _ =>
    refine .inr ⟨⟨s.nextId⟩, [], ctx, envs, ?_, rfl, built, rfl⟩
    rw [valid.next]
    rfl
  | @appended id expected events ctx stream envs _ here last built =>
    rw [← last, valid.lastSequence_eq here] at built
    refine .inr ⟨id, stream, ctx, envs, ?_, rfl, built, rfl⟩
    rw [here]
    rfl

/-- What is in a stream was there or carries an identity of the call. -/
lemma Effect.drawn (valid : Valid s) (ef : Effect s clock c answer s')
    (at' : s'.streams id = some stream) (mem : env ∈ stream) :
    (∃ i, env.eventId = clock.uuid i) ∨ ∃ old, s.streams id = some old ∧ env ∈ old := by
  rcases ef.writes valid with same | ⟨id', old, ctx, envs, was, -, built, written⟩
  · rw [same] at at'
    exact .inr ⟨stream, at', mem⟩
  · rw [written] at at'
    rcases eq_or_ne id id' with rfl | ne
    · rw [update_self] at at'
      cases at'
      rcases List.mem_append.mp mem with mem | mem
      · exact .inr ⟨old, streams_of_mem was mem, mem⟩
      · obtain ⟨i, -, e⟩ := built.mem mem
        exact .inl ⟨i, e⟩
    · rw [update_of_ne ne] at at'
      exact .inr ⟨stream, at', mem⟩

lemma Valid.effect (valid : Valid s) (fresh : Fresh s clock c.events.length)
    (ef : Effect s clock c answer s') : Valid s' := by
  cases ef with
  | loaded => exact valid
  | nothing => exact valid
  | refused => exact valid
  | burnt counts =>
    refine ⟨valid.wellFormed, valid.nonempty, ?_, valid.distinct⟩
    intro id stream at'
    exact (valid.below id stream at').trans_le (by simp only; omega)
  | @created events ctx envs next some' built counts =>
    have old : (s.streams ⟨s.nextId⟩).getD [] = [] := by
      rw [valid.next]
      rfl
    exact valid.write fresh old some' built rfl (by simp only; omega)
      (by simp only [AggregateId.get]; omega)
  | @appended id expected events ctx stream envs some' at' last built =>
    have old : (s.streams id).getD [] = stream := by
      rw [at']
      rfl
    rw [← last, valid.lastSequence_eq at'] at built
    exact valid.write fresh old some' built rfl le_rfl (valid.below id stream at')

lemma Valid.run (valid : Valid s) (r : Run StoreStep s tr s') : Valid s' := by
  refine r.invariant (fun valid st => ?_) valid
  obtain ⟨clock, fresh, ef⟩ := st.effect
  exact valid.effect fresh ef

/-! ## Histories -/

/-- Streams only grow, at their end. -/
def Grows (s s' : EventStoreState E) : Prop :=
  ∀ id stream, s.streams id = some stream →
    ∃ stream', s'.streams id = some stream' ∧ stream <+: stream'

lemma Grows.refl (s : EventStoreState E) : Grows s s :=
  fun _ stream at' => ⟨stream, at', List.prefix_rfl⟩

lemma Grows.trans {s'' : EventStoreState E} (h : Grows s s') (h' : Grows s' s'') : Grows s s'' := by
  intro id stream at'
  obtain ⟨stream', at2, pre⟩ := h id stream at'
  obtain ⟨stream'', at3, pre'⟩ := h' id stream' at2
  exact ⟨stream'', at3, pre.trans pre'⟩

lemma Effect.grows (valid : Valid s) (ef : Effect s clock c answer s') : Grows s s' := by
  intro id stream at'
  rcases ef.writes valid with same | ⟨id', old, ctx, envs, was, -, -, written⟩
  · exact ⟨stream, same ▸ at', List.prefix_rfl⟩
  · rw [written]
    rcases eq_or_ne id id' with rfl | ne
    · rw [at'] at was
      cases was
      exact ⟨stream ++ envs, update_self .., List.prefix_append ..⟩
    · exact ⟨stream, (update_of_ne ne ..).trans at', List.prefix_rfl⟩

lemma Valid.grows (valid : Valid s) (r : Run StoreStep s tr s') : Grows s s' := by
  suffices both : Valid s' ∧ Grows s s' from both.2
  refine r.invariant (I := fun t => Valid t ∧ Grows s t) ?_ ⟨valid, .refl s⟩
  rintro t d t' ⟨valid, grows⟩ st
  obtain ⟨clock, fresh, ef⟩ := st.effect
  exact ⟨valid.effect fresh ef, grows.trans (ef.grows valid)⟩

/-- The answer to an append and what it does. -/
structure Appends (s : EventStoreState E) (id : AggregateId) (expected : NonZeroU64)
    (events : List E) (ctx : CorrelationContext) (answer : Except StoreError (Reply E))
    (s' : EventStoreState E) : Prop where
  succeeds : (∃ reply, answer = .ok reply) ↔ events = [] ∨
    ∃ stream last, s.streams id = some stream ∧ stream.getLast? = some last ∧
      last.sequence = expected ∧ expected.get + events.length < 2 ^ 64
  adds : ∀ reply, answer = .ok reply → events ≠ [] →
    ∃ stream envs, s.streams id = some stream ∧ reply = .appended envs ∧
      Stamped id stream.length ctx events envs ∧
      s'.streams = update s.streams id (some (stream ++ envs))

/-- When the batch is built, in terms of the stream. -/
lemma Valid.getLast?_iff (valid : Valid s) (at' : s.streams id = some stream) :
    (∃ last, stream.getLast? = some last ∧ last.sequence = expected) ↔
      lastSequence stream = expected.get := by
  rcases last : stream.getLast? with _ | env
  · rw [List.getLast?_eq_none_iff.mp last] at at'
    exact absurd at' (valid.nonempty id)
  · simp only [lastSequence, last, Option.elim_some, Option.some.injEq, exists_eq_left',
      NonZeroU64.ext_iff]

lemma StoreStep.appends (valid : Valid s)
    (st : StoreStep s ⟨.append id expected events ctx, answer⟩ s') :
    Appends s id expected events ctx answer s' := by
  generalize made : (⟨.append id expected events ctx, answer⟩ : Done E) = d at st
  cases st with
  | @call c clock fresh =>
    injection made with e e'
    subst e
    rw [e']
    constructor
    · simp only [perform, append]
      split_ifs with empty
      · exact iff_of_true ⟨_, rfl⟩ (.inl empty)
      simp only [empty, false_or]
      rcases at' : s.streams id with _ | stream
      · refine iff_of_false (by rintro ⟨reply, ⟨⟩⟩) ?_
        rintro ⟨stream, last, ⟨⟩, -⟩
      have last : (∃ stream' last, some stream = some stream' ∧ stream'.getLast? = some last ∧
          last.sequence = expected ∧ expected.get + events.length < 2 ^ 64) ↔
          lastSequence stream = expected.get ∧ expected.get + events.length < 2 ^ 64 := by
        rw [← valid.getLast?_iff at']
        constructor
        · rintro ⟨_, last, ⟨⟩, at2, e, room⟩
          exact ⟨⟨last, at2, e⟩, room⟩
        · rintro ⟨⟨last, at2, e⟩, room⟩
          exact ⟨stream, last, rfl, at2, e, room⟩
      rw [last]
      dsimp only
      split_ifs with conflict
      · exact iff_of_false (by rintro ⟨reply, ⟨⟩⟩) fun h => conflict h.1
      rw [not_not] at conflict
      rcases buildFrom_spec id expected.get ctx events (Fresh.drawn fresh) expected.lt with
        ⟨envs, e, -, room⟩ | ⟨e, full⟩
      · simp only [buildEnvelopes, e]
        exact iff_of_true ⟨_, rfl⟩ ⟨conflict, room⟩
      · simp only [buildEnvelopes, e]
        exact iff_of_false (by rintro ⟨reply, ⟨⟩⟩) fun h => by omega
    · intro reply ok some'
      have ef := perform_effect fresh
      rw [ok] at ef
      generalize (perform s clock (.append id expected events ctx)).1 = s' at ef
      cases ef with
      | nothing => exact absurd rfl some'
      | @appended _ _ _ _ stream envs _ at' last built =>
        rw [← last, valid.lastSequence_eq at'] at built
        exact ⟨stream, envs, at', rfl, built.stamped, rfl⟩

/-- The call is an append of some events here that has succeeded. -/
def Done.appendedAt (id : AggregateId) (expected : NonZeroU64) : Done E → Bool
  | ⟨.append id' expected' (_ :: _) _, .ok _⟩ => decide (id' = id) && decide (expected' = expected)
  | _ => false

/-- An append that has succeeded is in the stream. -/
lemma appendedAt_lt (valid : Valid s) (st : StoreStep s d s')
    (won : d.appendedAt id expected = true) :
    lastSequence ((s.streams id).getD []) = expected.get ∧
      expected.get < ((s'.streams id).getD []).length := by
  obtain ⟨c, answer⟩ := d
  unfold Done.appendedAt at won
  split at won
  · rename_i id' expected' event rest ctx reply made
    cases made
    simp only [Bool.and_eq_true, decide_eq_true_eq] at won
    obtain ⟨rfl, rfl⟩ := won
    obtain ⟨clock, fresh, ef⟩ := st.effect
    cases ef with
    | @appended _ _ _ _ stream envs some' at' last built =>
      have payloads := congrArg List.length built.stamped.payloads
      rw [← last, valid.lastSequence_eq at']
      simp only [at', Option.getD_some, update_self, List.length_append,
        valid.lastSequence_eq at', true_and]
      simp only [List.length_map, List.length_cons] at payloads
      omega
  · cases won

/-- At most one append of some events succeeds at each sequence. -/
lemma appendedAt_once (r : Run StoreStep .new tr s) (id : AggregateId) (expected : NonZeroU64) :
    (tr.filter (Done.appendedAt id expected)).length ≤ 1 ∧
      (tr.filter (Done.appendedAt id expected) ≠ [] →
        expected.get < ((s.streams id).getD []).length) := by
  refine r.snocInduction (motive := fun tr s =>
    (tr.filter (Done.appendedAt id expected)).length ≤ 1 ∧
    (tr.filter (Done.appendedAt id expected) ≠ [] →
      expected.get < ((s.streams id).getD []).length)) (by simp) ?_
  intro tr s d s' r st ih
  have valid := Valid.new.run r
  obtain ⟨most, past⟩ := ih
  rw [List.filter_append]
  rcases won : d.appendedAt id expected with _ | _
  · simp only [List.filter_singleton, won, cond_false, List.append_nil]
    refine ⟨most, fun some' => (past some').trans_le ?_⟩
    have grows := valid.grows (.cons st .nil)
    rcases at' : s.streams id with _ | stream
    · simp
    · obtain ⟨stream', at2, pre⟩ := grows id stream at'
      rw [at2]
      exact pre.length_le
  · -- the sequence was the last one, so that nobody can have won before
    obtain ⟨last, past'⟩ := appendedAt_lt valid st won
    have none : tr.filter (Done.appendedAt id expected) = [] := by
      by_contra some'
      have lt := past some'
      rcases at' : s.streams id with _ | stream
      · rw [at'] at lt
        simp at lt
      · rw [at', Option.getD_some] at lt last
        rw [valid.lastSequence_eq at'] at last
        omega
    simp only [none, List.filter_singleton, won, cond_true, List.nil_append]
    exact ⟨le_rfl, fun _ => past'⟩

/-- The store is append-only with optimistic concurrency, in every history. -/
theorem append_only_optimistic (r : Run StoreStep (.new : EventStoreState E) tr s) :
    (∀ id stream, s.streams id = some stream →
      EventEnvelope.validateStream id stream = .ok () ∧ id.get < s.nextId.get) ∧
    (∀ id id' stream stream' (n n' : Nat) (env env' : EventEnvelope E), s.streams id = some stream →
      s.streams id' = some stream' → stream[n]? = some env → stream'[n']? = some env' →
      env.eventId = env'.eventId → id = id' ∧ n = n') ∧
    (∀ tr' s', Run StoreStep s tr' s' → Grows s s') ∧
    (∀ id expected events ctx answer s',
      StoreStep s ⟨.append id expected events ctx, answer⟩ s' →
        Appends s id expected events ctx answer s') ∧
    (∀ id expected, (tr.filter (Done.appendedAt id expected)).length ≤ 1) ∧
    (∀ c e s', StoreStep s ⟨c, .error e⟩ s' → s'.streams = s.streams) := by
  have valid := Valid.new.run r
  refine ⟨?_, ?_, fun _ _ r' => valid.grows r', fun _ _ _ _ _ _ st => st.appends valid,
    fun id expected => (appendedAt_once r id expected).1, ?_⟩
  · intro id stream at'
    exact ⟨(valid.wellFormed id stream at').validateStream, valid.below id stream at'⟩
  · intro id id' stream stream' n n' env env' at' at2 here here' e
    obtain rfl := valid.distinct id id' stream stream' at' at2 env (List.mem_of_getElem? here)
      env' (List.mem_of_getElem? here') e
    cases at'.symm.trans at2
    refine ⟨rfl, ?_⟩
    have nodup := (valid.wellFormed id stream at').distinct
    refine (List.getElem?_inj ?_ nodup).mp ?_
    · rw [List.length_map]
      exact (List.getElem?_eq_some_iff.mp here).1
    · simp [here, here', e]
  · intro c e s' st
    obtain ⟨clock, fresh, ef⟩ := st.effect
    generalize failed : Except.error e = answer at ef
    cases ef with
    | loaded => rfl
    | refused => rfl
    | burnt => rfl
    | nothing => cases failed
    | created => cases failed
    | appended => cases failed

/-- The state that a state of the store implements. -/
structure Implements (s : EventStoreState E) (t : Store E) : Prop where
  streams : ∀ id, t.streams id = (s.streams id).getD []
  nextId : t.nextId = s.nextId.get

/-- What the contract of the port says of a call. -/
inductive Contract (faults : Prop) (t : Store E) :
    Call E → Except StoreError (Reply E) → Store E → Prop where
  | load {id r} :
    Load faults t id r →
    Contract faults t (.load id) (r.map .loaded) t
  | create {events ctx t' envs r} :
    Create faults t events ctx t' envs r →
    Contract faults t (.create events ctx) (r.map fun x => .created x.1 x.2) t'
  | append {id expected events ctx t' envs r} :
    Append faults t id expected events ctx t' envs r →
    Contract faults t (.append id expected events ctx) (r.map .appended) t'

lemma Valid.load_eq (valid : Valid s) (id : AggregateId) :
    load s id = .ok ((s.streams id).getD []) := by
  have accepted : EventEnvelope.validateStream id ((s.streams id).getD []) = .ok () := by
    rcases at' : s.streams id with _ | stream
    · rfl
    · exact (valid.wellFormed id stream at').validateStream
  rw [load, accepted]

/-- Writing a stream in both. -/
lemma Implements.write {t' : Store E} (imp : Implements s t) (old : (s.streams id).getD [] = stream)
    (written : s'.streams = update s.streams id (some (stream ++ envs)))
    (written' : t'.streams = update t.streams id (t.streams id ++ envs))
    (next : t'.nextId = s'.nextId.get) : Implements s' t' := by
  refine ⟨?_, next⟩
  intro id'
  rw [written, written']
  rcases eq_or_ne id' id with rfl | ne
  · rw [update_self, update_self, imp.streams, old, Option.getD_some]
  · rw [update_of_ne ne, update_of_ne ne, imp.streams]

/-- The store does what the contract of the port allows. -/
lemma implements_step (valid : Valid s) (imp : Implements s t) (st : StoreStep s d s') :
    ∃ t', Contract True t d.call d.answer t' ∧ Implements s' t' := by
  obtain ⟨clock, fresh, ef⟩ := st.effect
  obtain ⟨c, answer⟩ := d
  cases ef with
  | loaded =>
    rw [valid.load_eq, ← imp.streams]
    exact ⟨t, .load .ok, imp⟩
  | refused =>
    cases c with
    | load id => exact ⟨t, .load (.fault trivial), imp⟩
    | create events ctx => exact ⟨t, .create (.fault trivial), imp⟩
    | append id expected events ctx => exact ⟨t, .append (.fault trivial), imp⟩
  | burnt counts =>
    refine ⟨t.burn, .create (.burnt trivial), imp.streams, ?_⟩
    rw [counts, ← imp.nextId]
    rfl
  | nothing => exact ⟨t, .append (.nothing rfl), imp⟩
  | created some' built counts =>
    have h : AggregateId.get ⟨s.nextId⟩ = t.nextId := imp.nextId.symm
    have old : (s.streams ⟨s.nextId⟩).getD [] = [] := by
      rw [valid.next]
      rfl
    refine ⟨_, .create (.ok built.stamped h some'), imp.write old rfl rfl ?_⟩
    rw [counts, ← imp.nextId]
    rfl
  | @appended id expected events ctx stream envs some' at' last built =>
    have old : (s.streams id).getD [] = stream := by
      rw [at']
      rfl
    have same : t.streams id = stream := (imp.streams id).trans old
    obtain ⟨env, here, e⟩ := (valid.getLast?_iff at').mpr last
    rw [← last, valid.lastSequence_eq at'] at built
    have stamped : Stamped id (t.streams id).length ctx events envs := by
      rw [same]
      exact built.stamped
    refine ⟨_, .append (.ok stamped (same ▸ here) some' e), imp.write old rfl rfl imp.nextId⟩

/-- A call that draws one identity. -/
lemma Fresh.one {now : Timestamp} {u : Uuid} (named : u ≠ 0)
    (unused : ∀ id stream, s.streams id = some stream → ∀ env ∈ stream, env.eventId ≠ u) :
    Fresh s ⟨now, fun _ => u⟩ 1 :=
  ⟨fun _ _ => named, fun _ _ _ _ _ => by omega, fun _ _ => unused⟩

/-- The first envelope of the concrete runs. -/
def firstEnvelope : EventEnvelope Unit := ⟨1, ⟨.min⟩, .min, 0, none, none, ()⟩

/-- An aggregate is created and an event appended: no other append at that sequence succeeds. -/
theorem append_only_optimistic_two : ∃ tr s, Run StoreStep (.new : EventStoreState Unit) tr s ∧
    tr.map Done.call = [.create [()] ⟨none, none⟩, .append ⟨.min⟩ .min [()] ⟨none, none⟩] ∧
    tr.filter (Done.appendedAt ⟨.min⟩ .min) ≠ [] ∧
    (tr.filter (Done.appendedAt ⟨.min⟩ .min)).length ≤ 1 := by
  have first : Fresh (.new : EventStoreState Unit) ⟨0, fun _ => 1⟩ 1 :=
    .one (by decide) (by rintro id stream ⟨⟩)
  have created : StoreStep (.new : EventStoreState Unit) _
      ⟨update (fun _ => none) ⟨.min⟩ (some [firstEnvelope]), _⟩ :=
    .call (c := .create [()] ⟨none, none⟩) first
  have second : Fresh (E := Unit)
      ⟨update (fun _ => none) ⟨.min⟩ (some [firstEnvelope]), ⟨2, by decide, by decide⟩⟩
      ⟨0, fun _ => 2⟩ 1 := by
    refine .one (by decide) ?_
    intro id stream at'
    simp only at at'
    rcases eq_or_ne id ⟨.min⟩ with rfl | ne
    · rw [update_self] at at'
      cases at'
      simp [firstEnvelope]
    · rw [update_of_ne ne] at at'
      cases at'
  have r := Run.cons created
    (.cons (.call (c := .append ⟨.min⟩ .min [()] ⟨none, none⟩) second) .nil)
  refine ⟨_, _, r, rfl, ?_, (append_only_optimistic r).2.2.2.2.1 _ _⟩
  simp only [List.filter]
  decide

end CherryPit.InMemory
