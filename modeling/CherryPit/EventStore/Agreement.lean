import CherryPit.EventStore.AppendOnly
import CherryPit.EventStore.PgnoReliable

/-!
# The two event stores agree

The in-memory store and the durable store side by side: one sequence of calls with at most one event
each is made to both, the durable store over a substrate that does not fail. `Agree` relates their
states. Every call returns from both, and with the same result, except for event ids, timestamps and
the texts of errors, as long as it does not ask for the last aggregate id or for a sequence after
the last one (`stores_agree`).

There the stores differ. The in-memory store keeps its next id in a `NonZeroU64` and refuses to give
out `2^64 - 1`, which the durable store gives out; and it refuses a sequence that the durable store
panics over.
-/

namespace CherryPit.Pgno

open Conc Store Function
open InMemory (EventStoreState Clock Fresh Valid perform)

variable {E : Type} {codec : Codec E} {s s' : EventStoreState E} {w w' : World} {i : Nat}
  {order : List Entry → List Entry} {u : Uuid} {t : Timestamp} {clock : Clock}
  {ctx : CorrelationContext} {stream : List (EventEnvelope E)} {payload : E} {entry : Entry}
  {c : Call E} {n : Nat}

/-! ## Results -/

/-- Envelopes that are the same except for event id and timestamp. -/
structure Alike (a b : EventEnvelope E) : Prop where
  aggregateId : a.aggregateId = b.aggregateId
  sequence : a.sequence = b.sequence
  correlationId : a.correlationId = b.correlationId
  causationId : a.causationId = b.causationId
  payload : a.payload = b.payload

/-- Errors of one variant, with the same fields if it is a conflict. -/
def SameError : StoreError → StoreError → Prop
  | .indeterminate _, .indeterminate _ => True
  | .concurrencyConflict id expected actual, .concurrencyConflict id' expected' actual' =>
    id = id' ∧ expected = expected' ∧ actual = actual'
  | .storeLocked _, .storeLocked _ => True
  | .corruptData _, .corruptData _ => True
  | .infrastructure _, .infrastructure _ => True
  | .joinFailure _, .joinFailure _ => True
  | _, _ => False

/-- Values that are the same except for event ids and timestamps. -/
def SameReply : Reply E → Reply E → Prop
  | .loaded envs, .loaded envs' => List.Forall₂ Alike envs envs'
  | .created id envs, .created id' envs' => id = id' ∧ List.Forall₂ Alike envs envs'
  | .appended envs, .appended envs' => List.Forall₂ Alike envs envs'
  | _, _ => False

/-- The same result, of a call of the in-memory store and of one of the durable store. -/
def SameResult : Except StoreError (Reply E) → Except Failure (Reply E) → Prop
  | .ok reply, .ok reply' => SameReply reply reply'
  | .error e, .error (.store e') => SameError e e'
  | _, _ => False

/-! ## States -/

/-- The two stores hold the same streams and are at the same id, and nothing is under way. -/
structure Agree (codec : Codec E) (s : EventStoreState E) (w : World) : Prop where
  valid : Valid s
  calm : Calm codec w.session
  free : ∀ id, w.locks id = .free
  counter : s.nextId.get = w.nextId.val + 1
  streams : ∀ id, List.Forall₂ Alike ((s.streams id).getD []) (streamOf codec id w.session.log)
  drawn : ∀ entry ∈ w.session.log, ∀ env, Carries codec entry env → w.drawn env.eventId ≠ none

/-- New stores agree. -/
lemma agree_new : Agree codec .new World.created := by
  refine ⟨.new, ⟨rfl, rfl, .nil⟩, fun _ => rfl, rfl, fun _ => .nil, ?_⟩
  exact fun _ mem => absurd mem List.not_mem_nil

/-- A missing aggregate is missing in both stores. -/
lemma Agree.missing {id : AggregateId} (h : Agree codec s w) (none' : s.streams id = none) :
    streamOf codec id w.session.log = [] := by
  have streams := h.streams id
  rw [none'] at streams
  exact List.forall₂_nil_left_iff.mp streams

/-- A stream has one length in both stores. -/
lemma Agree.length {id : AggregateId} (h : Agree codec s w) (at' : s.streams id = some stream) :
    streamOf codec id w.session.log ≠ [] ∧
      InMemory.lastSequence stream = (streamOf codec id w.session.log).length := by
  have streams := h.streams id
  rw [at'] at streams
  refine ⟨fun empty => ?_, (h.valid.lastSequence_eq at').trans streams.length_eq⟩
  rw [empty] at streams
  cases streams
  exact h.valid.nonempty id at'

/-- An identity that nobody has drawn is not in use. -/
lemma Agree.unused (h : Agree codec s w) (new : w.drawn u = none) :
    Unused codec u w.session.log := by
  rintro entry mem env carries rfl
  exact h.drawn entry mem env carries new

/-- Both stores put an event at the end of one stream. -/
lemma Agree.write {id : AggregateId} {env env' : EventEnvelope E} (h : Agree codec s w)
    (valid : Valid s') (old : (s.streams id).getD [] = stream)
    (written : s'.streams = update s.streams id (some (stream ++ [env])))
    (alike : Alike env env') (named : env'.eventId = u) (here : env'.aggregateId = id)
    (next : env'.sequence.get = (streamOf codec id w.session.log).length + 1)
    (new : w.drawn u = none) (carries : Carries codec entry env')
    (completed : Completed i u entry w w') (counter : s'.nextId.get = w'.nextId.val + 1) :
    Agree codec s' w' := by
  subst named
  subst here
  refine ⟨valid, ?_, ?_, counter, ?_, ?_⟩
  · rw [completed.session]
    refine ⟨h.calm.certain, h.calm.settled, h.calm.sound.concat carries next ?_⟩
    intro other mem
    obtain ⟨entry', mem, carries', -⟩ := mem_streamOf h.calm.sound.legible mem
    exact (h.unused new entry' mem other carries').symm
  · rw [completed.locks]
    exact h.free
  · intro id'
    rw [completed.session, written]
    rcases eq_or_ne id' env'.aggregateId with rfl | ne
    · have streams := h.streams env'.aggregateId
      rw [old] at streams
      rw [update_self, carries.streamOf_concat]
      exact List.rel_append streams (.cons alike .nil)
    · rw [update_of_ne ne, carries.streamOf_other _ ne.symm]
      exact h.streams id'
  · rw [completed.session, completed.drawn]
    intro other mem env2 carries2
    rcases eq_or_ne env2.eventId env'.eventId with e | ne
    · rw [e, update_self]
      rintro ⟨⟩
    · rw [update_of_ne ne]
      rcases List.mem_append.mp mem with mem | mem
      · exact h.drawn other mem env2 carries2
      · rw [List.mem_singleton.mp mem] at carries2
        exact absurd (congrArg EventEnvelope.eventId (carries2.inj carries)) ne

/-! ## Calls -/

/-- An event of the call is written if it has one. -/
def Writes (s : EventStoreState E) : Call E → Prop
  | .append id expected _ _ =>
    ∃ stream, s.streams id = some stream ∧ InMemory.lastSequence stream = expected.get
  | _ => True

/-- A call with at most one event, which can be encoded if it is written. -/
structure Modest (codec : Codec E) (s : EventStoreState E) (c : Call E) : Prop where
  single : c.events.length ≤ 1
  fits : Writes s c → ∀ payload ∈ c.events, Fits codec payload

/-- The call asks for the last id, or for a sequence after the last one. -/
def Last (s : EventStoreState E) : Call E → Prop
  | .create (_ :: _) _ => s.nextId.get + 1 = 2 ^ 64
  | .append id expected (_ :: _) _ => expected.get + 1 = 2 ^ 64 ∧
    ∃ stream, s.streams id = some stream ∧ InMemory.lastSequence stream = expected.get
  | _ => False

/-- The call returns from the durable store, with the result that the in-memory store returns, the
stores agree afterwards, and no identity but `u` was drawn. -/
def Agreed (codec : Codec E) (order : List Entry → List Entry) (u : Uuid) (t : Timestamp) (i : Nat)
    (s : EventStoreState E) (w : World) (clock : Clock) (c : Call E) : Prop :=
  ∃ w' x, Exec (Reliably codec order u t) i c w (program codec c) w' x ∧
    SameResult (perform s clock c).2 x ∧ Agree codec (perform s clock c).1 w' ∧
    ∀ v, w'.drawn v ≠ none → v = u ∨ w.drawn v ≠ none

/-- A call draws one identity. -/
lemma Completed.draws (h : Completed i u entry w w') (v : Uuid) (drawn : w'.drawn v ≠ none) :
    v = u ∨ w.drawn v ≠ none := by
  rcases eq_or_ne v u with e | ne
  · exact .inl e
  · rw [h.drawn, update_of_ne ne] at drawn
    exact .inr drawn

/-- The envelope that the in-memory store builds. -/
lemma built_single (id : AggregateId) {start : Nat} (ctx : CorrelationContext) (payload : E)
    (named : clock.uuid 0 ≠ 0) (room : start + 1 < 2 ^ 64) :
    ∃ env, InMemory.buildEnvelopes id start [payload] ctx clock = .ok [env] ∧
      ∀ (u : Uuid) (sequence : NonZeroU64) (time : Timestamp), sequence.get = start + 1 →
        Alike env ⟨u, id, sequence, time, ctx.correlationId, ctx.causationId, payload⟩ := by
  have drawn : ∀ j, 0 ≤ j → j < 0 + [payload].length → clock.uuid j ≠ 0 := by
    intro j _ lt
    obtain rfl : j = 0 := by simpa using lt
    exact named
  rcases InMemory.buildFrom_spec id start ctx [payload] drawn (by omega) with
    ⟨envs, e, built, -⟩ | ⟨-, full⟩
  · obtain ⟨env, rfl, carries, owned⟩ := built.stamped.singleton
    refine ⟨env, e, fun u sequence time next => ⟨owned, ?_, ?_, ?_, carries⟩⟩
    · have number := built.stamped.numbered (n := 0) rfl
      exact NonZeroU64.ext (number.trans next.symm)
    · exact (built.stamped.correlated (List.mem_singleton_self env)).1
    · exact (built.stamped.correlated (List.mem_singleton_self env)).2
  · simp only [List.length_singleton] at full
    omega

/-- Rust `load` of both stores. -/
lemma Agree.load (h : Agree codec s w) (perm : ∀ l, (order l).Perm l) (id : AggregateId) :
    Agreed codec order u t i s w clock (.load id) := by
  refine ⟨w, _, (orderedStream_exec perm h.calm).bind .ret, ?_, h, fun _ => .inr⟩
  rw [show (perform s clock (.load id)).2 = (InMemory.load s id).map .loaded from rfl,
    h.valid.load_eq]
  exact h.streams id

/-- Rust `create` of both stores. -/
lemma Agree.create (h : Agree codec s w) (perm : ∀ l, (order l).Perm l)
    (fits : Fits codec payload) (room : s.nextId.get + 1 < 2 ^ 64) (fresh : Fresh s clock 1)
    (named : u ≠ 0) (new : w.drawn u = none) :
    Agreed codec order u t i s w clock (.create [payload] ctx) := by
  have below : streamOf codec ⟨s.nextId⟩ w.session.log = [] := h.missing h.valid.next
  obtain ⟨w', entry, ex, carries, completed, counter⟩ :=
    create_exec (t := t) (i := i) (c := .create [payload] ctx) perm h.calm h.free h.counter below
      named new (h.unused new) fits ctx
  obtain ⟨env, built, alike⟩ := built_single ⟨s.nextId⟩ ctx payload (fresh.named 0 Nat.one_pos)
    (show 0 + 1 < 2 ^ 64 by decide)
  have effect : InMemory.Effect s clock (.create [payload] ctx) _ _ :=
    InMemory.create_effect fresh
  have valid := h.valid.effect fresh effect
  have done : InMemory.create s [payload] ctx clock =
      (⟨update s.streams ⟨s.nextId⟩ (some [env]), ⟨s.nextId.get + 1, Nat.succ_pos _,
        room⟩⟩, .ok (⟨s.nextId⟩, [env])) := by
    rw [InMemory.create, if_neg (List.cons_ne_nil _ _)]
    simp only [dif_pos room, built]
  refine ⟨w', _, ex.bind .ret, ?_, ?_, completed.draws⟩
  · simp only [perform, done]
    exact ⟨rfl, .cons (alike u .min _ rfl) .nil⟩
  · have state : (perform s clock (.create [payload] ctx)).1 =
        ⟨update s.streams ⟨s.nextId⟩ (some [env]), ⟨s.nextId.get + 1, Nat.succ_pos _,
          room⟩⟩ := by
      simp only [perform, done]
    rw [state] at valid ⊢
    have old : (s.streams ⟨s.nextId⟩).getD [] = [] := by
      rw [h.valid.next]
      rfl
    refine h.write valid old rfl (alike u .min _ rfl) rfl rfl ?_ new carries completed ?_
    · rw [below]
      rfl
    · have counts := h.counter
      rw [counter, Fin.val_add, show ((1 : Projection.U64).val) = 1 from rfl]
      simp only
      omega

/-- Rust `append` of both stores. -/
lemma Agree.append (h : Agree codec s w) (perm : ∀ l, (order l).Perm l) {id : AggregateId}
    {expected : NonZeroU64}
    (fits : Writes s (.append id expected [payload] ctx) → Fits codec payload)
    (room : ¬ Last s (.append id expected [payload] ctx)) (fresh : Fresh s clock 1)
    (named : u ≠ 0) (new : w.drawn u = none) :
    Agreed codec order u t i s w clock (.append id expected [payload] ctx) := by
  cases at' : s.streams id with
  | none =>
    have done : ∃ source, InMemory.append s id expected [payload] ctx clock =
        (s, .error (.infrastructure source)) := by
      rw [InMemory.append, if_neg (List.cons_ne_nil _ _)]
      simp only [at']
      exact ⟨_, rfl⟩
    obtain ⟨source, done⟩ := done
    refine ⟨w, _, (append_missing_exec perm h.calm (h.free id) ctx (h.missing at')).bind_error,
      ?_, ?_, fun _ => .inr⟩
    · simp only [perform, done]
      trivial
    · simpa only [perform, done] using h
  | some stream =>
    obtain ⟨nonempty, length⟩ := h.length at'
    by_cases same : InMemory.lastSequence stream = expected.get
    · have room : expected.get + 1 < 2 ^ 64 := by
        have lt := expected.lt
        have other : expected.get + 1 ≠ 2 ^ 64 := fun full => room ⟨full, stream, at', same⟩
        omega
      obtain ⟨w', entry, ex, carries, completed, counter⟩ :=
        append_exec (t := t) (i := i) (c := .append id expected [payload] ctx) perm h.calm h.free
          nonempty (length.symm.trans same) ⟨expected.get + 1, Nat.succ_pos _, room⟩ rfl named new
          (h.unused new) (fits ⟨stream, at', same⟩) ctx
      obtain ⟨env, built, alike⟩ := built_single id ctx payload (fresh.named 0 Nat.one_pos) room
      have effect : InMemory.Effect s clock (.append id expected [payload] ctx) _ _ :=
        InMemory.append_effect fresh
      have valid := h.valid.effect fresh effect
      have done : InMemory.append s id expected [payload] ctx clock =
          ({ s with streams := update s.streams id (some (stream ++ [env])) },
            .ok [env]) := by
        rw [InMemory.append, if_neg (List.cons_ne_nil _ _)]
        simp only [at', same, ne_eq, not_true_eq_false, if_false, built]
      have state : (perform s clock (.append id expected [payload] ctx)).1 =
          { s with streams := update s.streams id (some (stream ++ [env])) } := by
        simp only [perform, done]
      refine ⟨w', _, ex.bind .ret, ?_, ?_, completed.draws⟩
      · simp only [perform, done]
        exact .cons (alike u _ _ rfl) .nil
      · rw [state] at valid ⊢
        refine h.write valid ?_ rfl (alike u _ _ rfl) rfl rfl ?_ new carries completed ?_
        · rw [at']
          rfl
        · show expected.get + 1 = _
          rw [← length, same]
        · rw [counter]
          exact h.counter
    · have conflict : (streamOf codec id w.session.log).length ≠ expected.get := length ▸ same
      have done : InMemory.append s id expected [payload] ctx clock =
          (s, .error (.concurrencyConflict id expected (InMemory.lastSequence stream))) := by
        rw [InMemory.append, if_neg (List.cons_ne_nil _ _)]
        simp only [at', ne_eq, same, not_false_eq_true, if_true]
      refine ⟨w, _, (append_conflict_exec perm h.calm (h.free id) ctx nonempty
        conflict).bind_error, ?_, ?_, fun _ => .inr⟩
      · simp only [perform, done]
        exact ⟨rfl, rfl, length⟩
      · simpa only [perform, done] using h

/-- One call of both stores. -/
lemma Agree.call (h : Agree codec s w) (perm : ∀ l, (order l).Perm l) (modest : Modest codec s c)
    (room : ¬ Last s c) (fresh : Fresh s clock c.events.length) (named : u ≠ 0)
    (new : w.drawn u = none) :
    Agreed codec order u t i s w clock c := by
  cases c with
  | load id => exact h.load perm id
  | create events ctx =>
    match events, modest with
    | [], _ =>
      have none' : Exec (Reliably codec order u t) i (.create [] ctx) w (Pgno.create codec [] ctx) w
          (.error (.store (.infrastructure "cannot create aggregate with zero events"))) :=
        (ready_exec h.calm).bind .raise
      exact ⟨w, _, none'.bind_error, trivial, h, fun _ => .inr⟩
    | [payload], modest =>
      have lt := s.nextId.lt
      have other : s.nextId.get + 1 ≠ 2 ^ 64 := room
      exact h.create perm (modest.fits trivial payload (List.mem_singleton_self _)) (by omega)
        fresh named new
    | _ :: _ :: _, modest => exact absurd modest.single (by simp [Call.events])
  | append id expected events ctx =>
    match events, modest with
    | [], _ =>
      have none' : Exec (Reliably codec order u t) i (.append id expected [] ctx) w
          (Pgno.append codec id expected [] ctx) w (.ok []) := (ready_exec h.calm).bind .ret
      exact ⟨w, _, none'.map, .nil, h, fun _ => .inr⟩
    | [payload], modest =>
      exact h.append perm (fun writes => modest.fits writes payload (List.mem_singleton_self _))
        room fresh named new
    | _ :: _ :: _, modest => exact absurd modest.single (by simp [Call.events])

/-- Nothing is the same as a panic. -/
lemma not_sameResult_panicked {x : Except StoreError (Reply E)} {message : String} :
    ¬ SameResult x (.error (.panicked message)) := by
  cases x <;> exact id

/-- Where the ids or the sequences end, the call returns from both stores and the results differ. -/
lemma Agree.last (clock : Clock) (h : Agree codec s w) (perm : ∀ l, (order l).Perm l)
    (modest : Modest codec s c) (last : Last s c) (named : u ≠ 0) (new : w.drawn u = none) :
    ∃ w' x, Exec (Reliably codec order u t) i c w (program codec c) w' x ∧
      ¬ SameResult (perform s clock c).2 x := by
  match c, modest, last with
  | .create [payload] ctx, modest, last =>
    obtain ⟨w', entry, ex, -⟩ :=
      create_exec (t := t) (i := i) (c := .create [payload] ctx) perm h.calm h.free h.counter
        (h.missing h.valid.next) named new (h.unused new)
        (modest.fits trivial payload (List.mem_singleton_self _)) ctx
    have refused : InMemory.create s [payload] ctx clock =
        (s, .error (.infrastructure "aggregate ID overflow")) := by
      have full : s.nextId.get + 1 = 2 ^ 64 := last
      rw [InMemory.create, if_neg (List.cons_ne_nil _ _)]
      exact dif_neg (by omega)
    refine ⟨w', _, ex.bind .ret, ?_⟩
    simp only [perform, refused]
    exact id
  | .append id expected [payload] ctx, _, ⟨full, stream, at', same⟩ =>
    obtain ⟨nonempty, length⟩ := h.length at'
    have panics : ∃ w', Exec (Reliably codec order u t) i (.append id expected [payload] ctx) w
        (Pgno.append codec id expected [payload] ctx) w' _ :=
      append_overflow_exec perm h.calm (h.free id) nonempty (length.symm.trans same) full named new
        ctx
    obtain ⟨w', ex⟩ := panics
    exact ⟨w', _, ex.bind_error, not_sameResult_panicked⟩
  | .create (_ :: _ :: _) _, modest, _ | .append _ _ (_ :: _ :: _) _, modest, _ =>
    exact absurd modest.single (by simp [Call.events])

/-! ## Runs -/

/-- A call that was made to both stores, and what they returned. -/
structure Both (E : Type) where
  call : Call E
  memory : Except StoreError (Reply E)
  durable : Except Failure (Reply E)

/-- Steps of the two stores, with identities that neither has drawn. -/
inductive BothStep (codec : Codec E) (order : List Entry → List Entry) :
    EventStoreState E × World → Both E → EventStoreState E × World → Prop where
  | call {s w c clock u t i w' x} :
    Fresh s clock c.events.length →
    u ≠ 0 →
    w.drawn u = none →
    Exec (Reliably codec order u t) i c w (program codec c) w' x →
    BothStep codec order (s, w) ⟨c, (perform s clock c).2, x⟩ ((perform s clock c).1, w')

/-- The call is modest and does not ask for what is last. -/
def InRange (codec : Codec E) (p : EventStoreState E × World) (d : Both E) : Prop :=
  Modest codec p.1 d.call ∧ ¬ Last p.1 d.call

/-- The stores agree along a run. -/
lemma agree_run {tr : List (Both E)} {p : EventStoreState E × World} (perm : ∀ l, (order l).Perm l)
    (r : Run (fun p d p' => BothStep codec order p d p' ∧ InRange codec p d) (.new, .created) tr
      p) :
    Agree codec p.1 p.2 ∧ ∀ d ∈ tr, SameResult d.memory d.durable := by
  refine r.snocInduction (motive := fun tr p => Agree codec p.1 p.2 ∧
    ∀ d ∈ tr, SameResult d.memory d.durable) ?_ ?_
  · exact ⟨agree_new, fun _ mem => absurd mem List.not_mem_nil⟩
  · rintro tr p d p' - ⟨st, modest, room⟩ ⟨agree, same⟩
    cases st with
    | @call s w c clock u t i w' x fresh named new ex =>
      obtain ⟨w1, x1, ex1, result, agree', -⟩ := agree.call perm modest room fresh named new
      obtain ⟨rfl, rfl⟩ := Exec.unique Reliably.unique ex ex1
      refine ⟨agree', fun d mem => ?_⟩
      rcases List.mem_append.mp mem with mem | mem
      · exact same d mem
      · rw [List.mem_singleton.mp mem]
        exact result

/-- As long as no call asks for the last id or for a sequence after the last one, every call with at
most one event has returned the same result from both stores. The next one returns from both, and
with the same result exactly if it does not ask for that. -/
theorem stores_agree {tr : List (Both E)} (perm : ∀ l, (order l).Perm l)
    (r : Run (fun p d p' => BothStep codec order p d p' ∧ InRange codec p d) (.new, .created) tr
      (s, w)) :
    (∀ d ∈ tr, SameResult d.memory d.durable) ∧
    ∀ c clock u t i, Modest codec s c → Fresh s clock c.events.length → u ≠ 0 →
      w.drawn u = none →
      ∃ w' x, Exec (Reliably codec order u t) i c w (program codec c) w' x ∧
        (SameResult (perform s clock c).2 x ↔ ¬ Last s c) := by
  obtain ⟨agree, same⟩ := agree_run perm r
  refine ⟨same, fun c clock u t i modest fresh named new => ?_⟩
  by_cases last : Last s c
  · obtain ⟨w', x, ex, differ⟩ := agree.last clock perm modest last named new
    exact ⟨w', x, ex, iff_of_false differ (not_not.mpr last)⟩
  · obtain ⟨w', x, ex, result, -⟩ := agree.call perm modest last fresh named new
    exact ⟨w', x, ex, iff_of_true result last⟩

/-! ## The end of the ids -/

/-- A call that draws the identity number `n + 1`. -/
def numbered (n : Nat) : Clock := ⟨0, fun _ => BitVec.ofNat 128 (n + 1)⟩

/-- The call of the concrete runs. -/
abbrev createOne : Call Unit := .create [()] ⟨none, none⟩

lemma modest_createOne {s : EventStoreState Unit} : Modest unitCodec s createOne :=
  ⟨Nat.le_refl 1, fun _ payload _ => unitCodec_fits payload⟩

/-- The identities up to number `n` have been drawn. -/
structure Numbered (n : Nat) (s : EventStoreState Unit) (w : World) : Prop where
  agree : Agree unitCodec s w
  nextId : w.nextId.val = n
  drawn : ∀ v, w.drawn v ≠ none → v.toNat ≤ n
  memory : ∀ id stream, s.streams id = some stream → ∀ env ∈ stream, env.eventId.toNat ≤ n

/-- The next identity is a new one. -/
lemma Numbered.next {s : EventStoreState Unit} {w : World} (h : Numbered n s w)
    (lt : n + 1 < 2 ^ 64) :
    Fresh s (numbered n) 1 ∧ BitVec.ofNat 128 (n + 1) ≠ 0 ∧
      w.drawn (BitVec.ofNat 128 (n + 1)) = none := by
  have value : (BitVec.ofNat 128 (n + 1)).toNat = n + 1 := by
    rw [BitVec.toNat_ofNat]
    exact Nat.mod_eq_of_lt (lt.trans (by decide))
  have named : BitVec.ofNat 128 (n + 1) ≠ 0 := by
    intro e
    rw [e] at value
    exact absurd value (Nat.succ_ne_zero n).symm
  refine ⟨.one named ?_, named, ?_⟩
  · intro id stream at' env mem e
    have := h.memory id stream at' env mem
    rw [e, value] at this
    omega
  · by_contra drawn
    have := h.drawn _ drawn
    omega

/-- Rust `InMemoryEventStore::create` takes the next id. -/
lemma create_counts (room : s.nextId.get + 1 < 2 ^ 64) :
    (perform s clock (.create [payload] ctx)).1.nextId.get = s.nextId.get + 1 := by
  simp only [perform, InMemory.create, if_neg (List.cons_ne_nil payload []), dif_pos room]
  split <;> rfl

/-- Creates until an id is reached. -/
lemma many_creates (lt : n < 2 ^ 64 - 1) : ∃ tr s w,
    Run (fun p d p' => BothStep unitCodec id p d p' ∧ InRange unitCodec p d) (.new, .created) tr
      (s, w) ∧ tr.length = n ∧ (∀ d ∈ tr, d.call = createOne) ∧ Numbered n s w := by
  induction n with
  | zero =>
    refine ⟨[], .new, .created, .nil, rfl, fun _ mem => absurd mem List.not_mem_nil, agree_new,
      rfl, fun _ h => absurd rfl h, ?_⟩
    rintro id stream ⟨⟩
  | succ n ih =>
    obtain ⟨tr, s, w, r, length, calls, h⟩ := ih (by omega)
    obtain ⟨fresh, named, new⟩ := h.next (by omega)
    have counter := h.agree.counter
    have nextId := h.nextId
    have room : s.nextId.get + 1 < 2 ^ 64 := by omega
    have within : ¬ Last s createOne := room.ne
    obtain ⟨w', x, ex, -, agree, draws⟩ : Agreed unitCodec id (BitVec.ofNat 128 (n + 1)) 0 0 s w
        (numbered n) createOne :=
      h.agree.call List.Perm.refl modest_createOne within fresh named new
    refine ⟨_, _, _, r.snoc ⟨.call fresh named new ex, modest_createOne, within⟩, ?_, ?_, agree,
      ?_, ?_, ?_⟩
    · rw [List.length_append, length]
      rfl
    · intro d mem
      rcases List.mem_append.mp mem with mem | mem
      · exact calls d mem
      · rw [List.mem_singleton.mp mem]
    · have counts := agree.counter
      rw [create_counts room] at counts
      omega
    · intro v drawn
      rcases draws v drawn with rfl | old
      · rw [BitVec.toNat_ofNat]
        exact Nat.mod_le _ _
      · exact (h.drawn v old).trans (Nat.le_succ n)
    · intro id stream at' env mem
      rcases (InMemory.perform_effect (c := createOne) fresh).drawn h.agree.valid at' mem with
        ⟨i, e⟩ | ⟨old, at2, mem⟩
      · rw [e]
        show (BitVec.ofNat 128 (n + 1)).toNat ≤ n + 1
        rw [BitVec.toNat_ofNat]
        exact Nat.mod_le _ _
      · exact (h.memory id old at2 env mem).trans (Nat.le_succ n)

/-- After `2^64 - 2` creates, the next one is refused by the in-memory store and succeeds in the
durable store. -/
theorem stores_differ : ∃ tr p,
    Run (BothStep unitCodec id) (.new, .created) tr p ∧ (∀ d ∈ tr, d.call = createOne) ∧
      ∃ d ∈ tr, ¬ SameResult d.memory d.durable := by
  obtain ⟨tr, s, w, r, -, calls, h⟩ := many_creates (n := 2 ^ 64 - 2) (by decide)
  obtain ⟨fresh, named, new⟩ := h.next (by decide)
  have counter := h.agree.counter
  have nextId := h.nextId
  have last : Last s createOne := show s.nextId.get + 1 = 2 ^ 64 by omega
  obtain ⟨w', x, ex, differ⟩ := h.agree.last (t := 0) (i := 0) (numbered (2 ^ 64 - 2))
    List.Perm.refl modest_createOne last named new
  refine ⟨_, _, (r.mono fun st => st.1).snoc (.call fresh named new ex), ?_, ?_⟩
  · intro d mem
    rcases List.mem_append.mp mem with mem | mem
    · exact calls d mem
    · rw [List.mem_singleton.mp mem]
  · exact ⟨_, List.mem_append_right _ (List.mem_singleton_self _), differ⟩

/-- One create, and then anything. -/
theorem stores_agree_one : ∃ tr s w,
    Run (fun p d p' => BothStep unitCodec id p d p' ∧ InRange unitCodec p d) (.new, .created) tr
      (s, w) ∧ tr.map (·.call) = [createOne] ∧ ∀ d ∈ tr, SameResult d.memory d.durable := by
  obtain ⟨tr, s, w, r, length, calls, -⟩ := many_creates (n := 1) (by decide)
  refine ⟨tr, s, w, r, ?_, (stores_agree List.Perm.refl r).1⟩
  obtain ⟨d, rfl⟩ := List.length_eq_one_iff.mp length
  simp [calls d (List.mem_singleton_self d)]

end CherryPit.Pgno
