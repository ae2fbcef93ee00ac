import CherryPit.EventStore.PgnoSystem

/-!
# Calls that nothing interferes with

A call of the durable event store that runs alone over a substrate that does not fail: what it
returns and what it leaves, for each way through its program. The time and the identity that the
call draws and the order in which a log is read are parameters; with them given a call has one
result (`Exec.unique`).
-/

namespace CherryPit.Pgno

open Conc Store Function
open Projection (U64 u64 nonZero_u64)

variable {E α : Type} {codec : Codec E} {i : Nat} {c : Call E} {w w' : World} {id : AggregateId}
  {order : List Entry → List Entry} {u : Uuid} {t : Timestamp} {entry : Entry} {nats : List Nat}
  {s : Session} {n : Nat}

/-- What the operations answer if nothing fails. -/
def Expected (order : List Entry → List Entry) (u : Uuid) (t : Timestamp) (w : World) :
    (o : Op) → o.Res → Prop
  | .uuid, r => r = u
  | .now, r => r = t
  | .readAll, r => r = .ok (order w.session.log)
  | .record _ _ _, r => r = .ok ()
  | _, _ => True

/-- The operations over a substrate that does not fail. -/
def Reliably (codec : Codec E) (order : List Entry → List Entry) (u : Uuid) (t : Timestamp) :
    Semantics sig (Call E) World := fun i c w o w' r =>
  Performs codec i c w o w' r ∧ Expected order u t w o r

/-- A write that returns `Ok` has landed. -/
lemma record_ok {a : Answers} (h : (s.record a entry).2 = .ok ()) :
    (s.record a entry).1 = { s with log := s.log ++ [entry] } := by
  have recorded := s.recorded a entry
  generalize s.record a entry = out at recorded h
  obtain ⟨s', r⟩ := out
  cases recorded with
  | refused => cases h
  | stranded => cases h
  | unsynced => cases h
  | landed => rfl

/-- An operation has one outcome. -/
lemma Reliably.unique {o : Op} {w1 w2 : World} {r1 r2 : o.Res}
    (h1 : Reliably codec order u t i c w o w1 r1) (h2 : Reliably codec order u t i c w o w2 r2) :
    w1 = w2 ∧ r1 = r2 := by
  obtain ⟨p1, e1⟩ := h1
  obtain ⟨p2, e2⟩ := h2
  cases o with
  | ready =>
    obtain ⟨rfl, rfl⟩ := p1
    obtain ⟨rfl, rfl⟩ := p2
    exact ⟨rfl, rfl⟩
  | fetchAdd =>
    obtain ⟨rfl, rfl⟩ := p1
    obtain ⟨rfl, rfl⟩ := p2
    exact ⟨rfl, rfl⟩
  | lockAggregate id =>
    obtain ⟨free, rfl, rfl⟩ | ⟨poisoned, rfl, rfl⟩ := p1
    · obtain ⟨-, rfl, rfl⟩ | ⟨poisoned, -, -⟩ := p2
      · exact ⟨rfl, rfl⟩
      · cases free.symm.trans poisoned
    · obtain ⟨free, -, -⟩ | ⟨-, rfl, rfl⟩ := p2
      · cases free.symm.trans poisoned
      · exact ⟨rfl, rfl⟩
  | unlockAggregate id panicking =>
    obtain ⟨-, rfl⟩ := p1
    obtain ⟨-, rfl⟩ := p2
    exact ⟨rfl, rfl⟩
  | uuid =>
    obtain ⟨-, -, rfl⟩ := p1
    obtain ⟨-, -, rfl⟩ := p2
    cases e1
    cases e2
    exact ⟨rfl, rfl⟩
  | now =>
    cases p1
    cases p2
    exact ⟨rfl, e1.trans e2.symm⟩
  | readAll =>
    obtain ⟨_, -, rfl, -⟩ := p1
    obtain ⟨_, -, rfl, -⟩ := p2
    exact ⟨rfl, e1.trans e2.symm⟩
  | record key eventId payload =>
    obtain ⟨a1, rfl, rfl⟩ := p1
    obtain ⟨a2, rfl, rfl⟩ := p2
    rw [record_ok e1, record_ok e2]
    exact ⟨rfl, e1.trans e2.symm⟩

/-- A session that is not uncertain, over a sound log. -/
structure Calm (codec : Codec E) (s : Session) : Prop where
  certain : s.uncertain = none
  settled : s.pending = none
  sound : Sound codec s.log

lemma Calm.ready (h : Calm codec s) : s.ready = .ok () := by
  rw [Session.ready, h.certain]

lemma ready_exec (calm : Calm codec w.session) :
    Exec (Reliably codec order u t) i c w ready w (.ok ()) := by
  refine .op ⟨⟨rfl, rfl⟩, trivial⟩ ?_
  rw [calm.ready]
  exact .ret

lemma orderedStream_exec (perm : ∀ l, (order l).Perm l) (calm : Calm codec w.session) :
    Exec (Reliably codec order u t) i c w (orderedStream codec id) w
      (.ok (streamOf codec id w.session.log)) := by
  refine .op ⟨⟨.ok (order w.session.log), ?_, rfl, ?_⟩, rfl⟩ ?_
  · rintro _ ⟨⟩
    exact perm _
  · rw [Session.readAll, calm.ready]
    rfl
  · dsimp only [Except.bind]
    rw [calm.sound.streamIn (perm _) id]
    exact .ret

/-- Every record with this payload can be encoded. -/
def Fits (codec : Codec E) (payload : E) : Prop :=
  ∀ record : PgnoEnvelope E, record.payload = payload →
    ∃ bytes, encodeRecord codec record = .ok bytes

/-- A write: the log has one more entry, and the rest is as it was. -/
structure Landed (i : Nat) (entry : Entry) (w w' : World) : Prop where
  session : w'.session = { w.session with log := w.session.log ++ [entry] }
  nextId : w'.nextId = w.nextId
  locks : w'.locks = w.locks
  drawn : w'.drawn = w.drawn

/-- Rust `record_single` without failures. -/
lemma recordSingle_exec (order : List Entry → List Entry) (calm : Calm codec w.session)
    (env : EventEnvelope E) (fits : Fits codec env.payload) (named : env.eventId ≠ 0)
    (time : env.timestamp = (i64OrMax t).val) :
    ∃ w' entry, Exec (Reliably codec order u t) i c w
        (recordSingle codec (u64 env.aggregateId.id) env.eventId (u64 env.sequence)
          env.correlationId env.causationId env.payload) w' (.ok ()) ∧
      Carries codec entry env ∧ Landed i entry w w' := by
  obtain ⟨bytes, encoded⟩ := fits (recordOf env (i64OrMax t)) rfl
  let entry : Entry := ⟨toString (u64 env.aggregateId.id).val, env.eventId, bytes, false, i⟩
  let answers : Answers := ⟨.ok (), .ok .landed, .ok .landed, .ok ()⟩
  have done : w.session.record answers entry =
      ({ w.session with log := w.session.log ++ [entry] }, .ok ()) := by
    rw [Session.record, calm.ready]
    simp [answers]
  let w' : World := { w with
    session := (w.session.record answers entry).1
    orderly := w.orderly ∧ ∃ env, Proper codec w i entry env }
  refine ⟨w', entry, .op ⟨rfl, rfl⟩ ?_,
    ⟨rfl, named, i64OrMax t, time.symm, decodeRecord_encodeRecord encoded⟩, ?_⟩
  · unfold recordOf at encoded
    simp only [encoded]
    refine .op ⟨⟨answers, rfl, rfl⟩, congrArg Prod.snd done⟩ ?_
    rw [show (w.session.record answers entry).2 = .ok () from congrArg Prod.snd done]
    exact .ret
  · exact ⟨congrArg Prod.fst done, rfl, rfl, rfl⟩

lemma withAggregate_exec {body : Prog sig Failure α} {x : Except Failure α}
    (free : w.locks id = .free)
    (inside : Exec (Reliably codec order u t) i c (w.setLock id (.held i)) body w' x)
    (held : w'.locks id = .held i) :
    Exec (Reliably codec order u t) i c w (withAggregate id body)
      (w'.setLock id (if panicking x then .poisoned else .free)) x := by
  refine .op ⟨.inl ⟨free, rfl, rfl⟩, trivial⟩ ?_
  exact Exec.bind inside.result (.op (r := ()) ⟨⟨held, rfl⟩, trivial⟩ (.ofExcept x))

/-- A log with one more entry. -/
lemma Calm.landed {env : EventEnvelope E} (calm : Calm codec w.session)
    (landed : Landed i entry w w') (carries : Carries codec entry env)
    (next : env.sequence.get = (streamOf codec env.aggregateId w.session.log).length + 1)
    (new : Unused codec env.eventId w.session.log) : Calm codec w'.session := by
  rw [landed.session]
  refine ⟨calm.certain, calm.settled, calm.sound.concat carries next ?_⟩
  intro old mem
  obtain ⟨other, mem, carries', -⟩ := mem_streamOf calm.sound.legible mem
  exact (new other mem old carries').symm

/-- A call that wrote one entry and drew one identity has gone through. -/
structure Completed (i : Nat) (u : Uuid) (entry : Entry) (w w' : World) : Prop where
  session : w'.session = { w.session with log := w.session.log ++ [entry] }
  locks : w'.locks = w.locks
  drawn : w'.drawn = update w.drawn u (some i)

/-- The lock of an aggregate is taken, an identity drawn, an entry written and the lock given
back. -/
lemma Landed.completed (free : w.locks id = .free)
    (landed : Landed i entry ((w.setLock id (.held i)).draw i u) w') :
    Completed i u entry w (w'.setLock id .free) := by
  refine ⟨landed.session, ?_, landed.drawn⟩
  show update w'.locks id .free = w.locks
  rw [landed.locks]
  show update (update w.locks id (.held i)) id .free = w.locks
  rw [update_idem, ← free, update_eq_self]

/-- Rust `create` without failures. -/
lemma create_exec (perm : ∀ l, (order l).Perm l) (calm : Calm codec w.session)
    (free : ∀ id, w.locks id = .free) {raw : NonZeroU64} (next : raw.get = w.nextId.val + 1)
    (unallocated : streamOf codec ⟨raw⟩ w.session.log = []) (named : u ≠ 0)
    (drawn : w.drawn u = none) (new : Unused codec u w.session.log) {payload : E}
    (fits : Fits codec payload) (ctx : CorrelationContext) :
    ∃ w' entry, Exec (Reliably codec order u t) i c w (create codec [payload] ctx) w'
        (.ok (⟨raw⟩, [⟨u, ⟨raw⟩, .min, (i64OrMax t).val, ctx.correlationId, ctx.causationId,
          payload⟩])) ∧
      Carries codec entry ⟨u, ⟨raw⟩, .min, (i64OrMax t).val, ctx.correlationId, ctx.causationId,
        payload⟩ ∧
      Completed i u entry w w' ∧ w'.nextId = w.nextId + 1 := by
  let id : AggregateId := ⟨raw⟩
  let env : EventEnvelope E :=
    ⟨u, id, .min, (i64OrMax t).val, ctx.correlationId, ctx.causationId, payload⟩
  let w1 := (w.allocate i).setLock id (.held i)
  let w2 := w1.draw i u
  obtain ⟨w3, entry, record, carries, landed⟩ :=
    recordSingle_exec order (u := u) (i := i) (c := c) (w := w2) calm env fits named rfl
  have calm3 : Calm codec w3.session := by
    refine Calm.landed (w := w2) calm landed carries ?_ new
    show 1 = (streamOf codec id w.session.log).length + 1
    rw [unallocated]
    rfl
  have stream : streamOf codec id w3.session.log = [env] := by
    rw [landed.session]
    show streamOf codec id (w.session.log ++ [entry]) = [env]
    rw [carries.streamOf_concat, unallocated]
    rfl
  have read : Exec (Reliably codec order u t) i c w3 (orderedStream codec id) w3 (.ok [env]) :=
    stream ▸ orderedStream_exec perm calm3
  have inside : Exec (Reliably codec order u t) i c w1 (createLocked codec id ctx payload) w3
      (.ok (id, [env])) :=
    .op ⟨⟨named, drawn, rfl⟩, rfl⟩ (record.bind (Exec.bind read.mapError .ret))
  have held : w3.locks id = .held i := by
    rw [landed.locks]
    exact World.setLock_self ..
  have whole := withAggregate_exec (w := w.allocate i) (free id) inside held
  have completed := Landed.completed (w := w.allocate i) (free id) landed
  refine ⟨w3.setLock id .free, entry, ?_, carries, ?_, landed.nextId⟩
  · refine Exec.bind (ready_exec calm) (.op ⟨⟨rfl, rfl⟩, trivial⟩ ?_)
    have rawId : addOne w.nextId = .ok (u64 raw) := by
      have lt := raw.lt
      rw [addOne, dif_pos (by omega)]
      simp only [u64, next]
    simp only [rawId, Prog.ofExcept_ok_bind, nonZero_u64]
    exact whole
  · exact ⟨completed.session, completed.locks, completed.drawn⟩

/-- A lock that is taken and given back. -/
lemma setLock_back (free : w.locks id = .free) : (w.setLock id (.held i)).setLock id .free = w := by
  show { w with locks := update (update w.locks id (.held i)) id .free } = w
  rw [update_idem, ← free, update_eq_self]

section Append

variable {expected : NonZeroU64} {payload : E}

/-- A read under the lock of the aggregate. -/
lemma orderedStream_locked_exec (perm : ∀ l, (order l).Perm l) (calm : Calm codec w.session) :
    Exec (Reliably codec order u t) i c (w.setLock id (.held i)) (orderedStream codec id)
      (w.setLock id (.held i)) (.ok (streamOf codec id w.session.log)) :=
  orderedStream_exec perm calm

/-- An append that is refused under the lock. -/
lemma append_refused_exec (calm : Calm codec w.session) (free : w.locks id = .free)
    (ctx : CorrelationContext) {e : StoreError}
    (inside : Exec (Reliably codec order u t) i c (w.setLock id (.held i))
      (appendLocked codec id expected ctx payload) (w.setLock id (.held i)) (.error (.store e))) :
    Exec (Reliably codec order u t) i c w (append codec id expected [payload] ctx) w
      (.error (.store e)) := by
  have whole := withAggregate_exec free inside (World.setLock_self ..)
  have back : (w.setLock id (.held i)).setLock id .free = w := setLock_back free
  rw [show panicking (.error (.store e) : Except Failure (List (EventEnvelope E))) = false from rfl,
    if_neg Bool.false_ne_true, back] at whole
  exact (ready_exec calm).bind whole

/-- Rust `append` to no stream. -/
lemma append_missing_exec (perm : ∀ l, (order l).Perm l) (calm : Calm codec w.session)
    (free : w.locks id = .free) (ctx : CorrelationContext)
    (missing : streamOf codec id w.session.log = []) :
    Exec (Reliably codec order u t) i c w (append codec id expected [payload] ctx) w
      (.error (.store (.infrastructure
        ("append to aggregate AggregateId(" ++ id.display ++ ") that was never created")))) := by
  refine append_refused_exec calm free ctx (Exec.bind (orderedStream_locked_exec perm calm) ?_)
  rw [if_pos missing]
  exact .raise

/-- Rust `append` at another sequence. -/
lemma append_conflict_exec (perm : ∀ l, (order l).Perm l) (calm : Calm codec w.session)
    (free : w.locks id = .free) (ctx : CorrelationContext)
    (some' : streamOf codec id w.session.log ≠ [])
    (other : (streamOf codec id w.session.log).length ≠ expected.get) :
    Exec (Reliably codec order u t) i c w (append codec id expected [payload] ctx) w
      (.error (.store (.concurrencyConflict id expected
        (streamOf codec id w.session.log).length))) := by
  have actual := (calm.sound.wellFormed id).lastSequence
  refine append_refused_exec calm free ctx (Exec.bind (orderedStream_locked_exec perm calm) ?_)
  rw [if_neg some']
  dsimp only
  rw [actual, if_pos other]
  exact .raise

/-- Rust `append` without failures. -/
lemma append_exec (perm : ∀ l, (order l).Perm l) (calm : Calm codec w.session)
    (free : ∀ id, w.locks id = .free) (some' : streamOf codec id w.session.log ≠ [])
    (same : (streamOf codec id w.session.log).length = expected.get) (sequence : NonZeroU64)
    (next : sequence.get = expected.get + 1) (named : u ≠ 0) (drawn : w.drawn u = none)
    (new : Unused codec u w.session.log) (fits : Fits codec payload) (ctx : CorrelationContext) :
    ∃ w' entry, Exec (Reliably codec order u t) i c w (append codec id expected [payload] ctx) w'
        (.ok [⟨u, id, sequence, (i64OrMax t).val, ctx.correlationId, ctx.causationId,
          payload⟩]) ∧
      Carries codec entry ⟨u, id, sequence, (i64OrMax t).val, ctx.correlationId, ctx.causationId,
        payload⟩ ∧
      Completed i u entry w w' ∧ w'.nextId = w.nextId := by
  have actual := (calm.sound.wellFormed id).lastSequence
  let env : EventEnvelope E :=
    ⟨u, id, sequence, (i64OrMax t).val, ctx.correlationId, ctx.causationId, payload⟩
  let w1 := w.setLock id (.held i)
  let w2 := w1.draw i u
  obtain ⟨w3, entry, record, carries, landed⟩ :=
    recordSingle_exec order (u := u) (i := i) (c := c) (w := w2) calm env fits named rfl
  have calm3 : Calm codec w3.session := by
    refine Calm.landed (w := w2) calm landed carries ?_ new
    show sequence.get = (streamOf codec id w.session.log).length + 1
    rw [same, next]
  have stream : streamOf codec id w3.session.log = streamOf codec id w.session.log ++ [env] := by
    rw [landed.session]
    exact carries.streamOf_concat _
  have found : (streamOf codec id w3.session.log).find? (·.eventId = u) = some env := by
    have wf := calm3.sound.wellFormed id
    rw [stream] at wf ⊢
    exact find?_last wf
  have held : w3.locks id = .held i := by
    rw [landed.locks]
    exact World.setLock_self ..
  have added : addOne (u64 expected) = .ok (u64 sequence) := by
    have lt := sequence.lt
    rw [addOne, dif_pos (by simp only [u64]; omega)]
    simp only [u64, next]
  have inside : Exec (Reliably codec order u t) i c w1 (appendLocked codec id expected ctx payload)
      w3 (.ok [env]) := by
    refine Exec.bind (orderedStream_locked_exec perm calm) ?_
    rw [if_neg some']
    dsimp only
    rw [actual, if_neg (not_not.mpr same)]
    refine .op ⟨⟨named, drawn, rfl⟩, rfl⟩ ?_
    simp only [added, Prog.ofExcept_ok_bind]
    refine record.bind (Exec.bind (orderedStream_exec perm calm3).mapError ?_)
    rw [found]
    exact .ret
  have whole := withAggregate_exec (free id) inside held
  exact ⟨w3.setLock id .free, entry, (ready_exec calm).bind whole, carries,
    landed.completed (free id), landed.nextId⟩

/-- An append to a stream whose sequences are used up panics. -/
lemma append_overflow_exec (perm : ∀ l, (order l).Perm l) (calm : Calm codec w.session)
    (free : w.locks id = .free) (some' : streamOf codec id w.session.log ≠ [])
    (same : (streamOf codec id w.session.log).length = expected.get)
    (full : expected.get + 1 = 2 ^ 64) (named : u ≠ 0) (drawn : w.drawn u = none)
    (ctx : CorrelationContext) :
    ∃ w', Exec (Reliably codec order u t) i c w (append codec id expected [payload] ctx) w'
      (.error (.panicked "attempt to add with overflow")) := by
  have actual := (calm.sound.wellFormed id).lastSequence
  have overflow : addOne (u64 expected) = .error (.panicked "attempt to add with overflow") :=
    dif_neg (by simp only [u64]; omega)
  have inside : Exec (Reliably codec order u t) i c (w.setLock id (.held i))
      (appendLocked codec id expected ctx payload) ((w.setLock id (.held i)).draw i u)
      (.error (.panicked "attempt to add with overflow")) := by
    refine Exec.bind (orderedStream_locked_exec perm calm) ?_
    rw [if_neg some']
    dsimp only
    rw [actual, if_neg (not_not.mpr same)]
    refine .op ⟨⟨named, drawn, rfl⟩, rfl⟩ ?_
    simp only [overflow]
    exact .raise
  exact ⟨_, (ready_exec calm).bind (withAggregate_exec free inside (World.setLock_self ..))⟩

end Append

/-! ## A codec

For events that carry nothing: a record is written as its numbers, each as its digits to the base
256 after their number. -/

/-- A number, as the number of its digits and its digits. -/
def natBytes (n : Nat) : List UInt8 :=
  UInt8.ofNat (Nat.digits 256 n).length :: (Nat.digits 256 n).map UInt8.ofNat

/-- The number at the front of some bytes, and the bytes after it. -/
def readNat : List UInt8 → Nat × List UInt8
  | [] => (0, [])
  | n :: rest =>
    (Nat.ofDigits 256 ((rest.take n.toNat).map (·.toNat)), rest.drop n.toNat)

lemma digits_length (small : n < 256 ^ 17) : (Nat.digits 256 n).length ≤ 17 :=
  (Nat.digits_length_le_iff (by decide) n).mpr small

lemma readNat_natBytes (small : n < 256 ^ 17) (rest : List UInt8) :
    readNat (natBytes n ++ rest) = (n, rest) := by
  have length := digits_length small
  have count : (UInt8.ofNat (Nat.digits 256 n).length).toNat = (Nat.digits 256 n).length := by
    rw [UInt8.toNat_ofNat']
    omega
  have digits : ((Nat.digits 256 n).map UInt8.ofNat).map (·.toNat) = Nat.digits 256 n := by
    rw [List.map_map]
    conv_rhs => rw [← List.map_id (Nat.digits 256 n)]
    refine List.map_congr_left fun d mem => ?_
    have lt := Nat.digits_lt_base (by decide : 1 < 256) mem
    rw [comp_apply, UInt8.toNat_ofNat', id, Nat.mod_eq_of_lt lt]
  rw [natBytes, List.cons_append, readNat, count, List.take_left' (by simp),
    List.drop_left' (by simp), digits, Nat.ofDigits_digits]

/-- An identity that may be absent, as a number. -/
def optionNat : Option Uuid → Nat
  | none => 0
  | some u => u.toNat + 1

def natOption : Nat → Option Uuid
  | 0 => none
  | n + 1 => some (BitVec.ofNat 128 n)

lemma natOption_optionNat (u : Option Uuid) : natOption (optionNat u) = u := by
  cases u with
  | none => rfl
  | some u => simp [optionNat, natOption]

lemma optionNat_lt (u : Option Uuid) : optionNat u < 256 ^ 17 := by
  cases u with
  | none => decide
  | some u =>
    have lt : u.toNat < 2 ^ 128 := u.isLt
    have room : (2 : Nat) ^ 128 + 1 < 256 ^ 17 := by decide
    simp only [optionNat]
    omega

/-- The numbers of a record. -/
def recordNats (r : PgnoEnvelope Unit) : List Nat :=
  [r.eventId.toNat, r.aggregateId.val, r.sequence.val, (r.timestampNanos.val + 2 ^ 63).toNat,
    optionNat r.correlationId, optionNat r.causationId]

/-- The record with these numbers. -/
def natsRecord : List Nat → Except String (PgnoEnvelope Unit)
  | [eventId, aggregateId, sequence, nanos, correlationId, causationId] =>
    .ok ⟨BitVec.ofNat 128 eventId, Fin.ofNat _ aggregateId, Fin.ofNat _ sequence,
      i64OrMax (nanos - 2 ^ 63), natOption correlationId, natOption causationId, ()⟩
  | _ => .error "not a record"

def natsBytes : List Nat → List UInt8
  | [] => []
  | n :: rest => natBytes n ++ natsBytes rest

def readNats : Nat → List UInt8 → List Nat
  | 0, _ => []
  | k + 1, bytes => (readNat bytes).1 :: readNats k (readNat bytes).2

lemma readNats_natsBytes (small : ∀ n ∈ nats, n < 256 ^ 17) :
    readNats nats.length (natsBytes nats) = nats := by
  induction nats with
  | nil => rfl
  | cons n nats ih =>
    rw [List.forall_mem_cons] at small
    simp only [List.length_cons, readNats, natsBytes, readNat_natBytes small.1, ih small.2]

lemma recordNats_lt (r : PgnoEnvelope Unit) : ∀ n ∈ recordNats r, n < 256 ^ 17 := by
  have room : (2 : Nat) ^ 128 < 256 ^ 17 := by decide
  have eventId : r.eventId.toNat < 2 ^ 128 := r.eventId.isLt
  have aggregateId := r.aggregateId.isLt
  have sequence := r.sequence.isLt
  have nanos := r.timestampNanos.property
  simp only [recordNats, List.forall_mem_cons]
  refine ⟨by omega, by omega, by omega, by omega, optionNat_lt _, optionNat_lt _, ?_⟩
  exact fun _ mem => absurd mem List.not_mem_nil

lemma natsRecord_recordNats (r : PgnoEnvelope Unit) : natsRecord (recordNats r) = .ok r := by
  have nanos := r.timestampNanos.property
  have time : i64OrMax (((r.timestampNanos.val + 2 ^ 63).toNat : Int) - 2 ^ 63) =
      r.timestampNanos := by
    have e : ((r.timestampNanos.val + 2 ^ 63).toNat : Int) - 2 ^ 63 = r.timestampNanos.val := by
      omega
    rw [e, i64OrMax, dif_pos nanos]
  simp only [recordNats, natsRecord, time, natOption_optionNat, BitVec.ofNat_toNat,
    BitVec.setWidth_eq, Fin.ofNat_val_eq_self]

lemma natsBytes_length (small : ∀ n ∈ nats, n < 256 ^ 17) :
    (natsBytes nats).length ≤ 18 * nats.length := by
  induction nats with
  | nil => exact Nat.le_refl _
  | cons n nats ih =>
    rw [List.forall_mem_cons] at small
    have rest := ih small.2
    have first := digits_length small.1
    simp only [natsBytes, natBytes, List.length_append, List.length_cons, List.length_map]
    omega

/-- A codec for events that carry nothing. -/
def unitCodec : Codec Unit where
  toVec r := .ok (natsBytes (recordNats r))
  fromSlice bytes := natsRecord (readNats 6 bytes)
  newBytes bytes :=
    if h : bytes.length ≤ 2 ^ 32 - 1 then .ok ⟨bytes, h⟩ else .error "value too long"
  encodeType b := .ok b.bytes
  decodeType bytes :=
    if h : bytes.length ≤ 2 ^ 32 - 1 then .ok (⟨bytes, h⟩, bytes.length)
    else .error "value too long"
  fromNanosecond n := .ok n
  fromSlice_toVec {r json} e := by
    cases e
    exact (readNats_natsBytes (recordNats_lt r)).symm ▸ natsRecord_recordNats r
  newBytes_bytes {json b} e := by
    split at e <;> cases e
    rfl
  decodeType_encodeType {b bytes} e := by
    cases e
    exact dif_pos b.le
  fromNanosecond_i64 _ := rfl

lemma unitCodec_fits (payload : Unit) : Fits unitCodec payload := by
  intro record _
  have small := recordNats_lt record
  have short := natsBytes_length small
  have length : (recordNats record).length = 6 := rfl
  refine ⟨natsBytes (recordNats record), ?_⟩
  simp only [encodeRecord, unitCodec]
  rw [dif_pos (by omega)]
  rfl

end CherryPit.Pgno
