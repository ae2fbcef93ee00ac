import CherryPit.EventStore.PgnoLog

/-!
# The durable event store in use

The world that the calls of a store share, what their operations do to it, and the steps of the
system: calls on any number of threads, and reopens through `open_pgno` after the process has ended
at any point. When it ends, the calls that were under way are gone, and a write whose landing was
undetermined is in the file or is not.

A write is `Proper` if it was made under the lock of its aggregate, goes on with the numbers of the
stream, carries an identity that its writer drew, and starts a stream only if its writer allocated
the id. `World.orderly` says that all writes so far were.
-/

namespace CherryPit.Pgno

open Conc Store Function
open Projection (U64)

variable {E : Type} {s : Session}

/-- The lock of an aggregate. -/
inductive Lock where
  | free
  | held (i : Nat)
  | poisoned

/-- A store: the session, the counter of ids and the locks of the aggregates. Then who drew an
identity, who allocated ids, who allocated an id since the store was opened, and whether all writes
were proper. -/
structure World where
  session : Session
  nextId : U64
  locks : AggregateId → Lock
  drawn : Uuid → Option Nat
  allocs : List Nat
  owner : AggregateId → Option Nat
  orderly : Prop

namespace World

variable {id : AggregateId} {w : World} {i : Nat}

/-- Rust `create_pgno`. -/
def created : World where
  session := .opened [] 1
  nextId := 0
  locks _ := .free
  drawn _ := none
  allocs := []
  owner _ := none
  orderly := True

/-- The entries that were issued, one that may have landed included. -/
def issued (w : World) : List Entry := w.session.issued

/-- Caller `i` takes the next id; the counter wraps around. -/
def allocate (w : World) (i : Nat) : World where
  session := w.session
  nextId := w.nextId + 1
  locks := w.locks
  drawn := w.drawn
  allocs := w.allocs ++ [i]
  owner id := if id.get = w.nextId.val + 1 then some i else w.owner id
  orderly := w.orderly

/-- The lock of an aggregate changes. -/
def setLock (w : World) (id : AggregateId) (lock : Lock) : World :=
  { w with locks := update w.locks id lock }

/-- Caller `i` draws an identity. -/
def draw (w : World) (i : Nat) (u : Uuid) : World :=
  { w with drawn := update w.drawn u (some i) }

lemma allocate_owner_self (new : id.get = w.nextId.val + 1) : (w.allocate i).owner id = some i :=
  if_pos new

lemma allocate_owner_of_ne (old : id.get ≠ w.nextId.val + 1) :
    (w.allocate i).owner id = w.owner id :=
  if_neg old

lemma setLock_self (w : World) (id : AggregateId) (lock : Lock) :
    (w.setLock id lock).locks id = lock :=
  update_self ..

lemma setLock_of_ne {id' : AggregateId} {lock : Lock} (ne : id' ≠ id) :
    (w.setLock id lock).locks id' = w.locks id' :=
  update_of_ne ne ..

lemma draw_self (w : World) (i : Nat) (u : Uuid) : (w.draw i u).drawn u = some i :=
  update_self ..

lemma draw_of_ne {u v : Uuid} (ne : v ≠ u) : (w.draw i u).drawn v = w.drawn v :=
  update_of_ne ne ..

end World

/-- No envelope in the log has this identity. -/
def Unused (codec : Codec E) (u : Uuid) (log : List Entry) : Prop :=
  ∀ entry ∈ log, ∀ env, Carries codec entry env → env.eventId ≠ u

/-- Caller `i` may write this entry, the record of `env`. -/
structure Proper (codec : Codec E) (w : World) (i : Nat) (entry : Entry) (env : EventEnvelope E) :
    Prop where
  carries : Carries codec entry env
  held : w.locks env.aggregateId = .held i
  next : env.sequence.get = (streamOf codec env.aggregateId w.issued).length + 1
  drew : w.drawn env.eventId = some i
  unused : Unused codec env.eventId w.issued
  starts : streamOf codec env.aggregateId w.issued = [] → w.owner env.aggregateId = some i
  allocated : env.aggregateId.get ≤ w.nextId.val

/-- What an operation of caller `i` does. -/
def Performs (codec : Codec E) : Semantics sig (Call E) World := fun i _ w o w' =>
  match o with
  | .ready => fun r => w' = w ∧ r = w.session.ready
  | .fetchAdd => fun r => w' = w.allocate i ∧ r = w.nextId
  | .lockAggregate id => fun r =>
    (w.locks id = .free ∧ w' = w.setLock id (.held i) ∧ r = false) ∨
      (w.locks id = .poisoned ∧ w' = w ∧ r = true)
  | .unlockAggregate id panicking => fun _ =>
    w.locks id = .held i ∧ w' = w.setLock id (if panicking then .poisoned else .free)
  | .uuid => fun r => r ≠ 0 ∧ w.drawn r = none ∧ w' = w.draw i r
  | .now => fun _ => w' = w
  | .readAll => fun r =>
    ∃ entries, (∀ read, entries = .ok read → read.Perm w.session.log) ∧
      w' = w ∧ r = w.session.readAll entries
  | .record key eventId payload => fun r =>
    ∃ answers,
      r = (w.session.record answers ⟨key, eventId, payload, false, i⟩).2 ∧
      w' = { w with
        session := (w.session.record answers ⟨key, eventId, payload, false, i⟩).1
        orderly := w.orderly ∧ ∃ env, Proper codec w i ⟨key, eventId, payload, false, i⟩ env }

/-- A session ended and `open_pgno` succeeded. -/
inductive Reopens (codec : Codec E) (w : World) : World → Prop where
  | opened {file entries epoch maximum} :
    w.session.log <+: file →
    file <+: w.issued →
    entries.Perm file →
    maxId codec entries = .ok maximum →
    Reopens codec w
      { session := .opened file epoch
        nextId := maximum
        locks := fun _ => .free
        drawn := w.drawn
        allocs := w.allocs
        owner := fun _ => none
        orderly := w.orderly }

/-- The calls of a store. -/
abbrev Calls (E : Type) := Pool sig (Call E) World Failure (Reply E)

/-- The end of the process: a call that was under way is gone. -/
def cut : Slot sig (Call E) Failure (Reply E) → Slot sig (Call E) Failure (Reply E)
  | .run c (.op _ _) => .gone c
  | slot => slot

/-- What one step of the system does. -/
inductive Label (E : Type) where
  | step (l : Pool.Label sig (Call E))
  | reopen

/-- The caller of `create`, if the step starts such a call. -/
def Label.creator : Label E → Option Nat
  | .step (.call i (.create _ _)) => some i
  | _ => none

/-- Steps of a system whose operations do what `exec` says. -/
inductive SystemStep (codec : Codec E) (exec : Semantics sig (Call E) World) :
    Calls E → Label E → Calls E → Prop where
  | step {P l P'} :
    Pool.Step exec (fun _ _ => False) (program codec) (fun _ => True) P l P' →
    SystemStep codec exec P (.step l) P'
  | reopen {P w} :
    Reopens codec P.world w →
    SystemStep codec exec P .reopen { world := w, slots := fun i => cut (P.slots i) }

/-! ## Writes -/

/-- What a writing section can do to a session. -/
inductive Recorded (s : Session) (entry : Entry) : Session → Except StoreError Unit → Prop where
  | refused {e} :
    (∀ source, e ≠ .corruptData source) →
    Recorded s entry s (.error e)
  | stranded {diagnostic source} :
    s.uncertain = none →
    Recorded s entry { s with uncertain := some diagnostic, pending := some entry }
      (.error (.indeterminate source))
  | unsynced {retained source} :
    s.uncertain = none →
    Recorded s entry { s with log := s.log ++ [entry], uncertain := retained }
      (.error (.indeterminate source))
  | landed :
    s.uncertain = none →
    Recorded s entry { s with log := s.log ++ [entry] } (.ok ())

lemma ready_eq_ok (h : s.ready = .ok ()) : s.uncertain = none := by
  unfold Session.ready at h
  split at h
  · cases h
  · assumption

lemma ready_error {e : StoreError} (h : s.ready = .error e) :
    e.category = .reconciliationRequired := by
  unfold Session.ready at h
  split at h <;> cases h
  rfl

lemma not_corrupt_of_reconciliation {e : StoreError}
    (h : e.category = .reconciliationRequired) (source : String) : e ≠ .corruptData source := by
  rintro rfl
  cases h

lemma Session.recorded (s : Session) (a : Answers) (entry : Entry) :
    Recorded s entry (s.record a entry).1 (s.record a entry).2 := by
  unfold Session.record
  cases ready : s.ready with
  | error e => exact .refused (not_corrupt_of_reconciliation (ready_error ready))
  | ok =>
    have certain := ready_eq_ok ready
    cases a.fiber with
    | error e => exact .refused (by rintro source ⟨⟩)
    | ok =>
      dsimp only
      generalize (if s.isDetached entry.key then a.rescue else a.append) = landing
      cases landing with
      | error e => exact .refused (by rintro source ⟨⟩)
      | ok landing =>
        cases landing with
        | undetermined carriedEpoch diagnostic => exact .stranded certain
        | landed =>
          cases a.sync with
          | error failure => exact .unsynced certain
          | ok => exact .landed certain

/-- A writing section issues its entry at most once, at the end. -/
lemma Recorded.issued {s' : Session} {entry : Entry} {r : Except StoreError Unit}
    (settled : s.uncertain = none → s.pending = none) (h : Recorded s entry s' r) :
    s' = s ∨
      (s.uncertain = none ∧ s'.issued = s.issued ++ [entry] ∧ s.log <+: s'.log ∧
        (s'.uncertain = none → s'.pending = none)) := by
  cases h with
  | refused => exact .inl rfl
  | stranded certain =>
    refine .inr ⟨certain, ?_, List.prefix_refl _, by rintro ⟨⟩⟩
    simp [Session.issued, settled certain]
  | unsynced certain =>
    refine .inr ⟨certain, ?_, List.prefix_append _ _, fun _ => settled certain⟩
    simp [Session.issued, settled certain]
  | landed certain =>
    refine .inr ⟨certain, ?_, List.prefix_append _ _, fun _ => settled certain⟩
    simp [Session.issued, settled certain]

end CherryPit.Pgno
