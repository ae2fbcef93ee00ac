import CherryPit.Projection.Store

/-!
# What the calls do with the session

While a caller has the mutex, the session is its own: what a part of a program does in between is a
relation from the session and the notes of the caller before to those after and a result. `Section`
says that a program stays within such a relation, with a rule for each construct; `Reads`, `Puts`,
`Detaches` and `Syncs` are the relations of the single accesses, `Persists` and `Deletes` those of
the two sections that write, and `Returned` says what a call has done when it returns.

On the way every write is shown to be `Due` when it is issued: it follows from the log before it
that it may stand there. What holds of logs of due writes needs no look at the programs any more.
-/

namespace CherryPit.Projection

open Conc Function

variable {P : Type} {codec : Codec P} {name : String} {lastSequence : NonZeroU64} {s' : Session P}
  {n' : Notes P} {w' : World P} {v : Write P} {log : List (Write P)} {o : SessionOp}
  {record : Record} {bytes : SnapshotBytes}

/-! ## Sharing the session -/

/-- What caller `i` may rely on: nobody else writes its notes, and nobody else touches the session
while it has it. -/
structure Rely (i : Nat) (w w' : World P) : Prop where
  notes : w'.notes i = w.notes i
  held : ∀ {mutable}, w.lock = some (i, mutable) →
    w'.lock = some (i, mutable) ∧ w'.session = w.session
  free : ¬ w.Holds i → ¬ w'.Holds i

lemma Rely.refl (i : Nat) (w : World P) : Rely i w w := ⟨rfl, fun h => ⟨h, rfl⟩, id⟩

lemma Rely.trans {i : Nat} {w w'' : World P} (h : Rely i w w') (h' : Rely i w' w'') :
    Rely i w w'' where
  notes := h'.notes.trans h.notes
  held at' := by
    obtain ⟨lock, same⟩ := h.held at'
    obtain ⟨lock', same'⟩ := h'.held lock
    exact ⟨lock', same'.trans same⟩
  free := h'.free ∘ h.free

/-- All that an operation of caller `i` can do: note something, take the mutex, give it back, or
move the session forward while it has it to write. -/
inductive Effect (i : Nat) (w : World P) : SessionOp → World P → Prop where
  | note {o n} :
    n.seen = (w.notes i).seen →
    n.left = (w.notes i).left →
    Effect i w o (w.note i n)
  | take (m : Bool) : w.lock = none → Effect i w (.lock m) (w.take i m)
  | drop {m} : w.lock = some (i, m) → Effect i w .unlock (w.drop i m)
  | advance {o s n} :
    w.lock = some (i, true) →
    w.session.Older s →
    n.seen = (w.notes i).seen →
    n.left = (w.notes i).left →
    Effect i w o { w.note i n with session := s }

lemma Effect.refl (i : Nat) (w : World P) (o : SessionOp) : Effect i w o w := by
  have same : w.note i (w.notes i) = w := by simp [World.note]
  have effect : Effect i w o (w.note i (w.notes i)) := .note rfl rfl
  rwa [same] at effect

lemma Effect.session {i : Nat} {w : World P} {s : Session P} (lock : w.lock = some (i, true))
    (older : w.session.Older s) :
    Effect i w o { w with session := s } := by
  have same : { w.note i (w.notes i) with session := s } = { w with session := s } := by
    simp [World.note]
  have effect : Effect i w o { w.note i (w.notes i) with session := s } :=
    .advance lock older rfl rfl
  rwa [same] at effect

lemma Performs.effect {i : Nat} {c : Call P} {w : World P} {o r} (ex : Performs i c w o w' r) :
    Effect i w o w' := by
  cases o with
  | lock m =>
    obtain ⟨rfl, -⟩ | ⟨unlocked, rfl, -⟩ := ex
    · exact .note rfl rfl
    · exact .take m unlocked
  | unlock =>
    obtain ⟨m, lock, rfl⟩ := ex
    exact .drop lock
  | encodePayload record =>
    obtain ⟨rfl, -⟩ | ⟨rfl, -⟩ := ex
    · exact .refl i _ _
    · exact .note rfl rfl
  | fiber key =>
    obtain ⟨-, ⟨rfl, -⟩ | ⟨rfl, -⟩⟩ := ex
    · exact .refl i _ _
    · exact .note rfl rfl
  | getLatest key =>
    obtain ⟨-, ⟨rfl, -⟩ | ⟨rfl, -⟩⟩ := ex
    · exact .refl i _ _
    · exact .note rfl rfl
  | write kind key record =>
    obtain ⟨lock, ⟨-, rfl, -⟩ | ⟨d, rfl, -⟩ | ⟨rfl, -⟩⟩ := ex
    · exact .session lock (w.session.older_land _)
    · exact .session lock (w.session.older_strand _ d)
    · exact .note rfl rfl
  | sync =>
    obtain ⟨lock, ⟨rfl, -⟩ | ⟨failure, rfl, -⟩⟩ := ex
    · exact .note rfl rfl
    · exact .advance lock (w.session.older_unsynced _) rfl rfl

/-- The others see only that the mutex is taken, and the session move while they do not have it. -/
lemma Effect.rely {i j : Nat} {w : World P} (h : Effect i w o w') (ne : i ≠ j) : Rely j w w' := by
  cases h with
  | note =>
    exact ⟨update_of_ne ne.symm _ _, fun at' => ⟨at', rfl⟩, id⟩
  | take m unlocked =>
    refine ⟨update_of_ne ne.symm _ _, ?_, ?_⟩
    · intro m' at'
      rw [unlocked] at at'
      cases at'
    · rintro - ⟨m', at'⟩
      cases at'
      exact ne rfl
  | drop lock =>
    refine ⟨update_of_ne ne.symm _ _, ?_, ?_⟩
    · intro m' at'
      cases lock.symm.trans at'
      exact absurd rfl ne
    · rintro - ⟨m', ⟨⟩⟩
  | advance lock =>
    refine ⟨update_of_ne ne.symm _ _, ?_, id⟩
    intro m' at'
    cases lock.symm.trans at'
    exact absurd rfl ne

/-- Sessions only move forward. -/
lemma Effect.older {i : Nat} {w : World P} (h : Effect i w o w') : w.session.Older w'.session := by
  cases h with
  | note | take | drop => exact .refl _
  | advance _ older => exact older

/-- Caller `i` has the mutex, the session is `s` and its notes are `n`. -/
structure Held (i : Nat) (mutable : Bool) (s : Session P) (n : Notes P) (w : World P) : Prop where
  lock : w.lock = some (i, mutable)
  session : w.session = s
  notes : w.notes i = n

lemma Held.rely {i : Nat} {m : Bool} {s : Session P} {n : Notes P} {w : World P}
    (h : Held i m s n w) (r : Rely i w w') : Held i m s n w' := by
  obtain ⟨lock, same⟩ := r.held h.lock
  exact ⟨lock, same.trans h.session, r.notes.trans h.notes⟩

lemma Held.note {i : Nat} {m : Bool} {s : Session P} {n : Notes P} {w : World P}
    (h : Held i m s n w) (n' : Notes P) : Held i m s n' (w.note i n') :=
  ⟨h.lock, h.session, update_self ..⟩

/-- Caller `i` does not have the mutex, and its notes are `n`. -/
structure Free (i : Nat) (n : Notes P) (w : World P) : Prop where
  free : ¬ w.Holds i
  notes : w.notes i = n

lemma Free.rely {i : Nat} {n : Notes P} {w : World P} (h : Free i n w) (r : Rely i w w') :
    Free i n w' :=
  ⟨r.free h.free, r.notes.trans h.notes⟩

lemma Free.note {i : Nat} {n : Notes P} {w : World P} (h : Free i n w) (n' : Notes P) :
    Free i n' (w.note i n') :=
  ⟨h.free, update_self ..⟩

/-! ## Due writes -/

/-- A persist of this sequence is no regression of the checkpoint. -/
def Clear (name : String) (id : AggregateId) (lastSequence : NonZeroU64) (log : List (Write P)) :
    Prop :=
  ∃ existing, checkpointIn name id log = .ok existing ∧
    checkRegression lastSequence existing = .ok ()

/-- The snapshot fiber shows what this persist wrote. -/
structure Snapshotted (codec : Codec P) (name : String) (id : AggregateId) (p : P)
    (lastSequence : NonZeroU64) (log : List (Write P)) (v : Write P) : Prop where
  last : lastWrite log (snapshotKey id name) = some v
  live : v.kind ≠ .detach
  call : v.call = .persist id p lastSequence
  record : ∃ bytes, encodeSnapshot codec p = .ok bytes ∧
    v.payload = .ok (snapshotRecord name id bytes)

/-- The writes that may follow a log. -/
inductive Due (codec : Codec P) (name : String) (log : List (Write P)) : Write P → Prop where
  | snapshot {id p lastSequence bytes kind} :
    encodeSnapshot codec p = .ok bytes →
    Clear name id lastSequence log →
    kind ≠ .detach →
    Due codec name log
      ⟨kind, snapshotKey id name, .ok (snapshotRecord name id bytes), .persist id p lastSequence⟩
  | checkpoint {id p lastSequence v kind} :
    Snapshotted codec name id p lastSequence log v →
    Clear name id lastSequence log →
    kind ≠ .detach →
    Due codec name log ⟨kind, checkpointKey id name, .ok (checkpointRecord name id lastSequence),
      .persist id p lastSequence⟩
  | removeCheckpoint {id} :
    Due codec name log ⟨.detach, checkpointKey id name,
      .ok (.tombstone (u64 id.id) name kindCheckpoint), .delete id⟩
  | removeSnapshot {id} :
    fiberState log (checkpointKey id name) ≠ .active →
    Due codec name log ⟨.detach, snapshotKey id name,
      .ok (.tombstone (u64 id.id) name kindSnapshot), .delete id⟩

/-- Only calls that write have due writes. -/
lemma Due.writes (h : Due codec name log v) : v.call.writes = true := by
  cases h <;> rfl

/-- When caller `i` in call `c` may perform an operation. -/
def Allowed (codec : Codec P) (name : String) (i : Nat) (c : Call P) (w : World P) :
    SessionOp → Prop
  | .lock mutable => (w.notes i).seen mutable = none
  | .write kind key record =>
    w.session.uncertain = none ∧ Due codec name w.session.log ⟨kind, key, .ok record, c⟩
  | .sync => w.session.uncertain = none ∧ c.writes = true
  | _ => True

/-- Assumptions under which a call can be proved: nobody interferes with a section, and operations
that are allowed keep the invariant. -/
structure Suits (codec : Codec P) (name : String) (A : Assume (World P)) (i : Nat) (c : Call P) :
    Prop where
  rely : ∀ {w w'}, A.rely w w' → Rely i w w'
  keep : ∀ {w o w' r}, A.inv w → Allowed codec name i c w o → Performs i c w o w' r → A.inv w'

/-! ## Sections -/

/-- A result with the session and the notes that a program leaves. -/
abbrev Outcome (P α : Type) := Session P → Notes P → ProjectionResult α → Prop

/-- Run by caller `i` in its section from `s` and `n`, the program leaves what `R` allows. -/
def Section {α : Type} (A : Assume (World P)) (i : Nat) (c : Call P) (mutable : Bool)
    (p : StoreProg α) (s : Session P) (n : Notes P) (R : Outcome P α) : Prop :=
  ∀ w, A.inv w → Held i mutable s n w →
    wp Performs A i c (fun x v => ∃ s' n', Held i mutable s' n' v ∧ R s' n' x) p w

namespace Section

variable {A : Assume (World P)} {i : Nat} {c : Call P} {m : Bool} {s : Session P} {n : Notes P}
  {α β : Type} {f : ProjectionError WriteDiagnostic → ProjectionError WriteDiagnostic}
  {R : Outcome P α} {p : StoreProg α} {R' : Outcome P β}

lemma ofExcept (fit : Suits codec name A i c) {x : ProjectionResult α} (h : R s n x) :
    Section A i c m (.ofExcept x) s n R := by
  intro w _ at'
  apply wp_ofExcept
  intro v rel _
  exact ⟨s, n, at'.rely (fit.rely rel), h⟩

lemma bind {f : α → StoreProg β} (first : Section A i c m p s n R)
    (next : ∀ a s' n', R s' n' (.ok a) → Section A i c m (f a) s' n' R')
    (err : ∀ e s' n', R s' n' (.error e) → R' s' n' (.error e)) :
    Section A i c m (p >>= f) s n R' := by
  intro w inv at'
  refine wp_seq inv (first w inv at') ?_ ?_
  · rintro a v inv' ⟨s', n', at2, h⟩
    exact next a s' n' h v inv' at2
  · rintro e v - ⟨s', n', at2, h⟩
    exact ⟨s', n', at2, err e s' n' h⟩

lemma mapError {R' : Outcome P α} (h : Section A i c m p s n R)
    (imp : ∀ s' n' x, R s' n' x → R' s' n' (x.mapError f)) :
    Section A i c m (p.mapError f) s n R' := by
  intro w inv at'
  apply wp_mapError
  refine wp_conseq ?_ (h w inv at')
  rintro x v - ⟨s', n', at2, hx⟩
  exact ⟨s', n', at2, imp s' n' x hx⟩

/-- A step whose error is renamed. -/
lemma bindMapError {g : α → StoreProg β} (first : Section A i c m p s n R)
    (next : ∀ a s' n', R s' n' (.ok a) → Section A i c m (g a) s' n' R')
    (err : ∀ e s' n', R s' n' (.error e) → R' s' n' (.error (f e))) :
    Section A i c m (p.mapError f >>= g) s n R' := by
  refine bind (R := fun s' n' x => ∃ y, R s' n' y ∧ x = y.mapError f)
    (mapError first fun s' n' x h => ⟨x, h, rfl⟩) ?_ ?_
  · rintro a s' n' ⟨y, h, same⟩
    cases y <;> cases same
    exact next a s' n' h
  · rintro e s' n' ⟨y, h, same⟩
    cases y <;> cases same
    exact err _ s' n' h

lemma conseq {R' : Outcome P α} (h : Section A i c m p s n R)
    (imp : ∀ s' n' x, R s' n' x → R' s' n' x) : Section A i c m p s n R' := by
  intro w inv at'
  refine wp_conseq ?_ (h w inv at')
  rintro x v - ⟨s', n', at2, hx⟩
  exact ⟨s', n', at2, imp s' n' x hx⟩

/-- One access to the session. -/
lemma attempt (fit : Suits codec name A i c) {f : o.Res → ProjectionResult α}
    (allowed : ∀ {w}, Held i m s n w → Allowed codec name i c w o)
    (access : ∀ {w w' r}, Held i m s n w → Performs i c w o w' r →
      ∃ s' n', Held i m s' n' w' ∧ R s' n' (f r)) :
    Section A i c m (Prog.attempt (S := sessionSig) o f) s n R := by
  intro w _ at'
  apply wp_attempt
  intro w' rel inv w'' r ex
  have at2 := at'.rely (fit.rely rel)
  refine ⟨fit.keep inv (allowed at2) ex, ?_⟩
  intro v rel' _
  obtain ⟨s', n', at3, h⟩ := access at2 ex
  exact ⟨s', n', at3.rely (fit.rely rel'), h⟩

end Section

/-- An access that reads a value. -/
inductive Reads {α : Type} (s : Session P) (n : Notes P) (value : ProjectionResult α) :
    Outcome P α where
  | read : Reads s n value s n value
  | failed (e : String) : Reads s n value s n.fail (.error (.infrastructure e))

/-- An access that makes a write. -/
inductive Puts (s : Session P) (n : Notes P) (v : Write P) : Outcome P Unit where
  | landed : Puts s n v (s.land v) n (.ok ())
  | stranded (diagnostic : String) :
    Puts s n v (s.strand v diagnostic) n (.error (.indeterminate (.undetermined s.epoch)))
  | failed (e : String) : Puts s n v s n.fail (.error (.infrastructure e))

/-- An access that detaches a fiber if it is active. -/
inductive Detaches (s : Session P) (n : Notes P) (v : Write P) : Outcome P Unit where
  | idle : fiberState s.log v.key ≠ .active → Detaches s n v s n (.ok ())
  | put {s' n' x} :
    fiberState s.log v.key = .active → Puts s n v s' n' x → Detaches s n v s' n' x

/-- The `sync` of a section, with its error. -/
inductive Syncs (s : Session P) (n : Notes P)
    (error : SyncFailure → ProjectionError WriteDiagnostic) :
    Outcome P Unit where
  | synced : Syncs s n error s (n.sync (.ok ())) (.ok ())
  | failed (failure : SyncFailure) :
    Syncs s n error (s.unsynced failure.retained) (n.fail.sync (.error failure))
      (.error (error failure))

namespace Section

variable {A : Assume (World P)} {i : Nat} {c : Call P} {m : Bool} {s : Session P} {n : Notes P}
  {α : Type} {key : String}

lemma fiber (fit : Suits codec name A i c) (key : String) :
    Section A i c m (.attempt (.fiber key) toInfra) s n
      (Reads s n (.ok (fiberState s.log key))) := by
  refine attempt fit (fun _ => trivial) ?_
  rintro w w' r at' ⟨-, ⟨rfl, rfl⟩ | ⟨rfl, e, rfl⟩⟩
  · refine ⟨s, n, at', ?_⟩
    rw [at'.session]
    exact .read
  · rw [at'.notes]
    exact ⟨s, n.fail, at'.note _, .failed e⟩

lemma getLatest (fit : Suits codec name A i c) (key : String) :
    Section A i c m (.attempt (.getLatest key) toInfra) s n
      (Reads s n (.ok (latest s.log key))) := by
  refine attempt fit (fun _ => trivial) ?_
  rintro w w' r at' ⟨-, ⟨rfl, rfl⟩ | ⟨rfl, e, rfl⟩⟩
  · refine ⟨s, n, at', ?_⟩
    rw [at'.session]
    exact .read
  · rw [at'.notes]
    exact ⟨s, n.fail, at'.note _, .failed e⟩

lemma encodePayload (fit : Suits codec name A i c) (record : Record) :
    Section A i c m (.attempt (.encodePayload record) toInfra) s n (Reads s n (.ok ())) := by
  refine attempt fit (fun _ => trivial) ?_
  rintro w w' r at' (⟨rfl, rfl⟩ | ⟨rfl, e, rfl⟩)
  · exact ⟨s, n, at', .read⟩
  · rw [at'.notes]
    exact ⟨s, n.fail, at'.note _, .failed e⟩

lemma readFiber (fit : Suits codec name A i c) (key : String)
    (decode : Payload → ProjectionResult (Option α)) :
    Section A i c m (readFiber key decode) s n (Reads s n (fiberIn s.log key decode)) := by
  unfold Projection.readFiber fiberIn
  refine bind (fiber fit key) ?_ ?_
  · rintro handle s' n' ⟨⟩
    split
    · refine bind (getLatest fit key) ?_ ?_
      · rintro env s' n' ⟨⟩
        split
        · exact ofExcept fit .read
        · exact ofExcept (x := .ok none) fit .read
      · rintro e s' n' ⟨⟩
        exact .failed _
    · exact ofExcept (x := .ok none) fit .read
  · rintro e s' n' ⟨⟩
    exact .failed _

/-- One write, with the check of its verdict. -/
lemma write (fit : Suits codec name A i c) {kind : WriteKind} (certain : s.uncertain = none)
    (due : Due codec name s.log ⟨kind, key, .ok record, c⟩) :
    Section A i c true
      (.attempt (.write kind key record) toInfra >>= fun verdict =>
        .ofExcept (requireLanded verdict))
      s n (Puts s n ⟨kind, key, .ok record, c⟩) := by
  have step : Section A i c true (.attempt (.write kind key record) toInfra) s n fun s' n' x =>
      Puts s n ⟨kind, key, .ok record, c⟩ s' n' (x >>= requireLanded) := by
    refine attempt fit ?_ ?_
    · intro w at'
      exact ⟨by rw [at'.session, certain], by rw [at'.session]; exact due⟩
    · rintro w w' r at' ⟨-, ⟨-, rfl, rfl⟩ | ⟨d, rfl, rfl⟩ | ⟨rfl, e, rfl⟩⟩
      · refine ⟨_, n, ⟨at'.lock, rfl, at'.notes⟩, ?_⟩
        rw [at'.session]
        exact .landed
      · refine ⟨_, n, ⟨at'.lock, rfl, at'.notes⟩, ?_⟩
        rw [at'.session]
        exact .stranded d
      · rw [at'.notes]
        exact ⟨s, n.fail, at'.note _, .failed e⟩
  refine bind step ?_ ?_
  · intro verdict s' n' h
    exact ofExcept fit h
  · intro e s' n' h
    exact h

lemma writeFiber (fit : Suits codec name A i c) (certain : s.uncertain = none)
    (due : Due codec name s.log ⟨(fiberState s.log key).writeKind, key, .ok record, c⟩) :
    Section A i c true (writeFiber key record) s n
      (Puts s n ⟨(fiberState s.log key).writeKind, key, .ok record, c⟩) := by
  refine bind (fiber fit key) ?_ ?_
  · rintro handle s' n' ⟨⟩
    exact write fit certain due
  · rintro e s' n' ⟨⟩
    exact .failed _

lemma detachFiber (fit : Suits codec name A i c) {tombstone : Record}
    (certain : s.uncertain = none) (due : Due codec name s.log ⟨.detach, key, .ok tombstone, c⟩) :
    Section A i c true (detachFiber (fiberState s.log key) key tombstone) s n
      (Detaches s n ⟨.detach, key, .ok tombstone, c⟩) := by
  unfold Projection.detachFiber
  split
  · rename_i active
    refine bind (encodePayload fit tombstone) ?_ ?_
    · rintro ⟨⟩ s' n' ⟨⟩
      exact conseq (write fit certain due) fun s' n' x put => .put active put
    · rintro e s' n' ⟨⟩
      exact .put active (.failed _)
  · rename_i inactive
    exact ofExcept (x := .ok ()) fit (.idle inactive)

lemma sync (fit : Suits codec name A i c) (certain : s.uncertain = none) (writes : c.writes = true)
    (error : SyncFailure → ProjectionError WriteDiagnostic) :
    Section A i c true (.attempt .sync fun r => r.mapError error) s n (Syncs s n error) := by
  refine attempt fit ?_ ?_
  · intro w at'
    exact ⟨by rw [at'.session, certain], writes⟩
  · rintro w w' r at' ⟨-, ⟨rfl, rfl⟩ | ⟨failure, rfl, rfl⟩⟩
    · rw [at'.notes]
      exact ⟨s, _, at'.note _, .synced⟩
    · rw [at'.notes, at'.session]
      exact ⟨_, _, ⟨at'.lock, rfl, update_self ..⟩, .failed failure⟩

end Section

/-! ## The sections of `persist` and `delete` -/

/-- The write of a snapshot after `log`. -/
def snapshotWrite (name : String) (id : AggregateId) (p : P) (lastSequence : NonZeroU64)
    (bytes : SnapshotBytes) (log : List (Write P)) : Write P where
  kind := (fiberState log (snapshotKey id name)).writeKind
  key := snapshotKey id name
  payload := .ok (snapshotRecord name id bytes)
  call := .persist id p lastSequence

/-- The write of a checkpoint after `log`. -/
def checkpointWrite (name : String) (id : AggregateId) (p : P) (lastSequence : NonZeroU64)
    (log : List (Write P)) : Write P where
  kind := (fiberState log (checkpointKey id name)).writeKind
  key := checkpointKey id name
  payload := .ok (checkpointRecord name id lastSequence)
  call := .persist id p lastSequence

/-- The write that removes a fiber. -/
def removal (id : AggregateId) (name : String) (key : String) (kind : UInt8) : Write P where
  kind := .detach
  key := key
  payload := .ok (.tombstone (u64 id.id) name kind)
  call := .delete id

/-- What the section of a `persist` leaves. -/
inductive Persists (name : String) (id : AggregateId) (p : P) (lastSequence : NonZeroU64)
    (bytes : SnapshotBytes) (s : Session P) (n : Notes P) : Outcome P Unit where
  | unread {s' n' e} :
    Reads s n (checkpointIn name id s.log) s' n' (.error e) →
    Persists name id p lastSequence bytes s n s' n' (.error e)
  | regressed {existing e} :
    checkpointIn name id s.log = .ok existing →
    checkRegression lastSequence existing = .error e →
    Persists name id p lastSequence bytes s n s n (.error e)
  | snapshot {s' n' e} :
    Clear name id lastSequence s.log →
    Puts s n (snapshotWrite name id p lastSequence bytes s.log) s' n' (.error e) →
    Persists name id p lastSequence bytes s n s' n' (.error e)
  | checkpoint {s1 s' n' e} :
    Clear name id lastSequence s.log →
    s1 = s.land (snapshotWrite name id p lastSequence bytes s.log) →
    Puts s1 n (checkpointWrite name id p lastSequence s1.log) s' n' (.error e) →
    Persists name id p lastSequence bytes s n s' n' (.error (.indeterminate (.snapshotLanded e)))
  | sync {s1 s' n' x} :
    Clear name id lastSequence s.log →
    s1 = s.land (snapshotWrite name id p lastSequence bytes s.log) →
    Syncs (s1.land (checkpointWrite name id p lastSequence s1.log)) n
      (fun failure => .indeterminate (.checkpointLanded failure.error)) s' n' x →
    Persists name id p lastSequence bytes s n s' n' x

/-- What the section of a `delete` leaves after the checkpoint. -/
inductive Remains (name : String) (id : AggregateId) (s : Session P) (n : Notes P) :
    Outcome P Unit where
  | unread (e : String) : Remains name id s n s n.fail (.error (.infrastructure e))
  | snapshot {s' n' e} :
    Detaches s n (removal id name (snapshotKey id name) kindSnapshot) s' n' (.error e) →
    Remains name id s n s' n' (.error e)
  | sync {s1 n1 s' n' x} :
    Detaches s n (removal id name (snapshotKey id name) kindSnapshot) s1 n1 (.ok ()) →
    Syncs s1 n1 (fun failure => if fiberState s.log (snapshotKey id name) = .active then
      .indeterminate (.snapshotRemoved failure.error) else .infrastructure failure.error) s' n' x →
    Remains name id s n s' n' x

/-- What the section of a `delete` leaves. -/
inductive Deletes (name : String) (id : AggregateId) (s : Session P) (n : Notes P) :
    Outcome P Unit where
  | unread (e : String) : Deletes name id s n s n.fail (.error (.infrastructure e))
  | checkpoint {s' n' e} :
    Detaches s n (removal id name (checkpointKey id name) kindCheckpoint) s' n' (.error e) →
    Deletes name id s n s' n' (.error e)
  | remaining {s1 n1 s' n' x} :
    Detaches s n (removal id name (checkpointKey id name) kindCheckpoint) s1 n1 (.ok ()) →
    Remains name id s1 n1 s' n' x →
    Deletes name id s n s' n' (x.mapError fun error =>
      if fiberState s.log (checkpointKey id name) = .active then
        .indeterminate (.checkpointRemoved error) else error)

lemma writeKind_ne_detach (handle : FiberState) : handle.writeKind ≠ .detach := by
  cases handle <;> decide

variable {id : AggregateId}

/-- Writing to a snapshot does not move a checkpoint. -/
lemma Clear.land (h : Clear name id lastSequence log) (other : v.key ≠ checkpointKey id name) :
    Clear name id lastSequence (log ++ [v]) := by
  obtain ⟨existing, shown, allowed⟩ := h
  refine ⟨existing, ?_, allowed⟩
  unfold checkpointIn fiberIn at shown ⊢
  rw [fiberState_congr (lastWrite_of_ne log other)]
  unfold latest at shown ⊢
  rw [lastWrite_of_ne log other]
  exact shown

/-- A detached fiber is not active. -/
lemma not_active_of_detach {u : Write P} (kind : u.kind = .detach) :
    fiberState (log ++ [u]) u.key ≠ .active := by
  rw [ne_eq, fiberState_active]
  rintro ⟨v, last, live⟩
  cases (lastWrite_self log rfl).symm.trans last
  exact live kind

/-- A checkpoint fiber that is not active after its removal. -/
lemma Detaches.inactive {s : Session P} {n : Notes P} (kind : v.kind = .detach)
    (h : Detaches s n v s' n' (.ok ())) : fiberState s'.log v.key ≠ .active := by
  cases h with
  | idle inactive => exact inactive
  | put _ put =>
    cases put
    exact not_active_of_detach kind

lemma Detaches.certain {s : Session P} {n : Notes P} (h : Detaches s n v s' n' (.ok ())) :
    s'.uncertain = s.uncertain := by
  cases h with
  | idle => rfl
  | put _ put =>
    cases put
    rfl

/-! ## What a call leaves -/

/-- What taking the session, running a section on it and giving it back leaves in the notes. -/
inductive Took {α : Type} (m : Bool) (n : Notes P) (R : Session P → Notes P → Outcome P α) :
    Notes P → ProjectionResult α → Prop where
  | poisoned : Took m n R n.fail (.error (.infrastructure "session mutex poisoned"))
  | uncertain {s doubt} :
    s.uncertain = some doubt →
    Took m n R ((n.take m s).drop m s)
      (.error (.indeterminate (.retainedUncertainty s.epoch doubt.diagnostic)))
  | ran {s s' n' x} :
    s.uncertain = none →
    R s (n.take m s) s' n' x →
    Took m n R (n'.drop m s') x

/-- A call that has returned `x` with notes as `R` allows. -/
def Returned {α : Type} (i : Nat) (R : Notes P → ProjectionResult α → Prop)
    (x : ProjectionResult α) (v : World P) : Prop :=
  ∃ n, Free i n v ∧ R n x

/-- Nothing is done with the session. -/
def Idles (s : Session P) (n : Notes P) : Outcome P Unit :=
  fun s' n' x => s' = s ∧ n' = n ∧ x = .ok ()

/-- What a `persist` leaves. -/
inductive PersistReturns (codec : Codec P) (name : String) (id : AggregateId) (p : P)
    (lastSequence : NonZeroU64) : Notes P → ProjectionResult Unit → Prop where
  | unready {n e} :
    Took false .blank Idles n (.error e) →
    PersistReturns codec name id p lastSequence n (.error e)
  | unencoded {n e} :
    Took false .blank Idles n (.ok ()) →
    encodeSnapshot codec p = .error e →
    PersistReturns codec name id p lastSequence n (.error e)
  | unpacked {n} (e : String) :
    Took false .blank Idles n (.ok ()) →
    PersistReturns codec name id p lastSequence n.fail (.error (.infrastructure e))
  | ran {n bytes n' x} :
    Took false .blank Idles n (.ok ()) →
    encodeSnapshot codec p = .ok bytes →
    Took true n (Persists name id p lastSequence bytes) n' x →
    PersistReturns codec name id p lastSequence n' x

/-- What a call leaves. -/
inductive CallReturns (codec : Codec P) (name : String) :
    Call P → Notes P → ProjectionResult (Reply P) → Prop where
  | persist {id p lastSequence n x} :
    PersistReturns codec name id p lastSequence n x →
    CallReturns codec name (.persist id p lastSequence) n (x.map fun _ => .done)
  | delete {id n x} :
    Took true .blank (Deletes name id) n x →
    CallReturns codec name (.delete id) n (x.map fun _ => .done)
  | loadSnapshot {id n x} :
    Took false .blank (fun s n => Reads s n (snapshotIn codec name id s.log)) n x →
    CallReturns codec name (.loadSnapshot id) n (x.map .snapshot)
  | loadCheckpoint {id n x} :
    Took false .blank (fun s n => Reads s n (checkpointIn name id s.log)) n x →
    CallReturns codec name (.loadCheckpoint id) n (x.map .checkpoint)

/-! The notes tell what was done with the session. -/

lemma Reads.seen {α : Type} {s : Session P} {n : Notes P} {value x : ProjectionResult α}
    (h : Reads s n value s' n' x) : n'.seen = n.seen := by
  cases h <;> rfl

lemma Puts.seen {s : Session P} {n : Notes P} {x} (h : Puts s n v s' n' x) : n'.seen = n.seen := by
  cases h <;> rfl

lemma Detaches.seen {s : Session P} {n : Notes P} {x} (h : Detaches s n v s' n' x) :
    n'.seen = n.seen := by
  cases h with
  | idle => rfl
  | put _ put => exact put.seen

lemma Syncs.seen {s : Session P} {n : Notes P} {error x} (h : Syncs s n error s' n' x) :
    n'.seen = n.seen := by
  cases h <;> rfl

lemma Persists.seen {p : P} {s : Session P} {n : Notes P} {x}
    (h : Persists name id p lastSequence bytes s n s' n' x) : n'.seen = n.seen := by
  cases h with
  | unread h => exact h.seen
  | regressed => rfl
  | snapshot _ h => exact h.seen
  | checkpoint _ _ h => exact h.seen
  | sync _ _ h => exact h.seen

lemma Deletes.seen {s : Session P} {n : Notes P} {x} (h : Deletes name id s n s' n' x) :
    n'.seen = n.seen := by
  cases h with
  | unread => rfl
  | checkpoint h => exact h.seen
  | remaining h rest =>
    rw [← h.seen]
    cases rest with
    | unread => rfl
    | snapshot h => exact h.seen
    | sync h last => rw [last.seen, h.seen]

/-- A caller that has not taken the session to write, or what it did with it. -/
lemma Took.section {α : Type} {n0 n : Notes P} {R : Session P → Notes P → Outcome P α}
    {x : ProjectionResult α} (h : Took true n0 R n x)
    (keeps : ∀ {s n s' n' x}, R s n s' n' x → n'.seen = n.seen) :
    (n = n0.fail ∧ ∃ e, x = .error e) ∨
    ∃ s s', n.seen true = some s ∧ n.left true = some s' ∧
      ((s.uncertain ≠ none ∧ s' = s ∧ n = (n0.take true s).drop true s ∧ ∃ e, x = .error e) ∨
      (s.uncertain = none ∧ ∃ n', R s (n0.take true s) s' n' x ∧ n = n'.drop true s')) := by
  cases h with
  | poisoned => exact .inl ⟨rfl, _, rfl⟩
  | @uncertain s doubt unsure =>
    refine .inr ⟨s, s, by simp [Notes.take, Notes.drop], by simp [Notes.drop],
      .inl ⟨?_, rfl, rfl, _, rfl⟩⟩
    rw [unsure]
    exact Option.some_ne_none doubt
  | @ran s s' n' _ certain run =>
    refine .inr ⟨s, s', ?_, by simp [Notes.drop], .inr ⟨certain, n', run, rfl⟩⟩
    simp [Notes.drop, keeps run, Notes.take]

section Calls

variable {A : Assume (World P)} {i : Nat} {s : Session P} {n : Notes P}

lemma Section.persistLocked {p : P} (fit : Suits codec name A i (.persist id p lastSequence))
    (encoded : encodeSnapshot codec p = .ok bytes) (certain : s.uncertain = none) :
    Section A i (.persist id p lastSequence) true (persistLocked name id bytes lastSequence) s n
      (Persists name id p lastSequence bytes s n) := by
  refine bind (readFiber fit _ _) ?_ fun e s' n' h => .unread h
  intro existing s' n' loaded
  obtain ⟨shown, rfl, rfl⟩ :
      checkpointIn name id s.log = .ok existing ∧ s = s' ∧ n = n' := by
    generalize value : fiberIn s.log _ _ = x at loaded
    cases loaded
    exact ⟨value, rfl, rfl⟩
  refine bind (R := fun s' n' x => s = s' ∧ n = n' ∧ x = checkRegression lastSequence existing)
    (ofExcept fit ⟨rfl, rfl, rfl⟩) ?_ ?_
  · rintro ⟨⟩ _ _ ⟨rfl, rfl, passed⟩
    have clear : Clear name id lastSequence s.log := ⟨existing, shown, passed.symm⟩
    refine bind (writeFiber fit certain (.snapshot encoded clear (writeKind_ne_detach _))) ?_
      fun e s' n' h => .snapshot clear h
    rintro ⟨⟩ s1 n1 ⟨⟩
    -- the checkpoint is due because the snapshot of this call is the last write of its fiber
    have due : Due codec name (s.land (snapshotWrite name id p lastSequence bytes s.log)).log
        (checkpointWrite name id p lastSequence
          (s.land (snapshotWrite name id p lastSequence bytes s.log)).log) :=
      .checkpoint ⟨lastWrite_self _ rfl, writeKind_ne_detach _, rfl, bytes, encoded, rfl⟩
        (clear.land (snapshotKey_ne id id name name)) (writeKind_ne_detach _)
    refine bindMapError (writeFiber fit certain due) ?_ fun e s' n' h => .checkpoint clear rfl h
    rintro ⟨⟩ s2 n2 ⟨⟩
    refine conseq (sync fit ?_ rfl _) fun s' n' x h => .sync clear rfl h
    exact certain
  · rintro e _ _ ⟨rfl, rfl, refused⟩
    exact .regressed shown refused.symm

lemma Section.deleteRemaining (fit : Suits codec name A i (.delete id))
    (certain : s.uncertain = none) (gone : fiberState s.log (checkpointKey id name) ≠ .active) :
    Section A i (.delete id) true (deleteRemaining name id) s n (Remains name id s n) := by
  refine bind (fiber fit _) ?_ ?_
  · rintro handle s' n' ⟨⟩
    refine bind (detachFiber fit certain (.removeSnapshot gone)) ?_ fun e s' n' h => .snapshot h
    rintro ⟨⟩ s1 n1 detached
    refine conseq (sync fit (detached.certain.trans certain) rfl _) ?_
    intro s' n' x h
    exact .sync detached h
  · rintro e s' n' ⟨⟩
    exact .unread _

lemma Section.deleteLocked (fit : Suits codec name A i (.delete id))
    (certain : s.uncertain = none) :
    Section A i (.delete id) true (deleteLocked name id) s n (Deletes name id s n) := by
  refine bind (fiber fit _) ?_ ?_
  · rintro handle s' n' ⟨⟩
    refine bind (detachFiber fit certain .removeCheckpoint) ?_ fun e s' n' h => .checkpoint h
    rintro ⟨⟩ s1 n1 detached
    have gone := detached.inactive rfl
    refine mapError (deleteRemaining fit (detached.certain.trans certain) gone) ?_
    intro s' n' x h
    exact .remaining detached h
  · rintro e s' n' ⟨⟩
    exact .unread _

lemma Held.drop {i : Nat} {m : Bool} {s : Session P} {n : Notes P} {w : World P} {c : Call P} {r}
    (at' : Held i m s n w) (ex : Performs i c w .unlock w' r) : Free i (n.drop m s) w' := by
  obtain ⟨m', lock, rfl⟩ := ex
  cases at'.lock.symm.trans lock
  refine ⟨?_, ?_⟩
  · rintro ⟨m', ⟨⟩⟩
  · rw [← at'.notes, ← at'.session]
    exact update_self ..

variable {c : Call P} {m : Bool} {w : World P} {α : Type}

lemma wp_unlock (fit : Suits codec name A i c) {x : ProjectionResult α}
    {Q : ProjectionResult α → World P → Prop} (at' : Held i m s n w)
    (h : ∀ v, Free i (n.drop m s) v → Q x v) :
    wp Performs A i c Q (.op .unlock fun _ => .ofExcept x : StoreProg α) w := by
  intro w' rel inv w'' r ex
  refine ⟨fit.keep (o := .unlock) inv trivial ex, wp_ofExcept ?_⟩
  intro v rel' _
  exact h v (((at'.rely (fit.rely rel)).drop ex).rely (fit.rely rel'))

/-- The session is the caller's, or the call is over. -/
lemma wp_readySession (fit : Suits codec name A i c) {R : Session P → Notes P → Outcome P α}
    (at' : Free i n w) (unseen : n.seen m = none) :
    wp Performs A i c
      (fun x v => match x with
        | .ok _ => ∃ s, s.uncertain = none ∧ Held i m s (n.take m s) v
        | .error e => Returned i (Took m n R) (.error e) v) (readySession m) w := by
  intro w' rel inv w'' r ex
  have at2 := at'.rely (fit.rely rel)
  have allowed : Allowed codec name i c w' (.lock m) := by
    rw [Allowed, at2.notes]
    exact unseen
  refine ⟨fit.keep (o := .lock m) inv allowed ex, ?_⟩
  obtain ⟨rfl, rfl⟩ | ⟨-, rfl, rfl⟩ := ex
  · intro v rel' _
    rw [at2.notes] at rel'
    exact ⟨n.fail, (at2.note n.fail).rely (fit.rely rel'), .poisoned⟩
  · have at3 : Held i m w'.session (n.take m w'.session) (w'.take i m) :=
      ⟨rfl, rfl, by rw [← at2.notes]; exact update_self ..⟩
    cases certain : w'.session.uncertain with
    | none =>
      intro v rel' _
      exact ⟨_, certain, at3.rely (fit.rely rel')⟩
    | some doubt =>
      exact wp_unlock fit (x := .error _) at3 fun v at4 => ⟨_, at4, .uncertain certain⟩

lemma wp_withSession (fit : Suits codec name A i c) {body : StoreProg α}
    {R : Session P → Notes P → Outcome P α} (at' : Free i n w) (inv : A.inv w)
    (unseen : n.seen m = none)
    (run : ∀ s n, s.uncertain = none → Section A i c m body s n (R s n)) :
    wp Performs A i c (Returned i (Took m n R)) (withSession m body) w := by
  refine wp_seq inv (wp_readySession fit at' unseen) ?_ fun e v _ h => h
  rintro ⟨⟩ v inv' ⟨s, certain, at2⟩
  refine wp_seq inv' (wp_result (Q := fun x v' => ∃ y, x = .ok y ∧ ∃ s' n', Held i m s' n' v' ∧
    R s (n.take m s) s' n' y) ?_) ?_ ?_
  · refine wp_conseq ?_ (run s _ certain v inv' at2)
    intro y v' _ h
    exact ⟨y, rfl, h⟩
  · rintro x v' - ⟨y, ⟨⟩, s', n', at3, h⟩
    exact wp_unlock fit at3 fun u at4 => ⟨_, at4, .ran certain h⟩
  · rintro e v' - ⟨y, ⟨⟩, -⟩

/-- The probe of a `persist` leaves no trace of writing. -/
lemma Took.probed {n : Notes P} (h : Took false .blank Idles n (.ok ())) :
    ∃ s, n = (Notes.blank.take false s).drop false s := by
  generalize e : Except.ok () = x at h
  cases h with
  | poisoned | uncertain => cases e
  | ran certain idle =>
    obtain ⟨rfl, rfl, -⟩ := idle
    exact ⟨_, rfl⟩

lemma Took.probed_seen {n : Notes P} (h : Took false .blank Idles n (.ok ())) :
    n.seen true = none := by
  obtain ⟨s, rfl⟩ := h.probed
  rfl

/-- A persist that has not taken the session to write, or what it did with it. -/
lemma PersistReturns.section {p : P} {x} (h : PersistReturns codec name id p lastSequence n x) :
    (n.seen true = none ∧ ∃ e, x = .error e) ∨
    ∃ s s', n.seen true = some s ∧ n.left true = some s' ∧
      ((s.uncertain ≠ none ∧ s' = s ∧ ∃ e, x = .error e) ∨
      (s.uncertain = none ∧ ∃ bytes n0 n', encodeSnapshot codec p = .ok bytes ∧
        Persists name id p lastSequence bytes s n0 s' n' x ∧ n = n'.drop true s')) := by
  cases h with
  | @unready _ e ready =>
    refine .inl ⟨?_, e, rfl⟩
    generalize failed : Except.error e = y at ready
    cases ready with
    | poisoned | uncertain => rfl
    | ran _ idle =>
      obtain ⟨-, -, rfl⟩ := idle
      cases failed
  | @unencoded _ e ready => exact .inl ⟨ready.probed_seen, e, rfl⟩
  | unpacked e ready => exact .inl ⟨ready.probed_seen, _, rfl⟩
  | ran ready encoded took =>
    obtain ⟨rfl, e, rfl⟩ | ⟨s, s', seen, left, h⟩ := took.section fun h => h.seen
    · exact .inl ⟨ready.probed_seen, e, rfl⟩
    · refine .inr ⟨s, s', seen, left, ?_⟩
      obtain ⟨unsure, same, -, e, rfl⟩ | ⟨certain, n', persists, rfl⟩ := h
      · exact .inl ⟨unsure, same, e, rfl⟩
      · exact .inr ⟨certain, _, _, n', encoded, persists, rfl⟩

/-- Packing a record outside the session. -/
lemma wp_encodePayload (fit : Suits codec name A i c) {Q : ProjectionResult Unit → World P → Prop}
    (at' : Free i n w) (ok : ∀ v, Free i n v → Q (.ok ()) v)
    (bad : ∀ e v, Free i n.fail v → Q (.error (.infrastructure e)) v) :
    wp Performs A i c Q (.attempt (.encodePayload record) toInfra : StoreProg Unit) w := by
  apply wp_attempt
  intro w' rel inv w'' r ex
  have at2 := at'.rely (fit.rely rel)
  refine ⟨fit.keep (o := .encodePayload record) inv trivial ex, ?_⟩
  intro v rel' _
  obtain ⟨rfl, rfl⟩ | ⟨rfl, e, rfl⟩ := ex
  · exact ok v (at2.rely (fit.rely rel'))
  · rw [at2.notes] at rel'
    exact bad e v ((at2.note n.fail).rely (fit.rely rel'))

lemma wp_persist {p : P} (fit : Suits codec name A i (.persist id p lastSequence))
    (at' : Free i .blank w) (inv : A.inv w) :
    wp Performs A i (.persist id p lastSequence)
      (Returned i (PersistReturns codec name id p lastSequence))
      (persist codec name id p lastSequence) w := by
  have probe : wp Performs A i (.persist id p lastSequence)
      (Returned i (Took false .blank Idles)) (withSession false (.ret ())) w :=
    wp_withSession fit at' inv rfl fun s n _ =>
      Section.ofExcept fit (x := .ok ()) ⟨rfl, rfl, rfl⟩
  refine wp_seq inv probe ?_ fun e v _ ⟨n, at2, h⟩ => ⟨n, at2, .unready h⟩
  rintro ⟨⟩ v1 inv1 ⟨n, at1, ready⟩
  refine wp_seq inv1 (wp_ofExcept (Q := fun x v => Free i n v ∧ x = encodeSnapshot codec p)
    fun v rel _ => ⟨at1.rely (fit.rely rel), rfl⟩) ?_ ?_
  · rintro bytes v2 inv2 ⟨at2, encoded⟩
    have pack : ∀ {record v}, Free i n v → wp Performs A i (.persist id p lastSequence)
        (fun x v => match x with
          | .ok _ => Free i n v
          | .error e => Returned i (PersistReturns codec name id p lastSequence) (.error e) v)
        (.attempt (.encodePayload record) toInfra : StoreProg Unit) v := by
      intro record v at3
      exact wp_encodePayload fit at3 (fun _ h => h) fun e _ h => ⟨_, h, .unpacked e ready⟩
    refine wp_seq inv2 (pack at2) ?_ fun _ _ _ h => h
    intro _ v3 inv3 at3
    refine wp_seq inv3 (pack at3) ?_ fun _ _ _ h => h
    intro _ v4 inv4 at4
    refine wp_conseq ?_ (wp_withSession fit at4 inv4 ready.probed_seen fun s n certain =>
      Section.persistLocked fit encoded.symm certain)
    rintro x v - ⟨n', at5, h⟩
    exact ⟨n', at5, .ran ready encoded.symm h⟩
  · rintro e v - ⟨at2, encoded⟩
    exact ⟨n, at2, .unencoded ready encoded.symm⟩

/-- A call with its result packed up. -/
lemma wp_reply {β : Type} (fit : Suits codec name A i c) {p : StoreProg β} {g : β → Reply P}
    {R : Notes P → ProjectionResult β → Prop} {R' : Notes P → ProjectionResult (Reply P) → Prop}
    (inv : A.inv w) (h : wp Performs A i c (Returned i R) p w)
    (imp : ∀ n x, R n x → R' n (x.map g)) :
    wp Performs A i c (Returned i R') (p >>= fun a => .ret (g a)) w := by
  refine wp_seq inv h ?_ ?_
  · rintro a v - ⟨n, at2, ha⟩ v' rel -
    exact ⟨n, at2.rely (fit.rely rel), imp n _ ha⟩
  · rintro e v - ⟨n, at2, he⟩
    exact ⟨n, at2, imp n _ he⟩

/-- What a call leaves, whatever the others do. -/
theorem wp_program (fit : Suits codec name A i c) (at' : Free i .blank w) (inv : A.inv w) :
    wp Performs A i c (Returned i (CallReturns codec name c)) (program codec name c) w := by
  cases c with
  | persist id p lastSequence =>
    exact wp_reply fit inv (wp_persist fit at' inv) fun n x h => .persist h
  | delete id =>
    refine wp_reply fit inv (wp_withSession fit at' inv rfl ?_) fun n x h => .delete h
    intro s n certain
    exact Section.deleteLocked fit certain
  | loadSnapshot id =>
    refine wp_reply fit inv (wp_withSession fit at' inv rfl ?_) fun n x h => .loadSnapshot h
    intro s n _
    exact Section.readFiber fit _ _
  | loadCheckpoint id =>
    refine wp_reply fit inv (wp_withSession fit at' inv rfl ?_) fun n x h => .loadCheckpoint h
    intro s n _
    exact Section.readFiber fit _ _

end Calls

end CherryPit.Projection
