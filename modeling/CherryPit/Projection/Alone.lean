import CherryPit.Projection.Runs

/-!
# Calls that have the store to themselves

What a load can return, as a function of the session (`loadSnapshot_result`,
`loadCheckpoint_result`), and that a call over a substrate that does not fail does return
(`loadSnapshot_exec`, `loadCheckpoint_exec`, `persist_exec`).
-/

namespace CherryPit.Projection

open Conc

variable {P : Type} {codec : Codec P} {name : String} {i : Nat} {c : Call P} {w w' : World P}
  {α : Type} {x : ProjectionResult α} {bytes : SnapshotBytes}
  {value : List (Write P) → ProjectionResult α} {lastSequence : NonZeroU64} {s : Session P}
  {body : StoreProg α} {record : Record} {p : P} {key : String} {kind : UInt8} {n : Notes P}
  {v : Write P}

/-! ## What loads return -/

/-- All that a load can come to. -/
lemma Took.loaded (h : Took false .blank (fun s n => Reads s n (value s.log)) n x) :
    (n.failed = true ∧ ∃ e, x = .error (.infrastructure e)) ∨
    ∃ s, n.seen false = some s ∧
      ((∃ doubt, s.uncertain = some doubt ∧
        x = .error (.indeterminate (.retainedUncertainty s.epoch doubt.diagnostic))) ∨
      (s.uncertain = none ∧ x = value s.log)) := by
  cases h with
  | poisoned => exact .inl ⟨rfl, _, rfl⟩
  | uncertain doubt => exact .inr ⟨_, rfl, .inl ⟨_, doubt, rfl⟩⟩
  | ran certain reads =>
    cases reads with
    | read => exact .inr ⟨_, rfl, .inr ⟨certain, rfl⟩⟩
    | failed e => exact .inl ⟨rfl, e, rfl⟩

/-- A load that has found nothing but this session. -/
lemma Took.loaded_from (h : Took false .blank (fun s n => Reads s n (value s.log)) n x)
    (only : ∀ {m s'}, n.seen m = some s' → s' = s) (certain : s.uncertain = none) :
    (n.failed = true ∧ ∃ e, x = .error (.infrastructure e)) ∨ x = value s.log := by
  obtain failed | ⟨s', seen, ⟨doubt, unsure, -⟩ | ⟨-, rfl⟩⟩ := h.loaded
  · exact .inl failed
  · rw [only seen, certain] at unsure
    cases unsure
  · exact .inr (by rw [only seen])

/-- Nobody has moved the session, and caller `i` has found nothing else. -/
structure Unmoved (s : Session P) (i : Nat) (w : World P) : Prop where
  now : w.session = s
  seen : ∀ {m s'}, (w.notes i).seen m = some s' → s' = s

lemma Performs.unmoved {o r} (reads : c.writes = false) (allowed : Allowed codec name i c w o)
    (ex : Performs i c w o w' r) : w'.session = w.session := by
  cases o with
  | lock m => obtain ⟨rfl, -⟩ | ⟨-, rfl, -⟩ := ex <;> rfl
  | unlock =>
    obtain ⟨m, -, rfl⟩ := ex
    rfl
  | encodePayload record => obtain ⟨rfl, -⟩ | ⟨rfl, -⟩ := ex <;> rfl
  | fiber key => obtain ⟨-, ⟨rfl, -⟩ | ⟨rfl, -⟩⟩ := ex <;> rfl
  | getLatest key => obtain ⟨-, ⟨rfl, -⟩ | ⟨rfl, -⟩⟩ := ex <;> rfl
  | write kind key record =>
    cases reads.symm.trans allowed.2.writes
  | sync => cases reads.symm.trans allowed.2

lemma unmoved_suits (reads : c.writes = false) :
    Suits codec name (Assume.solo (Unmoved s i)) i c where
  rely e := e ▸ .refl i _
  keep {w o w' r} inv allowed ex := by
    refine ⟨(ex.unmoved reads allowed).trans inv.now, ?_⟩
    intro m s' at'
    obtain before | rfl := ex.effect.seen at'
    · exact inv.seen before
    · exact inv.now

lemma load_returns {x : ProjectionResult (Reply P)} (reads : c.writes = false)
    (fresh : Free i .blank w) (ex : Exec Performs i c w (program codec name c) w' x) :
    CallReturns codec name c (w'.notes i) x ∧
      ∀ {m s}, (w'.notes i).seen m = some s → s = w.session := by
  have unmoved : Unmoved w.session i w := by
    refine ⟨rfl, ?_⟩
    intro m s at'
    rw [fresh.notes] at at'
    cases at'
  obtain ⟨inv, n, at', returns⟩ :=
    wp_exec (wp_program (unmoved_suits reads) fresh unmoved) unmoved ex
  rw [at'.notes]
  exact ⟨returns, fun seen => inv.seen (at'.notes ▸ seen)⟩

lemma loadSnapshot_result {id : AggregateId} {x : ProjectionResult (Reply P)}
    (fresh : Free i .blank w) (certain : w.session.uncertain = none)
    (ex : Exec Performs i (.loadSnapshot id) w (program codec name (.loadSnapshot id)) w' x) :
    ((w'.notes i).failed = true ∧ ∃ e, x = .error (.infrastructure e)) ∨
      x = (snapshotIn codec name id w.session.log).map .snapshot := by
  obtain ⟨returns, only⟩ := load_returns rfl fresh ex
  cases returns with
  | loadSnapshot took =>
    obtain ⟨failed, e, rfl⟩ | rfl := took.loaded_from only certain
    · exact .inl ⟨failed, e, rfl⟩
    · exact .inr rfl

lemma loadCheckpoint_result {id : AggregateId} {x : ProjectionResult (Reply P)}
    (fresh : Free i .blank w) (certain : w.session.uncertain = none)
    (ex : Exec Performs i (.loadCheckpoint id) w (program codec name (.loadCheckpoint id)) w' x) :
    ((w'.notes i).failed = true ∧ ∃ e, x = .error (.infrastructure e)) ∨
      x = (checkpointIn name id w.session.log).map .checkpoint := by
  obtain ⟨returns, only⟩ := load_returns rfl fresh ex
  cases returns with
  | loadCheckpoint took =>
    obtain ⟨failed, e, rfl⟩ | rfl := took.loaded_from only certain
    · exact .inl ⟨failed, e, rfl⟩
    · exact .inr rfl

/-! ## Calls that meet no failure -/

/-- The answers of a substrate that does not fail. -/
def Succeeds : (o : SessionOp) → o.Res → Prop
  | .lock _, r => r ≠ .poisoned
  | .unlock, _ => True
  | .encodePayload _, r => r = .ok ()
  | .fiber _, r => ∃ state, r = .ok state
  | .getLatest _, r => ∃ payload, r = .ok payload
  | .write _ _ _, r => r = .ok .landed
  | .sync, r => r = .ok ()

/-- The operations over a substrate that does not fail. -/
def Reliably : Semantics sessionSig (Call P) (World P) := fun i c w o w' r =>
  Performs i c w o w' r ∧ Succeeds o r

/-- An operation has one outcome. -/
lemma Reliably.unique {o : SessionOp} {w1 w2 : World P} {r1 r2 : o.Res}
    (h1 : Reliably i c w o w1 r1) (h2 : Reliably i c w o w2 r2) : w1 = w2 ∧ r1 = r2 := by
  obtain ⟨p1, s1⟩ := h1
  obtain ⟨p2, s2⟩ := h2
  cases o with
  | lock m =>
    obtain ⟨-, rfl⟩ | ⟨-, rfl, rfl⟩ := p1
    · exact absurd rfl s1
    · obtain ⟨-, rfl⟩ | ⟨-, rfl, rfl⟩ := p2
      · exact absurd rfl s2
      · exact ⟨rfl, rfl⟩
  | unlock =>
    obtain ⟨m, held, rfl⟩ := p1
    obtain ⟨m', held', rfl⟩ := p2
    cases held.symm.trans held'
    exact ⟨rfl, rfl⟩
  | encodePayload record =>
    cases s1
    cases s2
    obtain ⟨rfl, -⟩ | ⟨-, _, ⟨⟩⟩ := p1
    obtain ⟨rfl, -⟩ | ⟨-, _, ⟨⟩⟩ := p2
    exact ⟨rfl, rfl⟩
  | fiber key =>
    obtain ⟨state, rfl⟩ := s1
    obtain ⟨state', rfl⟩ := s2
    obtain ⟨-, ⟨rfl, ⟨⟩⟩ | ⟨-, _, ⟨⟩⟩⟩ := p1
    obtain ⟨-, ⟨rfl, ⟨⟩⟩ | ⟨-, _, ⟨⟩⟩⟩ := p2
    exact ⟨rfl, rfl⟩
  | getLatest key =>
    obtain ⟨payload, rfl⟩ := s1
    obtain ⟨payload', rfl⟩ := s2
    obtain ⟨-, ⟨rfl, same⟩ | ⟨-, _, ⟨⟩⟩⟩ := p1
    obtain ⟨-, ⟨rfl, same'⟩ | ⟨-, _, ⟨⟩⟩⟩ := p2
    exact ⟨rfl, same.trans same'.symm⟩
  | write kind key record =>
    cases s1
    cases s2
    obtain ⟨-, ⟨-, rfl, -⟩ | ⟨_, -, ⟨⟩⟩ | ⟨-, _, ⟨⟩⟩⟩ := p1
    obtain ⟨-, ⟨-, rfl, -⟩ | ⟨_, -, ⟨⟩⟩ | ⟨-, _, ⟨⟩⟩⟩ := p2
    exact ⟨rfl, rfl⟩
  | sync =>
    cases s1
    cases s2
    obtain ⟨-, ⟨rfl, -⟩ | ⟨_, -, ⟨⟩⟩⟩ := p1
    obtain ⟨-, ⟨rfl, -⟩ | ⟨_, -, ⟨⟩⟩⟩ := p2
    exact ⟨rfl, rfl⟩

lemma Reliably.exec (run : Exec Reliably i c w body w' x) : Exec Performs i c w body w' x :=
  run.mono And.left

/-- The mutex does not fail; the body may. -/
lemma withSession_exec {exec : Semantics sessionSig (Call P) (World P)}
    (includes : ∀ {w o w' r}, Reliably i c w o w' r → exec i c w o w' r) {m : Bool}
    (unlocked : w.lock = none) (certain : w.session.uncertain = none)
    (run : Exec exec i c (w.take i m) body w' x) (lock : w'.lock = some (i, m)) :
    Exec exec i c w (withSession m body) (w'.drop i m) x := by
  have ready : Exec exec i c w (readySession m) (w.take i m) (.ok ()) := by
    have taken : Reliably i c w (.lock m) (w.take i m) (.locked none) :=
      ⟨.inr ⟨unlocked, rfl, by rw [certain]; rfl⟩, by rintro ⟨⟩⟩
    exact .op (includes taken) .ret
  have dropped : Reliably i c w' .unlock (w'.drop i m) () := ⟨⟨m, lock, rfl⟩, trivial⟩
  exact ready.bind (run.result.bind (.op (includes dropped) (.ofExcept x)))

lemma fiber_exec (holds : w.Holds i) (key : String) :
    Exec Reliably i c w (.attempt (.fiber key) toInfra) w (.ok (fiberState w.session.log key)) := by
  have read : Reliably i c w (.fiber key) w (.ok (fiberState w.session.log key)) :=
    ⟨⟨holds, .inl ⟨rfl, rfl⟩⟩, _, rfl⟩
  exact .op read .ret

lemma encodePayload_exec (record : Record) :
    Exec Reliably i c w (.attempt (.encodePayload record) toInfra) w (.ok ()) := by
  have packed : Reliably i c w (.encodePayload record) w (.ok ()) := ⟨.inl ⟨rfl, rfl⟩, rfl⟩
  exact .op packed .ret

lemma readFiber_exec (holds : w.Holds i) (key : String)
    (decode : Payload → ProjectionResult (Option α)) :
    Exec Reliably i c w (readFiber key decode) w (fiberIn w.session.log key decode) := by
  unfold readFiber fiberIn
  refine (fiber_exec holds key).bind ?_
  split
  · have read : Reliably i c w (.getLatest key) w (.ok (latest w.session.log key)) :=
      ⟨⟨holds, .inl ⟨rfl, rfl⟩⟩, _, rfl⟩
    refine Exec.bind (.op read .ret) ?_
    cases latest w.session.log key with
    | some payload => exact .ofExcept (decode payload)
    | none => exact .ret
  · exact .ret

lemma writeKind_fits (f : FiberState) : f.writeKind.fits f := by
  cases f with
  | absent => exact fun h => by cases h
  | active => exact fun h => by cases h
  | detached => exact rfl

/-- A write that fits its fiber lands. -/
lemma write_exec (lock : w.lock = some (i, true))
    (fits : v.kind.fits (fiberState w.session.log v.key)) (payload : v.payload = .ok record)
    (call : v.call = c) :
    Exec Reliably i c w (do
      let verdict ← .attempt (.write v.kind v.key record) toInfra
      .ofExcept (requireLanded verdict)) { w with session := w.session.land v } (.ok ()) := by
  have same : v = ⟨v.kind, v.key, .ok record, c⟩ := by
    rw [← payload, ← call]
  have landed : Reliably i c w (.write v.kind v.key record)
      { w with session := w.session.land v } (.ok .landed) :=
    ⟨⟨lock, .inl ⟨fits, by rw [← same], rfl⟩⟩, rfl⟩
  exact Exec.bind (.op landed .ret) .ret

lemma writeFiber_exec (lock : w.lock = some (i, true))
    (kind : v.kind = (fiberState w.session.log v.key).writeKind)
    (payload : v.payload = .ok record) (call : v.call = c) :
    Exec Reliably i c w (writeFiber v.key record) { w with session := w.session.land v }
      (.ok ()) := by
  refine (fiber_exec ⟨true, lock⟩ v.key).bind ?_
  rw [← kind]
  exact write_exec lock (kind ▸ writeKind_fits _) payload call

lemma sync_exec {f : Except SyncFailure Unit → ProjectionResult Unit} (ok : f (.ok ()) = .ok ())
    (lock : w.lock = some (i, true)) :
    Exec Reliably i c w (.attempt .sync f) (w.note i ((w.notes i).sync (.ok ()))) (.ok ()) := by
  have synced : Reliably i c w .sync (w.note i ((w.notes i).sync (.ok ()))) (.ok ()) :=
    ⟨⟨lock, .inl ⟨rfl, rfl⟩⟩, rfl⟩
  refine .op synced ?_
  rw [ok]
  exact .ret

lemma loadCheckpoint_exec (unlocked : w.lock = none) (certain : w.session.uncertain = none)
    (id : AggregateId) :
    Exec Reliably i (.loadCheckpoint id) w (program codec name (.loadCheckpoint id))
      ((w.take i false).drop i false) ((checkpointIn name id w.session.log).map .checkpoint) :=
  (withSession_exec (fun h => h) unlocked certain
    (readFiber_exec (w := w.take i false) ⟨false, rfl⟩ _ _) rfl).map

lemma loadSnapshot_exec (unlocked : w.lock = none) (certain : w.session.uncertain = none)
    (id : AggregateId) :
    Exec Reliably i (.loadSnapshot id) w (program codec name (.loadSnapshot id))
      ((w.take i false).drop i false) ((snapshotIn codec name id w.session.log).map .snapshot) :=
  (withSession_exec (fun h => h) unlocked certain
    (readFiber_exec (w := w.take i false) ⟨false, rfl⟩ _ _) rfl).map

/-- A session after a `persist`. -/
def Session.persisted (s : Session P) (name : String) (id : AggregateId) (p : P)
    (lastSequence : NonZeroU64) (bytes : SnapshotBytes) : Session P :=
  let s1 := s.land (snapshotWrite name id p lastSequence bytes s.log)
  s1.land (checkpointWrite name id p lastSequence s1.log)

lemma Session.persisted_checkpoint (s : Session P) (id : AggregateId) (p : P)
    (lastSequence : NonZeroU64) (bytes : SnapshotBytes) :
    checkpointIn name id (s.persisted name id p lastSequence bytes).log =
      .ok (some ⟨id, name, lastSequence⟩) := by
  have last := lastWrite_self (s.land (snapshotWrite name id p lastSequence bytes s.log)).log
    (v := checkpointWrite name id p lastSequence
      (s.land (snapshotWrite name id p lastSequence bytes s.log)).log) rfl
  exact checkpointIn_record (fiberState_active.mpr ⟨_, last, writeKind_ne_detach _⟩) last rfl

lemma Session.persisted_snapshot (s : Session P) {id : AggregateId} (lastSequence : NonZeroU64)
    (encoded : encodeSnapshot codec p = .ok bytes) :
    snapshotIn codec name id (s.persisted name id p lastSequence bytes).log =
      .ok (some (codec.restored p)) := by
  have snapshot : Snapshotted codec name id p lastSequence
      (s.land (snapshotWrite name id p lastSequence bytes s.log)).log
      (snapshotWrite name id p lastSequence bytes s.log) :=
    ⟨lastWrite_self _ rfl, writeKind_ne_detach _, rfl, bytes, encoded, rfl⟩
  exact (snapshot.land (snapshotKey_ne id id name name).symm).snapshotIn

lemma persistLocked_exec {id : AggregateId} (lock : w.lock = some (i, true))
    (clear : Clear name id lastSequence w.session.log) :
    ∃ n, Exec Reliably i (.persist id p lastSequence) w (persistLocked name id bytes lastSequence)
      { w.note i n with session := w.session.persisted name id p lastSequence bytes } (.ok ()) := by
  obtain ⟨existing, shown, passed⟩ := clear
  refine ⟨(w.notes i).sync (.ok ()), ?_⟩
  have load : Exec Reliably i (.persist id p lastSequence) w (loadCheckpointFromSession name id) w
      (.ok existing) := by
    rw [← shown]
    exact readFiber_exec ⟨true, lock⟩ _ _
  refine load.bind ?_
  rw [passed]
  let w1 : World P :=
    { w with session := w.session.land (snapshotWrite name id p lastSequence bytes w.session.log) }
  have snapshot : Exec Reliably i (.persist id p lastSequence) w
      (writeFiber (snapshotKey id name) (snapshotRecord name id bytes)) w1 (.ok ()) :=
    writeFiber_exec (v := snapshotWrite name id p lastSequence bytes w.session.log) lock rfl rfl rfl
  have checkpoint : Exec Reliably i (.persist id p lastSequence) w1
      (writeFiber (checkpointKey id name) (checkpointRecord name id lastSequence))
      { w with session := w.session.persisted name id p lastSequence bytes } (.ok ()) :=
    writeFiber_exec (w := w1) (v := checkpointWrite name id p lastSequence w1.session.log)
      lock rfl rfl rfl
  refine Exec.bind .ret (snapshot.bind (Exec.bind checkpoint.mapError ?_))
  exact sync_exec (w := { w with session := w.session.persisted name id p lastSequence bytes }) rfl
    lock

/-- A `persist` that has the store to itself and meets no failure. -/
lemma persist_exec {id : AggregateId} (unlocked : w.lock = none)
    (certain : w.session.uncertain = none) (encoded : encodeSnapshot codec p = .ok bytes)
    (clear : Clear name id lastSequence w.session.log) :
    ∃ w', Exec Reliably i (.persist id p lastSequence) w
        (program codec name (.persist id p lastSequence)) w' (.ok .done) ∧
      w'.session = w.session.persisted name id p lastSequence bytes ∧ w'.lock = none ∧
      w'.lastWriter = some i := by
  let w1 := (w.take i false).drop i false
  have probe : Exec Reliably i (.persist id p lastSequence) w (withSession false (.ret ())) w1
      (.ok ()) := withSession_exec (fun h => h) unlocked certain .ret rfl
  obtain ⟨n, run⟩ : ∃ n, Exec Reliably i (.persist id p lastSequence) (w1.take i true)
      (persistLocked name id bytes lastSequence) { (w1.take i true).note i n with
        session := w.session.persisted name id p lastSequence bytes } (.ok ()) :=
    persistLocked_exec rfl clear
  let w2 : World P := { (w1.take i true).note i n with
    session := w.session.persisted name id p lastSequence bytes }
  have written : Exec Reliably i (.persist id p lastSequence) w1
      (withSession true (persistLocked name id bytes lastSequence)) (w2.drop i true) (.ok ()) :=
    withSession_exec (fun h => h) rfl certain run rfl
  have call : Exec Reliably i (.persist id p lastSequence) w (persist codec name id p lastSequence)
      (w2.drop i true) (.ok ()) := by
    refine probe.bind ?_
    rw [encoded]
    exact Exec.bind .ret
      ((encodePayload_exec _).bind ((encodePayload_exec _).bind written))
  exact ⟨w2.drop i true, call.bind .ret, rfl, rfl, rfl⟩

/-- A `persist` with a lower sequence is refused and writes nothing. -/
lemma persist_refused_exec {id : AggregateId} {existing : Option ProjectionCheckpoint}
    {e : ProjectionError WriteDiagnostic} (unlocked : w.lock = none)
    (certain : w.session.uncertain = none) (encoded : encodeSnapshot codec p = .ok bytes)
    (shown : checkpointIn name id w.session.log = .ok existing)
    (refused : checkRegression lastSequence existing = .error e) :
    ∃ w', Exec Reliably i (.persist id p lastSequence) w
        (program codec name (.persist id p lastSequence)) w' (.error e) ∧
      w'.session = w.session ∧ w'.lock = none := by
  let w1 := (w.take i false).drop i false
  have probe : Exec Reliably i (.persist id p lastSequence) w (withSession false (.ret ())) w1
      (.ok ()) := withSession_exec (fun h => h) unlocked certain .ret rfl
  have load : Exec Reliably i (.persist id p lastSequence) (w1.take i true)
      (loadCheckpointFromSession name id) (w1.take i true) (.ok existing) := by
    rw [← shown]
    exact readFiber_exec ⟨true, rfl⟩ _ _
  have refusal : Exec Reliably i (.persist id p lastSequence) (w1.take i true)
      (persistLocked name id bytes lastSequence) (w1.take i true) (.error e) := by
    refine load.bind ?_
    rw [refused]
    exact .raise
  have ended : Exec Reliably i (.persist id p lastSequence) w1
      (withSession true (persistLocked name id bytes lastSequence)) ((w1.take i true).drop i true)
      (.error e) := withSession_exec (fun h => h) rfl certain refusal rfl
  have call : Exec Reliably i (.persist id p lastSequence) w (persist codec name id p lastSequence)
      ((w1.take i true).drop i true) (.error e) := by
    refine probe.bind ?_
    rw [encoded]
    exact Exec.bind .ret ((encodePayload_exec _).bind ((encodePayload_exec _).bind ended))
  exact ⟨_, call.bind_error, rfl, rfl⟩

/-- A session after a fiber was detached, if it was active. -/
def Session.detached (s : Session P) (name : String) (id : AggregateId) (key : String)
    (kind : UInt8) : Session P :=
  if fiberState s.log key = .active then s.land (removal id name key kind) else s

/-- A session after a `delete`. -/
def Session.deleted (s : Session P) (name : String) (id : AggregateId) : Session P :=
  (s.detached name id (checkpointKey id name) kindCheckpoint).detached name id
    (snapshotKey id name) kindSnapshot

lemma Session.detached_uncertain {id : AggregateId} :
    (s.detached name id key kind).uncertain = s.uncertain := by
  unfold detached
  split <;> rfl

lemma detachFiber_exec {id : AggregateId} (lock : w.lock = some (i, true)) :
    Exec Reliably i (.delete id) w (detachFiber (fiberState w.session.log key) key
      (.tombstone (u64 id.id) name kind))
      { w with session := w.session.detached name id key kind } (.ok ()) := by
  unfold detachFiber Session.detached
  split
  next active =>
    exact (encodePayload_exec _).bind
      (write_exec (v := removal id name key kind) lock active rfl rfl)
  next => exact .ret

/-- A `delete` that has the store to itself and meets no failure. -/
lemma delete_exec {id : AggregateId} (unlocked : w.lock = none)
    (certain : w.session.uncertain = none) :
    ∃ w', Exec Reliably i (.delete id) w (program codec name (.delete id)) w' (.ok .done) ∧
      w'.session = w.session.deleted name id ∧ w'.lock = none := by
  let w1 := w.take i true
  let w2 : World P := { w1 with
    session := w1.session.detached name id (checkpointKey id name) kindCheckpoint }
  let w3 : World P := { w2 with
    session := w2.session.detached name id (snapshotKey id name) kindSnapshot }
  have remaining : Exec Reliably i (.delete id) w2 (deleteRemaining name id)
      (w3.note i ((w3.notes i).sync (.ok ()))) (.ok ()) :=
    (fiber_exec ⟨true, rfl⟩ _).bind ((detachFiber_exec rfl).bind (sync_exec rfl rfl))
  have locked : Exec Reliably i (.delete id) w1 (deleteLocked name id)
      (w3.note i ((w3.notes i).sync (.ok ()))) (.ok ()) :=
    (fiber_exec ⟨true, rfl⟩ _).bind ((detachFiber_exec rfl).bind remaining.mapError)
  have call : Exec Reliably i (.delete id) w (delete name id)
      ((w3.note i ((w3.notes i).sync (.ok ()))).drop i true) (.ok ()) :=
    withSession_exec (fun h => h) unlocked certain locked rfl
  exact ⟨_, call.bind .ret, rfl, rfl⟩

/-! ## A store of one-byte totals -/

/-- One byte, written as it is. -/
def totals : Codec UInt8 where
  toVec total := .ok [total]
  fromSlice
    | [total] => .ok total
    | _ => .error "expected one byte"
  restored := id
  fromSlice_toVec := by
    rintro total json ⟨⟩
    rfl
  oversize _ := "too many bytes"

lemma byte_small (total : UInt8) : [total].length ≤ snapshotBytesMax := by
  simp [snapshotBytesMax]

lemma encodeSnapshot_totals (total : UInt8) :
    encodeSnapshot totals total = .ok ⟨[total], byte_small total⟩ := by
  simp only [encodeSnapshot, totals]
  exact dif_pos (byte_small total)

/-- The first aggregate. -/
def one : AggregateId := ⟨.min⟩

/-- A store in which `one` has been persisted once. -/
def persistedOnce : Session UInt8 :=
  (Session.opened [] 1).persisted "view" one 7 .min ⟨[7], byte_small 7⟩

lemma persistedOnce_exec :
    ∃ w, Exec Performs 0 (.persist one 7 .min) (World.opened (.opened [] 1))
      (program totals "view" (.persist one 7 .min)) w (.ok .done) ∧
      w.session = persistedOnce ∧ w.lock = none ∧ w.lastWriter = some 0 := by
  have clear : Clear "view" one .min (World.opened (.opened [] 1) : World UInt8).session.log :=
    ⟨none, rfl, rfl⟩
  obtain ⟨w, run, left⟩ := persist_exec (i := 0) (w := World.opened (.opened [] 1)) rfl rfl
    (encodeSnapshot_totals 7) clear
  exact ⟨w, Reliably.exec run, left⟩

lemma persistedOnce_checkpoint :
    checkpointIn "view" one persistedOnce.log = .ok (some ⟨one, "view", .min⟩) :=
  Session.persisted_checkpoint ..

end CherryPit.Projection
