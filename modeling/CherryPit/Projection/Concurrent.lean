import CherryPit.Projection.Alone

/-!
# Concurrent persists of one aggregate

Any interleaving of persists and loads of one aggregate, without deletes, over a store opened on any
file. Loads that follow one another never see the checkpoint decrease; a persist that finds a higher
checkpoint when it takes the session gives the session back as it was and reports the regression;
and as long as nobody else has taken the session to write since a successful persist, loads show the
projection and the sequence of that persist.
-/

namespace CherryPit.Projection

open Conc

variable {P : Type} {codec : Codec P} {name : String} {id : AggregateId}
  {checkpoint : Option ProjectionCheckpoint} {lastSequence : NonZeroU64} {bytes : SnapshotBytes}
  {v : Write P} {s' s : Session P} {n' n : Notes P} {p : P}

/-- Persists and loads of an aggregate. -/
def Call.Concerns (id : AggregateId) : Call P → Prop
  | .persist id' _ _ | .loadSnapshot id' | .loadCheckpoint id' => id' = id
  | .delete _ => False

/-- The writes of these calls. -/
def DueFor (codec : Codec P) (name : String) (id : AggregateId) (log : List (Write P))
    (v : Write P) : Prop :=
  Due codec name log v ∧ v.call.Concerns id

/-! ## The sequence never decreases -/

/-- The sequence of a checkpoint, zero if there is none. -/
def sequenceOf (checkpoint : Option ProjectionCheckpoint) : Nat :=
  checkpoint.elim 0 (·.lastSequence.get)

/-- The number in the record of a checkpoint. -/
def sequenceRead : Payload → Nat
  | .ok (.checkpoint _ _ lastSequence) => lastSequence.val
  | _ => 0

/-- The number in the live record of a checkpoint fiber. -/
def sequenceIn (name : String) (id : AggregateId) (log : List (Write P)) : Nat :=
  match lastWrite log (checkpointKey id name) with
  | none => 0
  | some v => if v.kind = .detach then 0 else sequenceRead v.payload

lemma sequenceOf_checkpointOf {payload : Payload}
    (shown : checkpointOf name id payload = .ok checkpoint) :
    sequenceOf checkpoint = sequenceRead payload := by
  cases payload with
  | error e => cases shown
  | ok record =>
    cases record with
    | tombstone | snapshot =>
      cases shown
      rfl
    | checkpoint foundAggregateId projectionName lastSequence =>
      simp only [checkpointOf] at shown
      split at shown
      · cases shown
      · rename_i sequence read
        split at shown
        · cases shown
        · split at shown
          · cases shown
          · cases shown
            rw [nonZero_eq_some read]
            rfl

/-- What a log shows is what its live record says. -/
lemma sequenceOf_checkpointIn {log : List (Write P)}
    (shown : checkpointIn name id log = .ok checkpoint) :
    sequenceOf checkpoint = sequenceIn name id log := by
  unfold checkpointIn fiberIn fiberState latest at shown
  unfold sequenceIn
  cases last : lastWrite log (checkpointKey id name) with
  | none =>
    rw [last] at shown
    cases shown
    rfl
  | some v =>
    rw [last] at shown
    by_cases detached : v.kind = .detach
    · simp only [detached, if_true] at shown ⊢
      cases shown
      rfl
    · simp only [detached, if_false, if_true, Option.map_some] at shown ⊢
      exact sequenceOf_checkpointOf shown

/-- A checkpoint that is written says its sequence. -/
lemma sequenceIn_checkpoint {log : List (Write P)} (key : v.key = checkpointKey id name)
    (live : v.kind ≠ .detach) (record : v.payload = .ok (checkpointRecord name id lastSequence)) :
    sequenceIn name id (log ++ [v]) = lastSequence.get := by
  unfold sequenceIn
  rw [lastWrite_self log key]
  show (if v.kind = .detach then 0 else sequenceRead v.payload) = _
  rw [if_neg live, record]
  rfl

lemma sequenceIn_of_ne {log : List (Write P)} (other : v.key ≠ checkpointKey id name) :
    sequenceIn name id (log ++ [v]) = sequenceIn name id log := by
  unfold sequenceIn
  rw [lastWrite_of_ne log other]

lemma DueFor.le {log : List (Write P)} (h : DueFor codec name id log v) :
    sequenceIn name id log ≤ sequenceIn name id (log ++ [v]) := by
  obtain ⟨due, concerns⟩ := h
  cases due with
  | @snapshot id' => rw [sequenceIn_of_ne (snapshotKey_ne id' id name name)]
  | @checkpoint id' p lastSequence u kind _ clear live =>
    cases concerns
    rw [sequenceIn_checkpoint rfl live rfl]
    obtain ⟨existing, shown, passed⟩ := clear
    rw [← sequenceOf_checkpointIn shown]
    cases existing with
    | none => exact Nat.zero_le _
    | some existing => exact Clear.le ⟨_, shown, passed⟩ shown
  | removeCheckpoint | removeSnapshot => exact concerns.elim

/-- Along a log of persists the sequence never decreases. -/
lemma Lawful.rising {base log l l' : List (Write P)} (h : Lawful (DueFor codec name id) base log)
    (start : base <+: l) (pre : l <+: l') (ext : l' <+: log) :
    sequenceIn name id l ≤ sequenceIn name id l' := by
  obtain ⟨rest, rfl⟩ := pre
  induction rest using List.reverseRecOn with
  | nil => rw [List.append_nil]
  | append_singleton rest v ih =>
    rw [← List.append_assoc] at ext ⊢
    have due := h (l ++ rest) v (start.trans (List.prefix_append l rest)) ext
    exact (ih ((List.prefix_append _ [v]).trans ext)).trans due.le

/-! ## What a persist has done -/

/-- A persist that finds a higher checkpoint leaves the session as it was. -/
lemma Persists.regression {x} {existing : ProjectionCheckpoint}
    (h : Persists name id p lastSequence bytes s n s' n' x)
    (shown : checkpointIn name id s.log = .ok (some existing))
    (lower : lastSequence.get < existing.lastSequence.get) :
    s' = s ∧ (n'.failed = false →
      x = .error (.checkpointRegression existing.lastSequence lastSequence)) := by
  have unclear : ¬ Clear name id lastSequence s.log := fun clear =>
    absurd (clear.le shown) (Nat.not_le_of_lt lower)
  cases h with
  | unread h =>
    rw [shown] at h
    cases h
    exact ⟨rfl, fun clean => by cases clean⟩
  | regressed shown' refused =>
    cases shown.symm.trans shown'
    rw [checkRegression, if_pos lower] at refused
    cases refused
    exact ⟨rfl, fun _ => rfl⟩
  | snapshot clear | checkpoint clear | sync clear => exact absurd clear unclear

/-- A persist that succeeds has written the two records. -/
lemma Persists.done (h : Persists name id p lastSequence bytes s n s' n' (.ok ())) :
    s' = s.persisted name id p lastSequence bytes := by
  cases h with
  | sync _ same h =>
    subst same
    cases h
    rfl

/-! ## Runs -/

section Runs

variable {log : List (Write P)} {epoch : Nat} {pool pool' : Store P} {tr tr' : List _}
  {x : ProjectionResult (Reply P)} {i : Nat} {c : Call P}

/-- A store opened on a file, in use by persists and loads of one aggregate. -/
abbrev Uses (codec : Codec P) (name : String) (id : AggregateId) (log : List (Write P))
    (epoch : Nat) (tr : List (Pool.Label sessionSig (Call P))) (pool : Store P) : Prop :=
  Run (StoreStep codec name (Call.Concerns id)) (Pool.init (World.opened (.opened log epoch))) tr
    pool

lemma uses_ok (run : Uses codec name id log epoch tr pool) :
    Pool.Ok (protocol (DueFor codec name id) log)
      (fun i c => Returned i (CallReturns codec name c)) pool := by
  refine store_ok (fun concerns due => ⟨due, concerns⟩) ?_ run
  rw [Session.issued_certain rfl]
  exact .refl log

/-- What a load of the checkpoint returns is what it found. -/
lemma found_checkpoint (run : Uses codec name id log epoch tr pool)
    (at' : pool.slots i = .run (.loadCheckpoint id) (.ret (.checkpoint checkpoint))) :
    ∃ s, (pool.world.notes i).seen false = some s ∧
      checkpointIn name id s.log = .ok checkpoint := by
  obtain ⟨n, free, returns⟩ := (uses_ok run).returned (x := .ok (.checkpoint checkpoint)) at'
  generalize value : Except.ok (Reply.checkpoint checkpoint) = x at returns
  cases returns with
  | loadCheckpoint took =>
    rw [free.notes]
    obtain ⟨-, e, rfl⟩ | ⟨s, seen, ⟨doubt, -, rfl⟩ | ⟨-, rfl⟩⟩ := took.loaded
    · cases value
    · cases value
    · refine ⟨s, seen, ?_⟩
      generalize checkpointIn name id s.log = shown at value
      cases shown <;> cases value
      rfl

/-- Loads of the checkpoint that follow one another never decrease. -/
def NeverDecreases (id : AggregateId) (pool pool' : Store P) : Prop :=
  ∀ {i j checkpoint checkpoint'},
    pool.slots i = .run (.loadCheckpoint id) (.ret (.checkpoint checkpoint)) →
    pool.slots j = .idle →
    pool'.slots j = .run (.loadCheckpoint id) (.ret (.checkpoint checkpoint')) →
    sequenceOf checkpoint ≤ sequenceOf checkpoint'

lemma neverDecreases (run : Uses codec name id log epoch tr pool)
    (later : Run (StoreStep codec name (Call.Concerns id)) pool tr' pool') :
    NeverDecreases id pool pool' := by
  intro i j checkpoint checkpoint' at' idle at2
  have ok := uses_ok run
  have ok' := uses_ok (run.append later)
  obtain ⟨s, seen, shown⟩ := found_checkpoint run at'
  obtain ⟨s', seen', shown'⟩ := found_checkpoint (run.append later) at2
  rw [sequenceOf_checkpointIn shown, sequenceOf_checkpointIn shown']
  have start : (Session.opened log epoch).Older s := (Found.run run (opened_free _ i)).seen seen
  have between : s.Older s' :=
    (ok.inv.seen seen).trans ((Found.run later (ok.unused idle)).seen seen')
  have ending : s'.log <+: pool'.world.session.issued :=
    (ok'.inv.seen seen').log.trans (Session.log_prefix_issued _)
  exact ok'.inv.lawful.rising start.log between.log ending

/-- A persist that finds a higher checkpoint when it takes the session gives it back as it was, and
returns the regression unless it fails. -/
def RefusesRegressions (name : String) (id : AggregateId) (pool : Store P) : Prop :=
  ∀ {i p lastSequence x s existing},
    pool.slots i = .run (.persist id p lastSequence) (.ofExcept x) →
    (pool.world.notes i).seen true = some s →
    s.uncertain = none →
    checkpointIn name id s.log = .ok (some existing) →
    lastSequence.get < existing.lastSequence.get →
    (pool.world.notes i).left true = some s ∧
      ((pool.world.notes i).failed = false →
        x = .error (.checkpointRegression existing.lastSequence lastSequence))

lemma refusesRegressions (run : Uses codec name id log epoch tr pool) :
    RefusesRegressions name id pool := by
  intro i p lastSequence x s existing at' seen certain shown lower
  obtain ⟨n, free, returns⟩ := (uses_ok run).returned at'
  rw [free.notes] at seen ⊢
  cases returns with
  | persist returns =>
    obtain ⟨unseen, -⟩ | ⟨s1, s', seen1, -, ⟨unsure, -⟩ | ⟨-, bytes, n0, n', -, persists, rfl⟩⟩ :=
      returns.section
    · cases seen.symm.trans unseen
    · cases seen.symm.trans seen1
      exact absurd certain unsure
    · cases seen.symm.trans seen1
      obtain ⟨rfl, regression⟩ := persists.regression shown lower
      refine ⟨by simp [Notes.drop], ?_⟩
      intro clean
      rw [regression clean]
      rfl

/-- Loads can return this projection and this sequence. -/
def Shows (codec : Codec P) (name : String) (id : AggregateId) (p : P) (lastSequence : NonZeroU64)
    (w : World P) : Prop :=
  ∀ j, (∃ w', Exec Performs j (.loadSnapshot id) w (program codec name (.loadSnapshot id)) w'
      (.ok (.snapshot (some (codec.restored p))))) ∧
    ∃ w', Exec Performs j (.loadCheckpoint id) w (program codec name (.loadCheckpoint id)) w'
      (.ok (.checkpoint (some ⟨id, name, lastSequence⟩)))

/-- When the last persist to take the session has succeeded, loads can return its projection and its
sequence if the mutex is free. As long as nobody else takes the session to write, loads that start
then return nothing else unless they fail. -/
def Unmixed (codec : Codec P) (name : String) (id : AggregateId) (pool pool' : Store P) : Prop :=
  ∀ {i p lastSequence},
    pool.slots i = .run (.persist id p lastSequence) (.ret .done) →
    pool.world.lastWriter = some i →
    (pool.world.lock = none → Shows codec name id p lastSequence pool.world) ∧
    (pool'.world.lastWriter = some i →
      ∀ {j x}, pool.slots j = .idle → (pool'.world.notes j).failed = false →
        (pool'.slots j = .run (.loadSnapshot id) (.ofExcept x) →
          x = .ok (.snapshot (some (codec.restored p)))) ∧
        (pool'.slots j = .run (.loadCheckpoint id) (.ofExcept x) →
          x = .ok (.checkpoint (some ⟨id, name, lastSequence⟩))))

/-- The session is as the last successful persist left it. -/
lemma persisted_session (run : Uses codec name id log epoch tr pool)
    (at' : pool.slots i = .run (.persist id p lastSequence) (.ret .done))
    (last : pool.world.lastWriter = some i) :
    ∃ (s : Session P) (bytes : SnapshotBytes), encodeSnapshot codec p = .ok bytes ∧
      s.uncertain = none ∧ pool.world.session = s.persisted name id p lastSequence bytes := by
  have ok := uses_ok run
  obtain ⟨n, free, returns⟩ := ok.returned (x := .ok .done) at'
  have left : (pool.world.notes i).left true = some pool.world.session :=
    ok.inv.left last fun lock => free.free ⟨true, lock⟩
  generalize value : Except.ok Reply.done = x at returns
  cases returns with
  | persist returns =>
    obtain ⟨-, e, rfl⟩ |
        ⟨s, s', -, gave, ⟨-, -, e, rfl⟩ | ⟨certain, bytes, n0, n', encoded, h, -⟩⟩ :=
      returns.section
    · cases value
    · cases value
    · rename_i y
      cases y with
      | error e => cases value
      | ok =>
        refine ⟨s, bytes, encoded, certain, ?_⟩
        rw [free.notes, gave] at left
        rw [← h.done]
        exact (Option.some.inj left).symm

/-- Nobody has moved the session since the last writer returned. -/
lemma session_unmoved (run : Uses codec name id log epoch tr pool)
    (later : Run (StoreStep codec name (Call.Concerns id)) pool tr' pool')
    (at' : pool.slots i = .run c (.ofExcept x)) (last : pool.world.lastWriter = some i)
    (last' : pool'.world.lastWriter = some i) : pool'.world.session = pool.world.session := by
  have ok := uses_ok run
  have ok' := uses_ok (run.append later)
  obtain ⟨n, free, -⟩ := ok.returned at'
  have rest : Rely i pool.world pool'.world :=
    ok.rest (store_start fun concerns due => ⟨due, concerns⟩) at' later
  have left := ok.inv.left last fun lock => free.free ⟨true, lock⟩
  have left' := ok'.inv.left last' fun lock => rest.free free.free ⟨true, lock⟩
  rw [rest.notes, left] at left'
  exact (Option.some.inj left').symm

/-- A load that starts after the last writer returned, and is over before another writer takes the
session, reads the session that the last writer left. -/
lemma loaded_unmoved {j : Nat} {α : Type} {value : List (Write P) → ProjectionResult α}
    {y : ProjectionResult α} (run : Uses codec name id log epoch tr pool)
    (later : Run (StoreStep codec name (Call.Concerns id)) pool tr' pool')
    (at' : pool.slots i = .run c (.ofExcept x)) (last : pool.world.lastWriter = some i)
    (last' : pool'.world.lastWriter = some i) (certain : pool.world.session.uncertain = none)
    (idle : pool.slots j = .idle) (clean : (pool'.world.notes j).failed = false)
    (took : Took false .blank (fun s n => Reads s n (value s.log)) (pool'.world.notes j) y) :
    y = value pool.world.session.log := by
  obtain ⟨failed, -⟩ | ⟨s, seen, h⟩ := took.loaded
  · cases clean.symm.trans failed
  · have older := (Found.run later ((uses_ok run).unused idle)).seen seen
    have newer := (uses_ok (run.append later)).inv.seen seen
    rw [session_unmoved run later at' last last'] at newer
    obtain ⟨doubt, unsure, -⟩ | ⟨-, rfl⟩ := h
    · cases (newer.certain certain).symm.trans unsure
    · rw [older.log.eq_of_length_le newer.log.length_le]

lemma unmixed (run : Uses codec name id log epoch tr pool)
    (later : Run (StoreStep codec name (Call.Concerns id)) pool tr' pool') :
    Unmixed codec name id pool pool' := by
  intro i p lastSequence at' last
  obtain ⟨s, bytes, encoded, sure, session⟩ := persisted_session run at' last
  have certain : pool.world.session.uncertain = none := by
    rw [session]
    exact sure
  have snapshot : snapshotIn codec name id pool.world.session.log =
      .ok (some (codec.restored p)) := by
    rw [session]
    exact s.persisted_snapshot lastSequence encoded
  have checkpoint : checkpointIn name id pool.world.session.log =
      .ok (some ⟨id, name, lastSequence⟩) := by
    rw [session]
    exact s.persisted_checkpoint id p lastSequence bytes
  refine ⟨fun unlocked j => ⟨?_, ?_⟩, fun last' j x idle clean => ⟨?_, ?_⟩⟩
  · have load : Exec Performs j (.loadSnapshot id) pool.world
        (program codec name (.loadSnapshot id)) _ _ :=
      Reliably.exec (loadSnapshot_exec unlocked certain id)
    rw [snapshot] at load
    exact ⟨_, load⟩
  · have load : Exec Performs j (.loadCheckpoint id) pool.world
        (program codec name (.loadCheckpoint id)) _ _ :=
      Reliably.exec (loadCheckpoint_exec unlocked certain id)
    rw [checkpoint] at load
    exact ⟨_, load⟩
  · intro at2
    obtain ⟨n, free, returns⟩ := (uses_ok (run.append later)).returned at2
    cases returns with
    | loadSnapshot took =>
      rw [← free.notes] at took
      rw [loaded_unmoved run later (x := .ok .done) at' last last' certain idle clean took,
        snapshot]
      rfl
  · intro at2
    obtain ⟨n, free, returns⟩ := (uses_ok (run.append later)).returned at2
    cases returns with
    | loadCheckpoint took =>
      rw [← free.notes] at took
      rw [loaded_unmoved run later (x := .ok .done) at' last last' certain idle clean took,
        checkpoint]
      rfl

/-- Concurrent persists and loads of one aggregate: loads never go back, persists that would are
refused without a write, and what loads show is that of one persist. -/
theorem persists_monotone_unmixed (run : Uses codec name id log epoch tr pool)
    (later : Run (StoreStep codec name (Call.Concerns id)) pool tr' pool') :
    NeverDecreases id pool pool' ∧ RefusesRegressions name id pool' ∧
      Unmixed codec name id pool pool' :=
  ⟨neverDecreases run later, refusesRegressions (run.append later), unmixed run later⟩

end Runs

/-- One persist, and a load after it. -/
theorem persists_monotone_unmixed_once :
    ∃ (pool pool' : Store UInt8) (tr tr' : List (Pool.Label sessionSig (Call UInt8))),
      Uses totals "view" one [] 1 tr pool ∧
      Run (StoreStep totals "view" (Call.Concerns one)) pool tr' pool' ∧
      pool'.slots 1 = .run (.loadCheckpoint one) (.ret (.checkpoint (some ⟨one, "view", .min⟩))) ∧
      NeverDecreases one pool pool' ∧ RefusesRegressions "view" one pool' ∧
      Unmixed totals "view" one pool pool' := by
  obtain ⟨w, ex, session, unlocked, -⟩ := persistedOnce_exec
  have persists : Call.Concerns one (.persist one 7 .min : Call UInt8) := rfl
  let pool : Store UInt8 := ⟨w, Function.update (fun _ => .idle) 0
    (.run (.persist one 7 .min) (.ofExcept (.ok .done)))⟩
  obtain ⟨tr, run⟩ : ∃ tr, Uses totals "view" one [] 1 tr pool := Pool.run_call rfl persists ex
  have load : Exec Performs 1 (.loadCheckpoint one) pool.world
      (program totals "view" (.loadCheckpoint one)) _ _ :=
    Reliably.exec
      (loadCheckpoint_exec unlocked (show w.session.uncertain = none by rw [session]; rfl) one)
  rw [show pool.world.session = persistedOnce from session, persistedOnce_checkpoint] at load
  have loads : Call.Concerns one (.loadCheckpoint one : Call UInt8) := rfl
  obtain ⟨tr', later⟩ : ∃ tr', Run (StoreStep totals "view" (Call.Concerns one)) pool tr' _ :=
    Pool.run_call rfl loads load
  exact ⟨pool, _, tr, tr', run, later, rfl, persists_monotone_unmixed run later⟩

end CherryPit.Projection
