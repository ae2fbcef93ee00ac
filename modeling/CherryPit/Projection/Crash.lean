import CherryPit.Projection.Alone

/-!
# Checkpoints stay behind snapshots

A file of writes goes through any number of sessions: each opens it, makes any calls in any
interleaving, and ends at any point, after which the file holds a prefix of what the session issued,
a write with an undetermined landing included (`Stored`). Names may change from session to session.

Every such file is `Covered`: where there is a live checkpoint there is a live snapshot, and the
persist that wrote it had no lower sequence. This is a property of logs of due writes.
-/

namespace CherryPit.Projection

open Conc

variable {P : Type} {codec : Codec P} {name : String} {log : List (Write P)} {id : AggregateId}
  {u : Write P}

/-- The files that a store can leave behind. -/
inductive Stored (codec : Codec P) : List (Write P) → Prop where
  | create : Stored codec []
  | session {log name epoch tr pool file} :
    Stored codec log →
    Run (StoreStep codec name fun _ => True) (Pool.init (World.opened (.opened log epoch))) tr
      pool →
    file <+: pool.world.session.issued →
    Stored codec file

/-- The writes of any store over the file. -/
def DueSome (codec : Codec P) (log : List (Write P)) (v : Write P) : Prop :=
  ∃ name, Due codec name log v

lemma Lawful.take {J : List (Write P) → Write P → Prop} {base file : List (Write P)}
    (h : Lawful J base log) (pre : file <+: log) : Lawful J base file :=
  fun l v ext pre' => h l v ext (pre'.trans pre)

lemma Stored.lawful (h : Stored codec log) : Lawful (DueSome codec) [] log := by
  induction h with
  | create => exact .refl []
  | @session log name epoch tr pool file _ run pre ih =>
    have issued : Lawful (DueSome codec) [] (Session.opened log epoch).issued := by
      rwa [Session.issued_certain rfl]
    have ok := store_ok (fun _ due => ⟨name, due⟩) issued run
    exact ok.inv.lawful.take pre

/-- A live checkpoint has a live snapshot of a persist with no lower sequence. -/
def Covered (codec : Codec P) (name : String) (id : AggregateId) (log : List (Write P)) : Prop :=
  fiberState log (checkpointKey id name) = .active →
    ∃ u v p lastSequence sequence,
      lastWrite log (checkpointKey id name) = some u ∧
      u.payload = .ok (checkpointRecord name id sequence) ∧
      Snapshotted codec name id p lastSequence log v ∧
      sequence.get ≤ lastSequence.get

/-- Writes to other fibers do not matter. -/
lemma Covered.land (h : Covered codec name id log) (check : u.key ≠ checkpointKey id name)
    (snap : u.key ≠ snapshotKey id name) : Covered codec name id (log ++ [u]) := by
  intro active
  rw [fiberState_congr (lastWrite_of_ne log check)] at active
  obtain ⟨u', v, p, lastSequence, sequence, last, record, snapshot, le⟩ := h active
  exact ⟨u', v, p, lastSequence, sequence, (lastWrite_of_ne log check).trans last, record,
    snapshot.land snap, le⟩

/-- A due write keeps checkpoints covered. -/
lemma Covered.due {name' : String} (h : Covered codec name id log) (due : Due codec name' log u) :
    Covered codec name id (log ++ [u]) := by
  cases due with
  | @snapshot id' p lastSequence bytes kind encoded clear live =>
    have check := snapshotKey_ne id' id name' name
    by_cases same : snapshotKey id' name' = snapshotKey id name
    · obtain ⟨rfl, rfl⟩ := snapshotKey_inj same
      intro active
      rw [fiberState_congr (lastWrite_of_ne log check)] at active
      obtain ⟨u, -, -, -, sequence, last, record, -, -⟩ := h active
      refine ⟨u, _, p, lastSequence, sequence, (lastWrite_of_ne log check).trans last, record,
        ⟨lastWrite_self log rfl, live, rfl, bytes, encoded, rfl⟩, ?_⟩
      exact clear.le (checkpointIn_record active last record)
    · exact h.land check same
  | @checkpoint id' p lastSequence v kind snapshot clear live =>
    have snap := (snapshotKey_ne id id' name name').symm
    by_cases same : checkpointKey id' name' = checkpointKey id name
    · obtain ⟨rfl, rfl⟩ := checkpointKey_inj same
      intro _
      exact ⟨_, v, p, lastSequence, lastSequence, lastWrite_self log rfl, rfl,
        snapshot.land snap, Nat.le_refl _⟩
    · exact h.land same snap
  | @removeCheckpoint id' =>
    have snap := (snapshotKey_ne id id' name name').symm
    by_cases same : checkpointKey id' name' = checkpointKey id name
    · obtain ⟨rfl, rfl⟩ := checkpointKey_inj same
      intro active
      exact absurd active (not_active_of_detach rfl)
    · exact h.land same snap
  | @removeSnapshot id' inactive =>
    have check := snapshotKey_ne id' id name' name
    by_cases same : snapshotKey id' name' = snapshotKey id name
    · obtain ⟨rfl, rfl⟩ := snapshotKey_inj same
      intro active
      rw [fiberState_congr (lastWrite_of_ne log check)] at active
      exact absurd active inactive
    · exact h.land check same

lemma Lawful.covered (h : Lawful (DueSome codec) [] log) (id : AggregateId) (name : String) :
    Covered codec name id log := by
  induction log using List.reverseRecOn with
  | nil =>
    intro active
    cases active
  | append_singleton log u ih =>
    obtain ⟨name', due⟩ := h log u List.nil_prefix (List.prefix_refl _)
    exact (ih (h.take (List.prefix_append _ _))).due due

/-- A store opened over a file. -/
abbrev reopened (file : List (Write P)) (epoch : Nat) : World P := .opened (.opened file epoch)

/-- In every file that a store can leave behind, if `load_checkpoint` returns a checkpoint then
`load_snapshot` returns what a persist with no lower sequence wrote, unless it fails. -/
theorem checkpoint_not_ahead {file : List (Write P)} {epoch i j : Nat} {id : AggregateId}
    {checkpoint : ProjectionCheckpoint} {w : World P} (stored : Stored codec file)
    (load : Exec Performs i (.loadCheckpoint id) (reopened file epoch)
      (program codec name (.loadCheckpoint id)) w (.ok (.checkpoint (some checkpoint)))) :
    ∃ v p lastSequence,
      lastWrite file (snapshotKey id name) = some v ∧
      v.call = .persist id p lastSequence ∧
      checkpoint.lastSequence.get ≤ lastSequence.get ∧
      (∃ w', Exec Performs j (.loadSnapshot id) (reopened file epoch)
        (program codec name (.loadSnapshot id)) w' (.ok (.snapshot (some (codec.restored p))))) ∧
      ∀ {w' x}, Exec Performs j (.loadSnapshot id) (reopened file epoch)
          (program codec name (.loadSnapshot id)) w' x → (w'.notes j).failed = false →
        x = .ok (.snapshot (some (codec.restored p))) := by
  have shown : checkpointIn name id file = .ok (some checkpoint) := by
    obtain ⟨-, e, ⟨⟩⟩ | same := loadCheckpoint_result (opened_free _ i) rfl load
    change _ = (checkpointIn name id file).map _ at same
    generalize checkpointIn name id file = value at same
    cases value <;> cases same
    rfl
  have active := active_of_checkpointIn shown
  obtain ⟨u, v, p, lastSequence, sequence, last, record, snapshot, le⟩ :=
    stored.lawful.covered id name active
  cases shown.symm.trans (checkpointIn_record active last record)
  have value : snapshotIn codec name id (reopened file epoch).session.log =
      .ok (some (codec.restored p)) := snapshot.snapshotIn
  refine ⟨v, p, lastSequence, snapshot.last, snapshot.call, le, ?_, ?_⟩
  · have run : Exec Performs j (.loadSnapshot id) (reopened file epoch)
        (program codec name (.loadSnapshot id)) _ _ :=
      Reliably.exec (loadSnapshot_exec rfl rfl id)
    rw [value] at run
    exact ⟨_, run⟩
  · intro w' x ex clean
    obtain ⟨failed, -⟩ | rfl := loadSnapshot_result (opened_free _ j) rfl ex
    · rw [clean] at failed
      cases failed
    · rw [value]
      rfl

lemma stored_persistedOnce : Stored totals persistedOnce.log := by
  obtain ⟨w, ex, session, -, -⟩ := persistedOnce_exec
  obtain ⟨tr, run⟩ : ∃ tr, Run (StoreStep totals "view" fun _ => True)
      (Pool.init (World.opened (.opened [] 1))) tr _ := Pool.run_call rfl trivial ex
  refine .session .create run ?_
  rw [session]
  exact persistedOnce.log_prefix_issued

theorem checkpoint_not_ahead_persisted :
    Stored totals persistedOnce.log ∧ ∃ v p lastSequence,
      lastWrite persistedOnce.log (snapshotKey one "view") = some v ∧
      v.call = .persist one p lastSequence ∧
      NonZeroU64.min.get ≤ lastSequence.get := by
  refine ⟨stored_persistedOnce, ?_⟩
  have load : Exec Performs 0 (.loadCheckpoint one) (reopened persistedOnce.log 1)
      (program totals "view" (.loadCheckpoint one)) _ _ :=
    Reliably.exec (loadCheckpoint_exec rfl rfl one)
  have shown : checkpointIn "view" one (reopened persistedOnce.log 1).session.log =
      .ok (some ⟨one, "view", .min⟩) := persistedOnce_checkpoint
  rw [shown] at load
  obtain ⟨v, p, lastSequence, last, call, le, -⟩ :=
    checkpoint_not_ahead (j := 0) stored_persistedOnce load
  exact ⟨v, p, lastSequence, last, call, le⟩

end CherryPit.Projection
