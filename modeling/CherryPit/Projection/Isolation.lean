import CherryPit.Projection.Categories
import CherryPit.Projection.Crash

/-!
# Records are isolated by key

A store keeps the records of an aggregate and a projection name under two keys that no other pair
has. Calls that write under one pair therefore leave what a file shows under any other as it was
(`Left.shown`), in every interleaving and through any number of sessions. What a load returns
depends on nothing else (`canReturn_iff`) as long as the session is certain; in an uncertain session
no load returns a record (`CanReturn.refused`).
-/

namespace CherryPit.Projection

open Conc

variable {P : Type} {codec : Codec P} {name name' : String} {id id' : AggregateId}
  {log more : List (Write P)} {key : String} {α : Type}

/-- The aggregate that a call is about. -/
def Call.aggregate : Call P → AggregateId
  | .persist id _ _ | .delete id | .loadSnapshot id | .loadCheckpoint id => id

/-- The calls that write under an aggregate. -/
def Call.WritesTo (id : AggregateId) (c : Call P) : Prop :=
  c.writes = true ∧ c.aggregate = id

/-! ## Keys -/

/-- The keys of an aggregate and a projection name. -/
def OwnKey (id : AggregateId) (name key : String) : Prop :=
  key = snapshotKey id name ∨ key = checkpointKey id name

/-- No key belongs to two pairs. -/
lemma OwnKey.inj (h : OwnKey id name key) (h' : OwnKey id' name' key) :
    id = id' ∧ name = name' := by
  rcases h with rfl | rfl <;> rcases h' with same | same
  · exact snapshotKey_inj same
  · exact absurd same (snapshotKey_ne id id' name name')
  · exact absurd same.symm (snapshotKey_ne id' id name' name)
  · exact checkpointKey_inj same

lemma Due.ownKey {v : Write P} (h : Due codec name log v) : OwnKey v.call.aggregate name v.key := by
  cases h with
  | snapshot | removeSnapshot => exact .inl rfl
  | checkpoint | removeCheckpoint => exact .inr rfl

/-! ## What a log shows -/

/-- What a load shows of a log. -/
def shown (codec : Codec P) (name : String) : Call P → List (Write P) → ProjectionResult (Reply P)
  | .loadSnapshot id, log => (snapshotIn codec name id log).map .snapshot
  | .loadCheckpoint id, log => (checkpointIn name id log).map .checkpoint
  | .persist _ _ _, _ | .delete _, _ => .ok .done

lemma lastWrite_append (other : ∀ v ∈ more, v.key ≠ key) :
    lastWrite (log ++ more) key = lastWrite log key := by
  have none : more.filter (fun v => v.key = key) = [] := by
    rw [List.filter_eq_nil_iff]
    intro v mem
    simpa using other v mem
  rw [lastWrite, List.filter_append, none, List.append_nil]
  rfl

/-- What is read of a fiber depends on its last write only. -/
lemma fiberIn_congr {log' : List (Write P)} {decode : Payload → ProjectionResult (Option α)}
    (same : lastWrite log' key = lastWrite log key) :
    fiberIn log' key decode = fiberIn log key decode := by
  unfold fiberIn latest
  rw [fiberState_congr same, same]

/-- Writes under one pair do not show under another. -/
lemma shown_append {c : Call P} (other : id ≠ id' ∨ name ≠ name') (about : c.aggregate = id')
    (own : ∀ v ∈ more, OwnKey id name v.key) :
    shown codec name' c (log ++ more) = shown codec name' c log := by
  have apart : ∀ {key}, OwnKey id' name' key → ∀ v ∈ more, v.key ≠ key := by
    rintro key theirs v mem rfl
    obtain ⟨rfl, rfl⟩ := (own v mem).inj theirs
    exact other.elim (fun ne => ne rfl) fun ne => ne rfl
  cases c with
  | persist | delete => rfl
  | loadSnapshot id =>
    cases about
    have same : lastWrite (log ++ more) (snapshotKey id name') =
        lastWrite log (snapshotKey id name') := lastWrite_append (apart (.inl rfl))
    rw [shown, shown, snapshotIn, snapshotIn, fiberIn_congr same]
  | loadCheckpoint id =>
    cases about
    have same : lastWrite (log ++ more) (checkpointKey id name') =
        lastWrite log (checkpointKey id name') := lastWrite_append (apart (.inr rfl))
    rw [shown, shown, checkpointIn, checkpointIn, fiberIn_congr same]

/-! ## Files -/

/-- What a session issues under one pair is written under its keys. -/
lemma exists_own {epoch : Nat} {tr} {pool : Store P}
    (run : Run (StoreStep codec name (Call.WritesTo id)) (Pool.init (reopened log epoch)) tr pool) :
    log <+: pool.world.session.log ∧
      ∃ more, pool.world.session.issued = log ++ more ∧ ∀ v ∈ more, OwnKey id name v.key := by
  have grows : log <+: pool.world.session.log :=
    (Found.run run (opened_free _ 0)).now.log
  have lawful : Lawful (fun _ v => OwnKey id name v.key) log pool.world.session.issued := by
    have start : Lawful (fun _ v => OwnKey id name v.key) log
        (Session.opened log epoch).issued := by
      rw [Session.issued_certain rfl]
      exact .refl log
    refine (store_ok ?_ start run).inv.lawful
    rintro l v ⟨-, rfl⟩ due
    exact due.ownKey
  obtain ⟨more, eq⟩ := grows.trans (Session.log_prefix_issued _)
  refine ⟨grows, more, eq.symm, ?_⟩
  intro v mem
  obtain ⟨before, after, rfl⟩ := List.append_of_mem mem
  refine lawful (log ++ before) v (List.prefix_append _ _) ⟨after, ?_⟩
  rw [← eq]
  simp

/-- A file that is left of another by sessions that write under one pair: each ends at any point,
with what the file had and any part of what was issued after it. -/
inductive Left (codec : Codec P) (name : String) (id : AggregateId) (log : List (Write P)) :
    List (Write P) → Prop where
  | same : Left codec name id log log
  | session {mid file epoch tr pool} :
    Left codec name id log mid →
    Run (StoreStep codec name (Call.WritesTo id)) (Pool.init (reopened mid epoch)) tr pool →
    mid <+: file →
    file <+: pool.world.session.issued →
    Left codec name id log file

lemma Left.shown {file : List (Write P)} {c : Call P} (left : Left codec name id log file)
    (other : id ≠ id' ∨ name ≠ name') (about : c.aggregate = id') :
    shown codec name' c file = shown codec name' c log := by
  induction left with
  | same => rfl
  | session _ run start rest ih =>
    obtain ⟨-, more, issued, own⟩ := exists_own run
    obtain ⟨part, rfl⟩ := start
    rw [issued] at rest
    have own : ∀ v ∈ part, OwnKey id name v.key := fun v mem =>
      own v (((List.prefix_append_right_inj _).mp rest).subset mem)
    rw [shown_append other about own, ih]

/-! ## What loads return -/

variable {i : Nat} {c : Call P} {w : World P} {x : ProjectionResult (Reply P)} {doubt : Doubt P}

/-- A read of a fiber may fail in every way. -/
lemma readFiber_fails (holds : w.Holds i) (key : String)
    (decode : Payload → ProjectionResult (Option α)) (e : String) :
    Exec Performs i c w (readFiber key decode) (w.note i (w.notes i).fail)
      (.error (.infrastructure e)) := by
  have failed : Performs i c w (.fiber key) (w.note i (w.notes i).fail) (.error e) :=
    ⟨holds, .inr ⟨rfl, e, rfl⟩⟩
  exact .op failed .raise

/-- In a certain session a load returns what the log shows, unless pardosa fails. -/
lemma canReturn_iff (loads : c.writes = false) (unlocked : w.lock = none)
    (certain : w.session.uncertain = none) :
    CanReturn codec name c w x ↔
      x = shown codec name c w.session.log ∨ ∃ e, x = .error (.infrastructure e) := by
  have holds : (w.take 0 false).Holds 0 := ⟨false, rfl⟩
  cases c with
  | persist | delete => cases loads
  | loadSnapshot id =>
    constructor
    · intro can
      obtain ⟨j, w', ex⟩ := can.fresh unlocked
      obtain ⟨-, failed⟩ | same := loadSnapshot_result (opened_free _ j) certain ex
      · exact .inr failed
      · exact .inl same
    · rintro (rfl | ⟨e, rfl⟩)
      · exact ⟨0, _, Reliably.exec (loadSnapshot_exec unlocked certain id)⟩
      · exact ⟨0, _,
          (withSession_exec And.left unlocked certain (readFiber_fails holds _ _ e) rfl).map⟩
  | loadCheckpoint id =>
    constructor
    · intro can
      obtain ⟨j, w', ex⟩ := can.fresh unlocked
      obtain ⟨-, failed⟩ | same := loadCheckpoint_result (opened_free _ j) certain ex
      · exact .inr failed
      · exact .inl same
    · rintro (rfl | ⟨e, rfl⟩)
      · exact ⟨0, _, Reliably.exec (loadCheckpoint_exec unlocked certain id)⟩
      · exact ⟨0, _,
          (withSession_exec And.left unlocked certain (readFiber_fails holds _ _ e) rfl).map⟩

/-- A load that has found an uncertain session. -/
lemma Took.refused {value : List (Write P) → ProjectionResult α} {n : Notes P}
    {x : ProjectionResult α} {s : Session P}
    (h : Took false .blank (fun s n => Reads s n (value s.log)) n x)
    (only : ∀ {m s'}, n.seen m = some s' → s' = s) (uncertain : s.uncertain = some doubt) :
    x = .error (.indeterminate (.retainedUncertainty s.epoch doubt.diagnostic)) ∨
      ∃ e, x = .error (.infrastructure e) := by
  obtain ⟨-, failed⟩ | ⟨s', seen, ⟨doubt', unsure, rfl⟩ | ⟨certain, -⟩⟩ := h.loaded
  · exact .inr failed
  · obtain rfl := only seen
    cases uncertain.symm.trans unsure
    exact .inl rfl
  · obtain rfl := only seen
    cases uncertain.symm.trans certain

/-- In an uncertain session a load is refused. -/
lemma CanReturn.refused (can : CanReturn codec name c w x) (loads : c.writes = false)
    (unlocked : w.lock = none) (uncertain : w.session.uncertain = some doubt) :
    x = .error (.indeterminate (.retainedUncertainty w.session.epoch doubt.diagnostic)) ∨
      ∃ e, x = .error (.infrastructure e) := by
  obtain ⟨j, w', ex⟩ := can.fresh unlocked
  obtain ⟨returns, only⟩ := load_returns loads (opened_free _ j) ex
  cases returns with
  | persist | delete => cases loads
  | loadSnapshot took | loadCheckpoint took =>
    obtain rfl | ⟨e, rfl⟩ := took.refused only uncertain
    · exact .inl rfl
    · exact .inr ⟨e, rfl⟩

/-- Loads under a pair return the same in both. -/
def LoadsAgree (codec : Codec P) (name : String) (id : AggregateId) (w w' : World P) : Prop :=
  ∀ c x, c.writes = false → c.aggregate = id →
    (CanReturn codec name c w x ↔ CanReturn codec name c w' x)

/-- Loads under a pair return no record. -/
def LoadsRefused (codec : Codec P) (name : String) (id : AggregateId) (w : World P)
    (doubt : Doubt P) : Prop :=
  ∀ c x, c.writes = false → c.aggregate = id → CanReturn codec name c w x →
    x = .error (.indeterminate (.retainedUncertainty w.session.epoch doubt.diagnostic)) ∨
      ∃ e, x = .error (.infrastructure e)

lemma loadsAgree {w' : World P} (unlocked : w.lock = none) (certain : w.session.uncertain = none)
    (unlocked' : w'.lock = none) (certain' : w'.session.uncertain = none)
    (same : ∀ {c : Call P}, c.aggregate = id →
      shown codec name c w.session.log = shown codec name c w'.session.log) :
    LoadsAgree codec name id w w' := by
  intro c x loads about
  rw [canReturn_iff loads unlocked certain, canReturn_iff loads unlocked' certain', same about]

/-- The records of a pair are isolated from those of another: after any calls that write under one
pair, in any sessions over the file, loads under the other return what they returned before, in the
last session if it is certain and in every session that is opened after it. An uncertain session
refuses them. -/
theorem isolated_by_key {log mid : List (Write P)} {epoch : Nat} {tr} {pool : Store P}
    (other : id ≠ id' ∨ name ≠ name') (left : Left codec name id log mid)
    (run : Run (StoreStep codec name (Call.WritesTo id)) (Pool.init (reopened mid epoch)) tr
      pool) :
    snapshotKey id name ≠ checkpointKey id name ∧
    (∀ key, OwnKey id name key → ¬ OwnKey id' name' key) ∧
    (∀ file before after, mid <+: file → file <+: pool.world.session.issued →
      LoadsAgree codec name' id' (reopened file after) (reopened log before)) ∧
    (∀ before, pool.world.lock = none →
      match pool.world.session.uncertain with
      | none => LoadsAgree codec name' id' pool.world (reopened log before)
      | some doubt => LoadsRefused codec name' id' pool.world doubt) := by
  refine ⟨snapshotKey_ne id id name name, ?_, ?_, ?_⟩
  · intro key ours theirs
    obtain ⟨rfl, rfl⟩ := ours.inj theirs
    exact other.elim (fun ne => ne rfl) fun ne => ne rfl
  · intro file before after start rest
    have left : Left codec name id log file := left.session run start rest
    exact loadsAgree rfl rfl rfl rfl fun about => left.shown other about
  · intro before unlocked
    split
    next certain =>
      have left : Left codec name id log pool.world.session.log :=
        left.session run (exists_own run).1 (Session.log_prefix_issued _)
      exact loadsAgree unlocked certain rfl rfl fun about => left.shown other about
    next doubt uncertain =>
      intro c x loads about can
      exact can.refused loads unlocked uncertain

/-! Two aggregates of one store. -/

lemma two_lt : 2 < 2 ^ 64 := by decide

/-- The second aggregate. -/
def second : AggregateId := ⟨2, Nat.two_pos, two_lt⟩

lemma one_ne_second : one ≠ second := by
  intro eq
  cases congrArg AggregateId.get eq

/-- One aggregate is persisted; loads of the other return what they returned. -/
theorem isolated_by_key_persisted :
    ∃ tr pool, Run (StoreStep totals "view" (Call.WritesTo one)) (Pool.init (reopened [] 1)) tr
        pool ∧ pool.world.session = persistedOnce ∧
      LoadsAgree totals "view" second pool.world (reopened [] 1) := by
  obtain ⟨w, ex, session, unlocked, -⟩ := persistedOnce_exec
  obtain ⟨tr, run⟩ : ∃ tr, Run (StoreStep totals "view" (Call.WritesTo one))
      (Pool.init (reopened [] 1)) tr _ := Pool.run_call rfl ⟨rfl, rfl⟩ ex
  have other : one ≠ second ∨ "view" ≠ "view" := .inl one_ne_second
  obtain ⟨-, -, -, same⟩ := isolated_by_key other .same run
  have same := same 1 unlocked
  have certain : w.session.uncertain = none := by rw [session]; rfl
  rw [certain] at same
  exact ⟨tr, _, run, session, same⟩

/-- A delete of one aggregate whose `sync` fails: a load of the other has returned that there is no
snapshot, and no longer does. -/
theorem refused_after_failed_sync :
    one ≠ second ∧
    CanReturn totals "view" (.loadSnapshot second) (reopened [] 1) (.ok (.snapshot none)) ∧
    ∃ tr pool, Run (StoreStep totals "view" (Call.WritesTo one)) (Pool.init (reopened [] 1)) tr
        pool ∧ pool.world.lock = none ∧
      ¬ CanReturn totals "view" (.loadSnapshot second) pool.world (.ok (.snapshot none)) := by
  refine ⟨one_ne_second, ⟨1, _, Reliably.exec (loadSnapshot_exec rfl rfl second)⟩, ?_⟩
  obtain ⟨w, ex, unlocked, session, -⟩ := delete_unsynced_exec (some "sync outcome unknown")
  obtain ⟨tr, run⟩ : ∃ tr, Run (StoreStep totals "view" (Call.WritesTo one))
      (Pool.init (reopened [] 1)) tr _ := Pool.run_call rfl ⟨rfl, rfl⟩ ex
  refine ⟨tr, _, run, unlocked, ?_⟩
  intro can
  have uncertain : w.session.uncertain = some ⟨"sync outcome unknown", none⟩ := by
    rw [session]
    rfl
  obtain ⟨⟨⟩⟩ | ⟨e, ⟨⟩⟩ := can.refused rfl unlocked uncertain

end CherryPit.Projection
