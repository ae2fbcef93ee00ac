import CherryPit.Projection.Alone

/-!
# The categories of errors

A persist or delete with the store to itself, from any session and with any answers of pardosa. An
error of a category that allows a retry, or that no retry can mend, should mean that nothing of the
call has landed and that loads behave as before; and once something has landed or may have landed,
an error should call for reconciliation (`Honest`).

This fails in one case. A `delete` that finds neither fiber active writes nothing, but it still
calls `sync`, and reports the failure of that as an infrastructure error even if it leaves the
session uncertain (`Misreported`). The error is retryable, but from then on every call on the store
fails.
-/

namespace CherryPit.Projection

open Conc

variable {P : Type} {codec : Codec P} {name : String} {i : Nat} {c : Call P} {w w' : World P}
  {s s' : Session P} {x : ProjectionResult (Reply P)} {n n' : Notes P} {id : AggregateId}
  {v : World P} {m : Bool}

/-! ## Loads before and after -/

/-- The call can return this. -/
def CanReturn (codec : Codec P) (name : String) (c : Call P) (w : World P)
    (x : ProjectionResult (Reply P)) : Prop :=
  ∃ j w', Exec Performs j c w (program codec name c) w' x

/-- Loads behave in `w'` as they do in `w`. -/
def SameLoads (codec : Codec P) (name : String) (w w' : World P) : Prop :=
  ∀ {c x}, c.writes = false → (CanReturn codec name c w' x ↔ CanReturn codec name c w x)

/-- An error says what has happened. -/
structure Honest (codec : Codec P) (name : String) (w w' : World P)
    (x : ProjectionResult (Reply P)) : Prop where
  harmless : ∀ {e}, x = .error e → e.category = .retryable ∨ e.category = .terminal →
    w'.session.issued = w.session.issued ∧ SameLoads codec name w w'
  indeterminate : ∀ {e}, x = .error e → w'.session.issued ≠ w.session.issued →
    ∃ diagnostic, e = .indeterminate diagnostic

/-- The session and the mutex are the same. -/
structure Alike (w v : World P) : Prop where
  session : v.session = w.session
  lock : v.lock = w.lock

lemma Alike.holds (h : Alike w v) (holds : w.Holds i) : v.Holds i := by
  obtain ⟨m, lock⟩ := holds
  exact ⟨m, h.lock.trans lock⟩

/-- Nothing else matters to an operation. -/
lemma Performs.alike {o r} (h : Alike w v) (ex : Performs i c w o w' r) :
    ∃ v', Performs i c v o v' r ∧ Alike w' v' := by
  obtain ⟨session, lock⟩ := h
  cases o with
  | lock m =>
    obtain ⟨rfl, rfl⟩ | ⟨unlocked, rfl, rfl⟩ := ex
    · exact ⟨_, .inl ⟨rfl, rfl⟩, session, lock⟩
    · exact ⟨_, .inr ⟨lock.trans unlocked, rfl, by rw [session]⟩, session, rfl⟩
  | unlock =>
    obtain ⟨m, held, rfl⟩ := ex
    exact ⟨_, ⟨m, lock.trans held, rfl⟩, session, rfl⟩
  | encodePayload record =>
    obtain ⟨rfl, rfl⟩ | ⟨rfl, e, rfl⟩ := ex
    · exact ⟨v, .inl ⟨rfl, rfl⟩, session, lock⟩
    · exact ⟨_, .inr ⟨rfl, e, rfl⟩, session, lock⟩
  | fiber key =>
    obtain ⟨holds, ⟨rfl, rfl⟩ | ⟨rfl, e, rfl⟩⟩ := ex
    · exact ⟨v, ⟨Alike.holds ⟨session, lock⟩ holds, .inl ⟨rfl, by rw [session]⟩⟩, session, lock⟩
    · exact ⟨_, ⟨Alike.holds ⟨session, lock⟩ holds, .inr ⟨rfl, e, rfl⟩⟩, session, lock⟩
  | getLatest key =>
    obtain ⟨holds, ⟨rfl, rfl⟩ | ⟨rfl, e, rfl⟩⟩ := ex
    · exact ⟨v, ⟨Alike.holds ⟨session, lock⟩ holds, .inl ⟨rfl, by rw [session]⟩⟩, session, lock⟩
    · exact ⟨_, ⟨Alike.holds ⟨session, lock⟩ holds, .inr ⟨rfl, e, rfl⟩⟩, session, lock⟩
  | write kind key record =>
    obtain ⟨held, ⟨fits, rfl, rfl⟩ | ⟨d, rfl, rfl⟩ | ⟨rfl, e, rfl⟩⟩ := ex
    · exact ⟨_, ⟨lock.trans held, .inl ⟨session ▸ fits, rfl, rfl⟩⟩, by rw [session], lock⟩
    · exact ⟨_, ⟨lock.trans held, .inr (.inl ⟨d, rfl, by rw [session]⟩)⟩, by rw [session], lock⟩
    · exact ⟨_, ⟨lock.trans held, .inr (.inr ⟨rfl, e, rfl⟩)⟩, session, lock⟩
  | sync =>
    obtain ⟨held, ⟨rfl, rfl⟩ | ⟨failure, rfl, rfl⟩⟩ := ex
    · exact ⟨_, ⟨lock.trans held, .inl ⟨rfl, rfl⟩⟩, session, lock⟩
    · exact ⟨_, ⟨lock.trans held, .inr ⟨failure, rfl, rfl⟩⟩, by rw [session], lock⟩

lemma CanReturn.alike (h : Alike w v) (can : CanReturn codec name c w x) :
    CanReturn codec name c v x := by
  obtain ⟨j, w', ex⟩ := can
  obtain ⟨v', run, -⟩ := ex.simulate Performs.alike h
  exact ⟨j, v', run⟩

/-- What a call returns does not depend on what callers have met. -/
lemma CanReturn.fresh {c : Call P} (can : CanReturn codec name c w x) (unlocked : w.lock = none) :
    CanReturn codec name c (.opened w.session) x := by
  have fresh : Alike w (World.opened w.session) := ⟨rfl, unlocked.symm⟩
  exact can.alike fresh

lemma Alike.sameLoads (h : Alike w w') : SameLoads codec name w w' := by
  intro c x _
  exact ⟨CanReturn.alike ⟨h.session.symm, h.lock.symm⟩, CanReturn.alike h⟩

/-- The loads of an uncertain session do not succeed. -/
lemma uncertain_load {checkpoint : Option ProjectionCheckpoint} (unlocked : w.lock = none)
    (unsure : w.session.uncertain ≠ none) :
    ¬ CanReturn codec name (.loadCheckpoint id) w (.ok (.checkpoint checkpoint)) := by
  intro can
  obtain ⟨j, w', ex⟩ := can.fresh unlocked
  obtain ⟨returns, only⟩ := load_returns rfl (opened_free _ j) ex
  generalize value : Except.ok (Reply.checkpoint checkpoint) = x at returns
  cases returns with
  | loadCheckpoint took =>
    obtain ⟨-, e, rfl⟩ | ⟨s, seen, ⟨doubt, -, rfl⟩ | ⟨certain, rfl⟩⟩ := took.loaded
    · cases value
    · cases value
    · cases only seen
      exact unsure certain

/-! ## Sections -/

/-- The section succeeded, did nothing, or calls for reconciliation. -/
def Faithful {α : Type} (s s' : Session P) (x : ProjectionResult α) : Prop :=
  (∃ a, x = .ok a) ∨ s' = s ∨ ∃ diagnostic, x = .error (.indeterminate diagnostic)

lemma Faithful.map {α β : Type} {x : ProjectionResult α} {g : α → β} (h : Faithful s s' x) :
    Faithful s s' (x.map g) := by
  obtain ⟨a, rfl⟩ | same | ⟨diagnostic, rfl⟩ := h
  · exact .inl ⟨g a, rfl⟩
  · exact .inr (.inl same)
  · exact .inr (.inr ⟨diagnostic, rfl⟩)

lemma Puts.faithful {v : Write P} {x} (h : Puts s n v s' n' x) : Faithful s s' x := by
  cases h with
  | landed => exact .inl ⟨_, rfl⟩
  | stranded => exact .inr (.inr ⟨_, rfl⟩)
  | failed => exact .inr (.inl rfl)

lemma Persists.faithful {p : P} {lastSequence : NonZeroU64} {bytes : SnapshotBytes} {x}
    (h : Persists name id p lastSequence bytes s n s' n' x) : Faithful s s' x := by
  cases h with
  | unread h =>
    generalize checkpointIn name id s.log = value at h
    cases h <;> exact .inr (.inl rfl)
  | regressed => exact .inr (.inl rfl)
  | snapshot _ h => exact h.faithful
  | checkpoint => exact .inr (.inr ⟨_, rfl⟩)
  | sync _ _ h =>
    cases h with
    | synced => exact .inl ⟨_, rfl⟩
    | failed => exact .inr (.inr ⟨_, rfl⟩)

/-- The `sync` of a call failed and left the session uncertain. -/
def Doubtful (synced : Option (Except SyncFailure Unit)) : Prop :=
  ∃ error diagnostic, synced = some (.error ⟨error, some diagnostic⟩)

/-- A `delete` that had nothing to remove, and whose `sync` left the session uncertain. -/
structure Misreported (name : String) (c : Call P) (s : Session P)
    (synced : Option (Except SyncFailure Unit)) : Prop where
  idle : ∃ id, c = .delete id ∧ fiberState s.log (checkpointKey id name) ≠ .active ∧
    fiberState s.log (snapshotKey id name) ≠ .active
  doubtful : Doubtful synced

lemma not_doubtful_none : ¬ Doubtful none := by
  rintro ⟨error, diagnostic, ⟨⟩⟩

lemma Detaches.faithful {v : Write P} {e} (h : Detaches s n v s' n' (.error e)) :
    fiberState s.log v.key = .active ∧
      Faithful s s' (.error e : ProjectionResult Unit) := by
  cases h with
  | put active put => exact ⟨active, put.faithful⟩

/-- What follows the checkpoint is faithful, or the `sync` is misreported. -/
lemma Remains.faithful {x} (h : Remains name id s n s' n' x) (start : n.synced = none) :
    (Faithful s s' x ∧
      (fiberState s.log (snapshotKey id name) = .active ∨ ¬ Doubtful n'.synced)) ∨
    (fiberState s.log (snapshotKey id name) ≠ .active ∧ Doubtful n'.synced ∧
      s'.uncertain ≠ none ∧ ∃ error, x = .error (.infrastructure error)) := by
  cases h with
  | unread e => exact .inl ⟨.inr (.inl rfl), .inr (start ▸ not_doubtful_none)⟩
  | snapshot h => exact .inl ⟨h.faithful.2, .inl h.faithful.1⟩
  | sync h last =>
    cases h with
    | put active put =>
      refine .inl ⟨?_, .inl active⟩
      cases last with
      | synced => exact .inl ⟨_, rfl⟩
      | failed failure =>
        refine .inr (.inr ⟨.snapshotRemoved failure.error, ?_⟩)
        exact congrArg Except.error (if_pos active)
    | idle inactive =>
      cases last with
      | synced =>
        refine .inl ⟨.inl ⟨_, rfl⟩, .inr ?_⟩
        rintro ⟨error, diagnostic, ⟨⟩⟩
      | failed failure =>
        obtain ⟨error, retained⟩ := failure
        cases retained with
        | none =>
          refine .inl ⟨.inr (.inl rfl), .inr ?_⟩
          rintro ⟨error, diagnostic, ⟨⟩⟩
        | some diagnostic =>
          refine .inr ⟨inactive, ⟨error, diagnostic, rfl⟩, Option.some_ne_none _, error, ?_⟩
          exact congrArg Except.error (if_neg inactive)

/-- A `delete` is faithful, or its `sync` is misreported. -/
lemma Deletes.faithful {x} (h : Deletes name id s n s' n' x) (start : n.synced = none) :
    (Faithful s s' x ∧ ¬ Misreported name (.delete id : Call P) s n'.synced) ∨
    (Misreported name (.delete id : Call P) s n'.synced ∧ s'.uncertain ≠ none ∧
      ∃ error, x = .error (.infrastructure error)) := by
  have active_check : fiberState s.log (checkpointKey id name) = .active →
      ¬ Misreported name (.delete id : Call P) s n'.synced := by
    rintro active ⟨⟨id', ⟨⟩, inactive, -⟩, -⟩
    exact inactive active
  cases h with
  | unread e => exact .inl ⟨.inr (.inl rfl), fun mis => not_doubtful_none (start ▸ mis.doubtful)⟩
  | checkpoint h => exact .inl ⟨h.faithful.2, active_check h.faithful.1⟩
  | @remaining s1 n1 _ _ y h rest =>
    cases h with
    | put active put =>
      refine .inl ⟨?_, active_check active⟩
      cases y with
      | ok a => exact .inl ⟨a, rfl⟩
      | error e =>
        refine .inr (.inr ⟨.checkpointRemoved e, ?_⟩)
        exact congrArg Except.error (if_pos active)
    | idle inactive =>
      -- nothing was removed yet, so the errors of the rest are passed on as they are
      have same : y.mapError (fun error =>
          if fiberState s.log (checkpointKey id name) = .active then
            .indeterminate (.checkpointRemoved error) else error) = y := by
        cases y with
        | ok a => rfl
        | error e => exact congrArg Except.error (if_neg inactive)
      rw [same]
      obtain ⟨faithful, not⟩ | ⟨inactive', doubtful, unsure, infra⟩ := rest.faithful start
      · refine .inl ⟨faithful, ?_⟩
        rintro ⟨⟨id', ⟨⟩, -, inactive'⟩, doubtful⟩
        obtain active | not := not
        · exact inactive' active
        · exact not doubtful
      · exact .inr ⟨⟨⟨id, rfl, inactive, inactive'⟩, doubtful⟩, unsure, infra⟩

/-! ## Calls -/

/-- Caller `i` alone has used the store since its session was `s`. -/
structure Began (s : Session P) (i : Nat) (w : World P) : Prop where
  alone : ∀ {j m}, w.lock = some (j, m) → j = i
  held : w.lock = some (i, true) → (w.notes i).seen true ≠ none
  first : (w.notes i).seen true = none → w.session = s
  seen : ∀ {s'}, (w.notes i).seen true = some s' → s' = s
  left : ∀ {s'}, w.lock ≠ some (i, true) → (w.notes i).left true = some s' → w.session = s'

lemma Began.note (h : Began s i w) (seen : n.seen = (w.notes i).seen)
    (left : n.left = (w.notes i).left) :
    Began s i (w.note i n) where
  alone := h.alone
  held lock := by
    rw [w.note_notes, seen]
    exact h.held lock
  first unseen := h.first (by rwa [w.note_notes, seen] at unseen)
  seen at' := h.seen (by rwa [w.note_notes, seen] at at')
  left free at' := h.left free (by rwa [w.note_notes, left] at at')

lemma Began.take (h : Began s i w) (unlocked : w.lock = none) (unseen : (w.notes i).seen m = none) :
    Began s i (w.take i m) where
  alone := by
    rintro j m ⟨⟩
    rfl
  held := by
    rintro ⟨⟩
    simp [w.take_notes, Notes.take]
  first unseen' := by
    cases m with
    | true => simp [w.take_notes, Notes.take] at unseen'
    | false => exact h.first (by simpa [w.take_notes, Notes.take] using unseen')
  seen at' := by
    cases m with
    | true =>
      rw [← h.first unseen]
      simpa [w.take_notes, Notes.take, eq_comm] using at'
    | false => exact h.seen (by simpa [w.take_notes, Notes.take] using at')
  left _ at' := h.left (by simp [unlocked]) (by simpa [w.take_notes, Notes.take] using at')

lemma Began.drop (h : Began s i w) (lock : w.lock = some (i, m)) : Began s i (w.drop i m) where
  alone := by rintro j m ⟨⟩
  held := by rintro ⟨⟩
  first unseen := h.first (by simpa [w.drop_notes, Notes.drop] using unseen)
  seen at' := h.seen (by simpa [w.drop_notes, Notes.drop] using at')
  left _ at' := by
    cases m with
    | true =>
      show w.session = _
      simpa [w.drop_notes, Notes.drop] using at'
    | false => exact h.left (by simp [lock]) (by simpa [w.drop_notes, Notes.drop] using at')

lemma Began.effect {o : SessionOp} (h : Began s i w) (allowed : Allowed codec name i c w o)
    (effect : Effect i w o w') : Began s i w' := by
  cases effect with
  | note seen left => exact h.note seen left
  | take m unlocked => exact h.take unlocked allowed
  | drop lock => exact h.drop lock
  | advance lock older seen left =>
    have noted := h.note seen left
    exact ⟨noted.alone, noted.held, fun unseen => absurd unseen (noted.held lock), noted.seen,
      fun free => absurd lock free⟩

lemma began_suits : Suits codec name (Assume.solo (Began s i)) i c where
  rely e := e ▸ .refl i _
  keep inv allowed ex := inv.effect allowed ex.effect

lemma Began.start (unlocked : w.lock = none) (fresh : w.notes i = .blank) :
    Began w.session i w where
  alone lock := by cases unlocked.symm.trans lock
  held lock := by cases unlocked.symm.trans lock
  first _ := rfl
  seen at' := by
    rw [fresh] at at'
    cases at'
  left _ at' := by
    rw [fresh] at at'
    cases at'

/-- What a call that has the store to itself has done to the session. -/
lemma call_returns (unlocked : w.lock = none) (fresh : w.notes i = .blank)
    (ex : Exec Performs i c w (program codec name c) w' x) :
    w'.lock = none ∧ Began w.session i w' ∧ CallReturns codec name c (w'.notes i) x := by
  have began := Began.start unlocked fresh
  have free : Free i .blank w := by
    refine ⟨?_, fresh⟩
    rintro ⟨m, lock⟩
    cases unlocked.symm.trans lock
  obtain ⟨inv, n, at', returns⟩ := wp_exec (wp_program began_suits free began) began ex
  rw [at'.notes]
  refine ⟨?_, inv, returns⟩
  cases lock : w'.lock with
  | none => rfl
  | some holder =>
    obtain ⟨j, m⟩ := holder
    cases inv.alone lock
    exact absurd ⟨m, lock⟩ at'.free

/-- A call whose section was faithful is honest. -/
lemma Faithful.honest (h : Faithful w.session w'.session x) (unlocked : w.lock = none)
    (unlocked' : w'.lock = none) : Honest codec name w w' x := by
  obtain ⟨a, rfl⟩ | same | ⟨diagnostic, rfl⟩ := h
  · exact ⟨by rintro e ⟨⟩, by rintro e ⟨⟩⟩
  · have alike : Alike w w' := ⟨same, unlocked'.trans unlocked.symm⟩
    refine ⟨fun _ _ => ⟨by rw [same], alike.sameLoads⟩, ?_⟩
    intro e _ changed
    exact absurd (by rw [same]) changed
  · refine ⟨?_, ?_⟩
    · rintro e ⟨⟩ (category | category) <;> cases category
    · rintro e ⟨⟩ _
      exact ⟨diagnostic, rfl⟩

/-- A retryable error that leaves the session uncertain is not honest. -/
lemma not_honest (id : AggregateId) {error : String} (unlocked : w.lock = none)
    (unlocked' : w'.lock = none) (certain : w.session.uncertain = none)
    (unsure : w'.session.uncertain ≠ none)
    (inactive : fiberState w.session.log (checkpointKey id name) ≠ .active) :
    ¬ Honest codec name w w' (.error (.infrastructure error)) := by
  intro honest
  obtain ⟨-, same⟩ := honest.harmless rfl (.inl rfl)
  have shown : checkpointIn name id w.session.log = .ok none := by
    rw [checkpointIn, fiberIn, if_neg inactive]
  have load : Exec Performs 0 (.loadCheckpoint id) w
      (program codec name (.loadCheckpoint id)) _ _ :=
    Reliably.exec (loadCheckpoint_exec unlocked certain id)
  rw [shown] at load
  have can : CanReturn codec name (.loadCheckpoint id) w' (.ok (.checkpoint none)) :=
    (same rfl).mpr ⟨0, _, load⟩
  exact uncertain_load unlocked' unsure can

/-- The categories of errors are honest, except for a `delete` that had nothing to remove and whose
`sync` left the session uncertain. -/
theorem honest_iff_not_misreported {x : ProjectionResult (Reply P)} (writes : c.writes = true)
    (unlocked : w.lock = none) (fresh : w.notes i = .blank)
    (ex : Exec Performs i c w (program codec name c) w' x) :
    Honest codec name w w' x ↔ ¬ Misreported name c w.session (w'.notes i).synced := by
  obtain ⟨unlocked', began, returns⟩ := call_returns unlocked fresh ex
  have now : ∀ {s'}, (w'.notes i).left true = some s' → w'.session = s' :=
    began.left (by simp [unlocked'])
  cases returns with
  | persist returns =>
    refine iff_of_true (Faithful.honest (Faithful.map ?_) unlocked unlocked') ?_
    · obtain ⟨unseen, -⟩ | ⟨s, s', seen, left, h⟩ := returns.section
      · exact .inr (.inl (began.first unseen))
      · cases began.seen seen
        rw [now left]
        obtain ⟨-, same, -⟩ | ⟨-, bytes, n0, n', -, persists, -⟩ := h
        · exact .inr (.inl same)
        · exact persists.faithful
    · rintro ⟨⟨id, ⟨⟩, -⟩, -⟩
  | @delete id _ y took =>
    obtain ⟨noted, -⟩ | ⟨s, s', seen, left, h⟩ := took.section fun h => h.seen
    · have same : w'.session = w.session := began.first (by rw [noted]; rfl)
      refine iff_of_true (Faithful.honest (.inr (.inl same)) unlocked unlocked') ?_
      rw [noted]
      exact fun mis => not_doubtful_none mis.doubtful
    · cases began.seen seen
      obtain ⟨-, rfl, noted, -⟩ | ⟨certain, n', deletes, noted⟩ := h
      · refine iff_of_true (Faithful.honest (.inr (.inl (now left))) unlocked unlocked') ?_
        rw [noted]
        exact fun mis => not_doubtful_none mis.doubtful
      · rw [noted]
        obtain ⟨faithful, not⟩ | ⟨mis, unsure, error, rfl⟩ := deletes.faithful rfl
        · rw [← now left] at faithful
          exact iff_of_true (faithful.map.honest unlocked unlocked') not
        · obtain ⟨id', ⟨⟩, inactive, -⟩ := mis.idle
          rw [← now left] at unsure
          exact iff_of_false (not_honest id unlocked unlocked' certain unsure inactive)
            fun not => not mis
  | loadSnapshot | loadCheckpoint => cases writes

/-! A `delete` of an empty store whose `sync` fails. -/

/-- The failure of `sync`, with what it leaves. -/
def syncFailed (retained : Option String) : SyncFailure := ⟨"sync failed", retained⟩

lemma delete_unsynced_exec (retained : Option String) :
    ∃ w' : World UInt8, Exec Performs 0 (.delete one) (World.opened (.opened [] 1))
        (program totals "view" (.delete one)) w' (.error (.infrastructure "sync failed")) ∧
      w'.lock = none ∧ w'.session = (Session.opened [] 1).unsynced retained ∧
      (w'.notes 0).synced = some (.error (syncFailed retained)) := by
  let w1 : World UInt8 := (World.opened (.opened [] 1)).take 0 true
  let w2 : World UInt8 := { w1.note 0 ((w1.notes 0).fail.sync (.error (syncFailed retained))) with
    session := w1.session.unsynced retained }
  have unsynced : Performs 0 (.delete one) w1 .sync w2 (.error (syncFailed retained)) :=
    ⟨rfl, .inr ⟨syncFailed retained, rfl, rfl⟩⟩
  have remaining : Exec Performs 0 (.delete one) w1 (deleteRemaining "view" one) w2
      (.error (.infrastructure "sync failed")) :=
    (Reliably.exec (fiber_exec (w := w1) ⟨true, rfl⟩ (snapshotKey one "view"))).bind
      (Exec.bind .ret (.op unsynced .raise))
  have locked : Exec Performs 0 (.delete one) w1 (deleteLocked "view" one) w2
      (.error (.infrastructure "sync failed")) :=
    (Reliably.exec (fiber_exec (w := w1) ⟨true, rfl⟩ (checkpointKey one "view"))).bind
      (Exec.bind .ret remaining.mapError)
  have call : Exec Performs 0 (.delete one) (World.opened (.opened [] 1)) (delete "view" one)
      (w2.drop 0 true) (.error (.infrastructure "sync failed")) :=
    withSession_exec And.left rfl rfl locked rfl
  exact ⟨_, call.map, rfl, rfl, rfl⟩

/-- A failed `sync` that leaves no doubt is reported as it should be. -/
theorem honest_without_doubt :
    ∃ w' : World UInt8, Exec Performs 0 (.delete one) (World.opened (.opened [] 1))
        (program totals "view" (.delete one)) w' (.error (.infrastructure "sync failed")) ∧
      Honest totals "view" (World.opened (.opened [] 1)) w'
        (.error (.infrastructure "sync failed")) := by
  obtain ⟨w', ex, -, -, synced⟩ := delete_unsynced_exec none
  refine ⟨w', ex, (honest_iff_not_misreported rfl rfl rfl ex).mpr ?_⟩
  rintro ⟨-, error, diagnostic, doubtful⟩
  cases synced.symm.trans doubtful

/-- A failed `sync` that leaves the session uncertain is reported as retryable. -/
theorem retryable_but_uncertain :
    ∃ w' : World UInt8, Exec Performs 0 (.delete one) (World.opened (.opened [] 1))
        (program totals "view" (.delete one)) w' (.error (.infrastructure "sync failed")) ∧
      (ProjectionError.infrastructure "sync failed" : ProjectionError WriteDiagnostic).category =
        .retryable ∧
      ¬ Honest totals "view" (World.opened (.opened [] 1)) w'
        (.error (.infrastructure "sync failed")) := by
  obtain ⟨w', ex, unlocked, session, -⟩ := delete_unsynced_exec (some "sync outcome unknown")
  refine ⟨w', ex, rfl, not_honest one rfl unlocked rfl ?_ (by rintro ⟨⟩)⟩
  rw [session]
  exact Option.some_ne_none _

end CherryPit.Projection
