import CherryPit.Projection.Sections

/-!
# Runs of the store

Along every run the log grows by due writes only (`Sound.lawful`), whoever took the session to write
last left it as it is now (`Sound.left`), and what a caller found is an earlier state of the session
(`Sound.seen`). `store_ok` is the invariant of every interleaving; `Found.run` places what a caller
that starts later finds between the two ends of a run.
-/

namespace CherryPit.Projection

open Conc

variable {P : Type} {codec : Codec P} {name : String} {J : List (Write P) → Write P → Prop}
  {base : List (Write P)} {log : List (Write P)} {id : AggregateId} {lastSequence : NonZeroU64}
  {checkpoint : ProjectionCheckpoint} {w w' : World P} {may : Call P → Prop} {s : Session P}
  {i j : Nat} {c : Call P} {pool : Store P} {o : SessionOp} {u v : Write P} {p : P}

/-- The invariant of a store whose writes after `base` all meet `J`. -/
structure Sound (J : List (Write P) → Write P → Prop) (base : List (Write P)) (w : World P) :
    Prop where
  writer : ∀ {j}, w.lock = some (j, true) → w.lastWriter = some j
  left : ∀ {j}, w.lastWriter = some j → w.lock ≠ some (j, true) →
    (w.notes j).left true = some w.session
  seen : ∀ {j m s}, (w.notes j).seen m = some s → s.Older w.session
  lawful : Lawful J base w.session.issued

lemma Sound.opened (lawful : Lawful J base s.issued) : Sound J base (.opened s) where
  writer := by rintro j ⟨⟩
  left := by rintro j ⟨⟩
  seen := by rintro j m s ⟨⟩
  lawful := lawful

/-- What an operation notes of the session that a caller found is the session as it is. -/
lemma Effect.seen {m : Bool} (h : Effect i w o w') (at' : (w'.notes j).seen m = some s) :
    (w.notes j).seen m = some s ∨ s = w.session := by
  rcases eq_or_ne i j with rfl | ne
  · cases h with
    | note seen => exact .inl (by simpa [World.note, seen] using at')
    | take m' =>
      rcases eq_or_ne m m' with rfl | ne
      · exact .inr (by simpa [World.take, Notes.take, eq_comm] using at')
      · exact .inl (by simpa [World.take, Notes.take, Function.update_of_ne ne] using at')
    | drop => exact .inl (by simpa [World.drop, Notes.drop] using at')
    | advance _ _ seen => exact .inl (by simpa [World.note, seen] using at')
  · rw [(h.rely ne).notes] at at'
    exact .inl at'

/-- An operation keeps the invariant if the writes that it leaves are lawful. -/
lemma Sound.effect (h : Sound J base w) (effect : Effect i w o w')
    (lawful : Lawful J base w'.session.issued) : Sound J base w' where
  writer {j} lock := by
    cases effect with
    | note | advance => exact h.writer lock
    | take m =>
      cases lock
      rfl
    | drop => cases lock
  left {j} last free := by
    cases effect with
    | note _ left =>
      have old := h.left last free
      rcases eq_or_ne j i with rfl | ne
      · simpa [World.note, left] using old
      · simpa [World.note, Function.update_of_ne ne] using old
    | take m unlocked =>
      cases m with
      | true =>
        cases last
        exact absurd rfl free
      | false =>
        have old := h.left last (by simp [unlocked])
        rcases eq_or_ne j i with rfl | ne
        · simpa [World.take, Notes.take] using old
        · simpa [World.take, Function.update_of_ne ne] using old
    | @drop m lock =>
      rcases eq_or_ne j i with rfl | ne
      · cases m with
        | true => simp [World.drop, Notes.drop]
        | false => simpa [World.drop, Notes.drop] using h.left last (by simp [lock])
      · simpa [World.drop, Function.update_of_ne ne] using h.left last (by simp [lock, ne.symm])
    | advance lock =>
      cases (h.writer lock).symm.trans last
      exact absurd lock free
  seen at' := by
    obtain before | rfl := effect.seen at'
    · exact (h.seen before).trans effect.older
    · exact effect.older
  lawful := lawful

/-- An allowed operation leaves lawful writes. -/
lemma Performs.lawful {o r} (due : ∀ {l v}, v.call = c → Due codec name l v → J l v)
    (allowed : Allowed codec name i c w o) (ex : Performs i c w o w' r)
    (h : Lawful J base w.session.issued) : Lawful J base w'.session.issued := by
  cases o with
  | lock m => obtain ⟨rfl, -⟩ | ⟨-, rfl, -⟩ := ex <;> exact h
  | unlock =>
    obtain ⟨m, -, rfl⟩ := ex
    exact h
  | encodePayload record => obtain ⟨rfl, -⟩ | ⟨rfl, -⟩ := ex <;> exact h
  | fiber key => obtain ⟨-, ⟨rfl, -⟩ | ⟨rfl, -⟩⟩ := ex <;> exact h
  | getLatest key => obtain ⟨-, ⟨rfl, -⟩ | ⟨rfl, -⟩⟩ := ex <;> exact h
  | write kind key record =>
    obtain ⟨certain, write⟩ := allowed
    have issued : Lawful J base (w.session.log ++ [⟨kind, key, .ok record, c⟩]) := by
      rw [w.session.issued_certain certain] at h
      exact h.snoc (due rfl write)
    obtain ⟨-, ⟨-, rfl, -⟩ | ⟨d, rfl, -⟩ | ⟨rfl, -⟩⟩ := ex
    · rwa [Session.issued_land certain]
    · exact issued
    · exact h
  | sync =>
    obtain ⟨-, ⟨rfl, -⟩ | ⟨failure, rfl, -⟩⟩ := ex
    · exact h
    · rwa [Session.issued_unsynced allowed.1]

/-- The protocol of a store whose writes after `base` all meet `J`. -/
def protocol (J : List (Write P) → Write P → Prop) (base : List (Write P)) :
    Protocol (Performs (P := P)) (fun _ _ => False) where
  inv := Sound J base
  rely := Rely
  fresh i := Free i .blank
  refl := Rely.refl
  trans := Rely.trans
  fresh_rely h r := h.rely r
  env_inv _ e := e.elim
  env_rely _ e := e.elim
  exec_rely _ ex ne := ex.effect.rely ne

lemma protocol_suits (due : ∀ {l v}, v.call = c → Due codec name l v → J l v) :
    Suits codec name ((protocol J base).assume i) i c where
  rely r := r
  keep inv allowed ex := Sound.effect inv ex.effect (ex.lawful due allowed inv.lawful)

/-- Every call that may be made follows the protocol. -/
lemma store_start (due : ∀ {l v}, may v.call → Due codec name l v → J l v) (m : may c)
    (inv : Sound J base w) (fresh : Free i .blank w) :
    wp Performs ((protocol J base).assume i) i c (Returned i (CallReturns codec name c))
      (program codec name c) w := by
  refine wp_program (protocol_suits ?_) fresh inv
  intro l v call
  exact due (call ▸ m)

lemma opened_free (s : Session P) (i : Nat) : Free i .blank (World.opened s) := by
  refine ⟨?_, rfl⟩
  rintro ⟨m, ⟨⟩⟩

/-- Every interleaving follows the protocol. -/
theorem store_ok {tr} (due : ∀ {l v}, may v.call → Due codec name l v → J l v)
    (lawful : Lawful J base s.issued)
    (run : Run (StoreStep codec name may) (Pool.init (World.opened s)) tr pool) :
    Pool.Ok (protocol J base) (fun i c => Returned i (CallReturns codec name c)) pool :=
  Pool.Ok.run (store_start due) (Sound.opened lawful) (opened_free s) run

/-! ## What a log shows -/

lemma checkpointOf_record (id : AggregateId) (sequence : NonZeroU64) :
    checkpointOf name id (.ok (checkpointRecord name id sequence)) =
      .ok (some ⟨id, name, sequence⟩) := by
  simp [checkpointOf, checkpointRecord]

lemma checkpointIn_record {sequence : NonZeroU64}
    (active : fiberState log (checkpointKey id name) = .active)
    (last : lastWrite log (checkpointKey id name) = some u)
    (record : u.payload = .ok (checkpointRecord name id sequence)) :
    checkpointIn name id log = .ok (some ⟨id, name, sequence⟩) := by
  unfold checkpointIn fiberIn latest
  rw [if_pos active, last, Option.map_some, record]
  exact checkpointOf_record id sequence

/-- A persist that is no regression has no lower sequence than the checkpoint. -/
lemma Clear.le (h : Clear name id lastSequence log)
    (shown : checkpointIn name id log = .ok (some checkpoint)) :
    checkpoint.lastSequence.get ≤ lastSequence.get := by
  obtain ⟨existing, shown', passed⟩ := h
  cases shown.symm.trans shown'
  by_contra lower
  rw [checkRegression, if_pos (Nat.lt_of_not_le lower)] at passed
  cases passed

lemma Snapshotted.land (h : Snapshotted codec name id p lastSequence log v)
    (other : u.key ≠ snapshotKey id name) :
    Snapshotted codec name id p lastSequence (log ++ [u]) v :=
  { h with last := (lastWrite_of_ne log other).trans h.last }

/-- What a snapshot fiber shows of a persist. -/
lemma Snapshotted.snapshotIn (h : Snapshotted codec name id p lastSequence log v) :
    snapshotIn codec name id log = .ok (some (codec.restored p)) := by
  obtain ⟨bytes, encoded, payload⟩ := h.record
  have active : fiberState log (snapshotKey id name) = .active :=
    fiberState_active.mpr ⟨v, h.last, h.live⟩
  unfold Projection.snapshotIn fiberIn latest
  rw [if_pos active, h.last, Option.map_some, payload]
  show (decodeSnapshot codec bytes).map some = _
  rw [decodeSnapshot_encodeSnapshot encoded]
  rfl

/-- A checkpoint that a log shows is that of an active fiber. -/
lemma active_of_checkpointIn (shown : checkpointIn name id log = .ok (some checkpoint)) :
    fiberState log (checkpointKey id name) = .active := by
  unfold checkpointIn fiberIn at shown
  split at shown
  · assumption
  · cases shown

/-! ## Calls that start later -/

/-- The session is past `s`, and so is what caller `j` found. -/
structure Found (s : Session P) (j : Nat) (w : World P) : Prop where
  now : s.Older w.session
  seen : ∀ {m s'}, (w.notes j).seen m = some s' → s.Older s'

lemma Found.step {o r} (h : Found s j w) (ex : Performs i c w o w' r) : Found s j w' where
  now := h.now.trans ex.effect.older
  seen at' := by
    obtain before | rfl := ex.effect.seen at'
    · exact h.seen before
    · exact h.now

/-- What a caller that starts later finds is past what the session was then. -/
lemma Found.run {tr} {pool' : Store P} (run : Run (StoreStep codec name may) pool tr pool')
    (fresh : Free j .blank pool.world) :
    Found pool.world.session j pool'.world := by
  refine run.invariant (I := fun q => Found pool.world.session j q.world) ?_ ⟨.refl _, ?_⟩
  · intro q l q' h st
    cases st with
    | call | abandon => exact h
    | op _ ex => exact h.step ex
    | env e => exact e.elim
  · intro m s' at'
    rw [fresh.notes] at at'
    cases at'

end CherryPit.Projection
