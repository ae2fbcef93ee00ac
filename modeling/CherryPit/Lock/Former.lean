import CherryPit.Lock.Exclusion

/-!
# Former holders

`release`, the drop of the guard and `renew` act on whatever file is at the path. A process whose
file was reclaimed after its TTL still has its guard, and what it does with it hits the file of the
process that holds the lock now (`undisturbed_iff`, `former_holder_removes`).
-/

namespace CherryPit.Lock

open Conc Threads

variable {B : Type} {F : Format B} {procs : Nat → Process} {s' s : Fs B} {p' p : Pc} {a : Event}
  {i : Nat}

/-- The guard that the process has, a `release` in progress included. -/
def Pc.guard : Pc → Option RunLock
  | .holding lock | .renewing lock _ | .dropping lock => some lock
  | _ => none

/-- The process holds the lock, and its file is the one at the path. -/
def Current (s : System B) (j : Nat) (lock : RunLock) : Prop :=
  (s.pc j).lock = some lock ∧ ∃ f, s.shared.file = some f ∧ f.inode = lock.inode

/-- The file at the path is the one of this lock, with its metadata. -/
def Contains (F : Format B) (s : System B) (lock : RunLock) : Prop :=
  s.shared.file = some ⟨lock.inode, F.render lock.written⟩

/-- Files are numbered in the order of their creation, and the file of a lock is as the holder wrote
it. -/
structure Written (F : Format B) (s : Fs B) (p : Pc) : Prop where
  fresh : ∀ f, s.file = some f → f.inode < s.nextInode
  old : ∀ l, p.lock = some l → l.inode < s.nextInode
  bytes : ∀ l f, p.lock = some l → s.file = some f → f.inode = l.inode →
    f.bytes = F.render l.written

lemma Written.congr (h : Written F s p) (file : s'.file = s.file)
    (next : s'.nextInode = s.nextInode) (lock : p'.lock = p.lock) : Written F s' p' := by
  refine ⟨?_, ?_, ?_⟩
  · rw [file, next]
    exact h.fresh
  · rw [next, lock]
    exact h.old
  · rw [file, lock]
    exact h.bytes

lemma Local.written (st : Local F procs i s p a s' p') (h : Written F s p) : Written F s' p' := by
  cases st.moves with
  | looks file next lock => exact h.congr file next lock
  | writes l free writes number event file next lock =>
    refine ⟨?_, ?_, ?_⟩
    · intro f e
      rw [file] at e
      cases e
      rw [next]
      exact Nat.lt_succ_self _
    · intro l' e
      rw [lock] at e
      cases e
      rw [next, number]
      exact Nat.lt_succ_self _
    · intro l' f e here same
      rw [lock] at e
      rw [file] at here
      cases e
      cases here
      rfl
  | leaves file next lock =>
    refine ⟨?_, by simp [lock], by simp [lock]⟩
    rw [next]
    rcases file with file | ⟨-, file⟩
    · rw [file]
      exact h.fresh
    · simp [file]

lemma Local.written_other {q : Pc} (st : Local F procs i s p a s' p') (h : Written F s q) :
    Written F s' q := by
  cases st.moves with
  | looks file next => exact h.congr file next rfl
  | writes l free writes number event file next =>
    refine ⟨?_, ?_, ?_⟩
    · intro f e
      rw [file] at e
      cases e
      rw [next]
      exact Nat.lt_succ_self _
    · intro l' e
      rw [next]
      exact Nat.lt_succ_of_lt (h.old l' e)
    · intro l' f e here same
      rw [file] at here
      cases here
      have old := h.old l' e
      simp only at same
      omega
  | leaves file next =>
    rcases file with file | ⟨-, file⟩
    · exact h.congr file next rfl
    · refine ⟨by simp [file], ?_, by simp [file]⟩
      rw [next]
      exact h.old

lemma Written.run {bytes : Option B} {now : Nat → Instant} {signals : Nat → Nat → Bool} {tr}
    {s : System B} (r : Run (LockStep F procs) (.start bytes now signals) tr s) (i : Nat) :
    Written F s.shared (s.pc i) := by
  refine (run_all (I := Written F) (fun ⟨_, st⟩ h => st.written h)
    (fun ⟨_, st⟩ _ h => st.written_other h) ?_ ?_ (r.mono IStep.forget)).1 i
  · rintro g u g' p ⟨file, next⟩ h
    exact h.congr file next rfl
  · intro j
    refine ⟨?_, nofun, nofun⟩
    intro f e
    obtain ⟨b, -, rfl⟩ := Option.map_eq_some_iff.mp e
    exact Nat.one_pos

lemma Current.contains {s : System B} {j : Nat} {lock : RunLock} (current : Current s j lock)
    (written : Written F s.shared (s.pc j)) : Contains F s lock := by
  obtain ⟨holds, ⟨inode, bytes⟩, here, rfl⟩ := current
  rw [Contains, here, ← written.bytes lock _ holds here rfl]

/-- What a process does with its guard: it removes the file, puts another in its place, or leaves it
alone. -/
lemma Local.by_guard (st : Local F procs i s p a s' p') (guard : p.guard ≠ none) :
    (a = .removed ∧ s'.file = none) ∨
    ((∃ synced, a = .renewed synced) ∧ ∃ b, s'.file = some ⟨s.nextInode, b⟩) ∨
    ((a ≠ .removed ∧ ∀ synced, a ≠ .renewed synced) ∧ s'.file = s.file) := by
  cases st with
  | released | dropped | guardDropped => exact .inl ⟨rfl, rfl⟩
  | renewed | renewUnsynced => exact .inr (.inl ⟨⟨_, rfl⟩, _, rfl⟩)
  | renew | renewFailed | releaseFailed | dropFailed | guardDropFailed | crashed =>
    exact .inr (.inr ⟨⟨nofun, nofun⟩, rfl⟩)
  | _ => exact (guard rfl).elim

/-- A process renews or releases its lock, or drops its guard: the file of whoever else holds the
lock stays as it is exactly if the call fails or nobody else holds the lock. -/
theorem undisturbed_iff {bytes : Option B} {now : Nat → Instant} {signals : Nat → Nat → Bool} {tr}
    {s s' : System B} {i : Nat} {a : Event}
    (r : Run (LockStep F procs) (.start bytes now signals) tr s)
    (st : LockStep F procs s (.act i a) s') (guard : (s.pc i).guard ≠ none) :
    (∀ j lock, j ≠ i → Current s j lock → Contains F s' lock) ↔
      ((a = .removed ∨ ∃ synced, a = .renewed synced) →
        ∀ j lock, j ≠ i → ¬ Current s j lock) := by
  cases st with
  | act st =>
    rcases st.by_guard guard with ⟨rfl, gone⟩ | ⟨⟨synced, rfl⟩, b, other⟩ | ⟨⟨kept, kept'⟩, same⟩
    · constructor
      · intro keeps _ j lock ne current
        have here := keeps j lock ne current
        rw [Contains, gone] at here
        cases here
      · intro alone j lock ne current
        exact (alone (.inl rfl) j lock ne current).elim
    · constructor
      · intro keeps _ j lock ne current
        have here := keeps j lock ne current
        have old := (Written.run r j).old lock current.1
        simp only [Contains, other, Option.some.injEq, File.mk.injEq] at here
        omega
      · intro alone j lock ne current
        exact (alone (.inr ⟨synced, rfl⟩) j lock ne current).elim
    · constructor
      · rintro _ (rfl | ⟨synced, rfl⟩)
        · exact (kept rfl).elim
        · exact (kept' synced rfl).elim
      · intro _ j lock ne current
        rw [Contains, same]
        exact current.contains (Written.run r j)

section Concrete

/-- The lock of process 0, taken sixteen minutes before noon. -/
def early : RunLock := ⟨.current (collector 0) 0, 1, .current (collector 0) 0⟩

/-- The processes before that. -/
def morning : System (Option LockMetadata) := .start none (fun _ => 0) fun _ _ => true

/-- Process 0 has its lock from the morning, process 1 has reclaimed it at noon. -/
def reclaimed : System (Option LockMetadata) where
  shared := fs (some ⟨2, some (.current (collector 1) noon)⟩) 3
  pc := Function.update (Function.update morning.pc 0 (.holding early)) 1 (.holding (lockOf 1 2))

lemma run_reclaimed : ∃ tr, Run (LockStep plain collector) morning tr reclaimed ∧
    .act 1 (.judged (some .ttlExpired)) ∈ tr := by
  have acquires : Run (Solo (Local plain collector) 0) (morning.shared, .idle)
      [.acquire, .stamped, .created]
      ({ fs (some ⟨1, some (.current (collector 0) 0)⟩) 2 with now := fun _ => 0 },
        .holding early) :=
    solo_cons .acquire <|
    solo_cons .stamped <|
    solo_cons (.created rfl) .nil
  have held : Run (LockStep plain collector) morning _ _ := solo_run acquires rfl rfl
  have noon := held.snoc (.env (b := ()) (g := fs (some ⟨1, some (.current (collector 0) 0)⟩) 2)
    ⟨rfl, rfl⟩)
  have takes := ((finds_stale 1 1 2 rfl).append (reclaims 1 1 2 (some early.written))).mono And.left
  exact ⟨_, noon.append (solo_run takes rfl rfl), by simp⟩

/-- The former holder fails to remove the file, which stays that of the holder. -/
theorem undisturbed_by_failure : ∃ s',
    LockStep plain collector reclaimed (.act 0 .removeFailed) s' ∧
    Current reclaimed 1 (lockOf 1 2) ∧ Contains plain s' (lockOf 1 2) := by
  obtain ⟨tr, r, -⟩ := run_reclaimed
  have st : LockStep plain collector reclaimed (.act 0 .removeFailed) _ := .act .guardDropFailed
  have current : Current reclaimed 1 (lockOf 1 2) := ⟨rfl, _, rfl, rfl⟩
  refine ⟨_, st, current, (undisturbed_iff r st (by rintro ⟨⟩)).mpr ?_ 1 _ Nat.one_ne_zero current⟩
  rintro (e | ⟨synced, e⟩) <;> cases e

/-- The guard of the former holder is dropped: the file of the process that has reclaimed the lock
is gone. -/
theorem former_holder_removes : ∃ tr s', Run (LockStep plain collector) morning tr reclaimed ∧
    .act 1 (.judged (some .ttlExpired)) ∈ tr ∧ Current reclaimed 1 (lockOf 1 2) ∧
    LockStep plain collector reclaimed (.act 0 .removed) s' ∧
    (s'.pc 1).lock = some (lockOf 1 2) ∧ s'.shared.file = none := by
  obtain ⟨tr, r, expired⟩ := run_reclaimed
  exact ⟨tr, _, r, expired, ⟨rfl, _, rfl, rfl⟩, .act (.guardDropped rfl), rfl, rfl⟩

end Concrete

end CherryPit.Lock
