import CherryPit.Conc.Pairs
import CherryPit.Lock.Acquire

/-!
# Mutual exclusion of the run lock

Judging the file at the path and removing it are separate filesystem calls, and the path may name
another file by the time of the second (`fresh_lock_removed`). If every removal finds at the path
the file that the process has found stale or corrupt, or its own, or nothing, and what is written
stays below the size that `read_lock` accepts, then at any time at most one process holds the lock
(`at_most_one_holder`): the file of a holder stays at the path.
-/

namespace CherryPit.Lock

open Conc Threads

variable {B : Type} {s' : Fs B}

/-- The file that the process may remove. -/
def Pc.target (p : Pc) : Option Nat :=
  match p.lock with
  | some lock => some lock.inode
  | none => p.suspects

/-- A removal finds at the path only the file that the process has judged or written, and what is
written is not too large to be read back. -/
def careful (F : Format B) (s : Fs B) (p : Pc) : Event → Prop
  | .removed => ∀ f, s.file = some f → p.target = some f.inode
  | .created | .renewed _ => ∀ m, p.writes = some m → F.size (F.render m) ≤ maxLockFileBytes
  | _ => True

/-- Every holder is alive and within the TTL, in the eyes of every process. -/
def Punctual (procs : Nat → Process) (s : System B) : Prop :=
  ∀ i j lock, (s.pc j).lock = some lock →
    reclaimReason (procs i) (s.shared.now i) (s.shared.signals i) lock.written = none

/-- Steps of a process that are careful. -/
abbrev CarefulLocal (F : Format B) (procs : Nat → Process) (i : Nat) (s : Fs B) (p : Pc) (a : Event)
    (s' : Fs B) (p' : Pc) : Prop :=
  Local F procs i s p a s' p' ∧ careful F s p a

/-- Steps among punctual holders. -/
def AmongPunctual (procs : Nat → Process) (loc : Nat → Fs B → Pc → Event → Fs B → Pc → Prop)
    (s : System B) (l : Label Event Unit) (s' : System B) : Prop :=
  IStep loc WorldStep s l s' ∧ Punctual procs s

section Invariant

variable {F : Format B} {procs : Nat → Process} {l : RunLock} {n : Nat}

/-- The file of a holder is at the path and can be read, and a process has only seen files that
exist by now. -/
structure Own (F : Format B) (s : Fs B) (p : Pc) : Prop where
  fresh : ∀ f, s.file = some f → f.inode < s.nextInode
  lock : ∀ l, p.lock = some l → s.file = some ⟨l.inode, F.render l.written⟩ ∧
    F.size (F.render l.written) ≤ maxLockFileBytes
  judging : ∀ n m, p.judging = some (n, m) → n < s.nextInode
  suspects : ∀ n, p.suspects = some n → n < s.nextInode

lemma Own.congr {s : Fs B} {p : Pc} (own : Own F s p) (file : s'.file = s.file)
    (next : s'.nextInode = s.nextInode) : Own F s' p := by
  refine ⟨?_, ?_, ?_, ?_⟩
  · rw [file, next]
    exact own.fresh
  · rw [file]
    exact own.lock
  · rw [next]
    exact own.judging
  · rw [next]
    exact own.suspects

/-- Two processes do not both hold the lock, one judges the file of the other by what the other
wrote, and does not suspect it. -/
structure Between (p q : Pc) : Prop where
  exclusive : p.lock = none ∨ q.lock = none
  judging : ∀ n m l, p.judging = some (n, m) → q.lock = some l → l.inode = n → l.written = m
  suspects : ∀ n l, p.suspects = some n → q.lock = some l → l.inode ≠ n

/-- The invariant of careful steps. -/
abbrev Guarded (F : Format B) : System B → Prop := Pairs (Own F) Between

lemma Guarded.start (bytes : Option B) (now : Nat → Instant) (signals : Nat → Nat → Bool) :
    Guarded F (.start bytes now signals) := by
  refine Pairs.start ⟨?_, nofun, nofun, nofun⟩ ⟨.inl rfl, nofun, nofun⟩
  intro f e
  obtain ⟨b, -, rfl⟩ := Option.map_eq_some_iff.mp e
  exact Nat.one_pos

/-- A process whose file is at the path is the one that can read it. -/
lemma Own.read {s : Fs B} {q : Pc} {b : B} (own : Own F s q) (holds : q.lock = some l)
    (here : s.file = some ⟨n, b⟩) : b = F.render l.written := by
  have e := (own.lock l holds).1
  rw [here] at e
  cases e
  rfl

variable {s : System B} {i : Nat} {a : Event} {g : Fs B} {p : Pc} {j : Nat}

/-- What a process that only looks comes to suspect is not the file of a holder. -/
lemma Guarded.suspects (inv : Guarded F s) (punctual : Punctual procs s) (ne : j ≠ i)
    (holds : (s.pc j).lock = some l)
    (why : (s.pc i).suspects = some n ∨
      (∃ b, s.shared.file = some ⟨n, b⟩ ∧ (F.parse b = none ∨ maxLockFileBytes < F.size b)) ∨
      ∃ m, (s.pc i).judging = some (n, m) ∧
        reclaimReason (procs i) (s.shared.now i) (s.shared.signals i) m ≠ none) :
    l.inode ≠ n := by
  have between := inv.between ne.symm
  rcases why with e | ⟨b, here, bad⟩ | ⟨m, e, stale⟩
  · exact between.suspects n l e holds
  · rintro rfl
    have same := (inv.own j).read holds here
    subst same
    rcases bad with bad | large
    · rw [F.parse_render] at bad
      cases bad
    · have small := ((inv.own j).lock l holds).2
      omega
  · intro same
    rw [← between.judging n m l e holds same] at stale
    exact stale (punctual i j l holds)

/-- No process may remove the file of another holder. -/
lemma Guarded.not_target (inv : Guarded F s) (ne : j ≠ i) (holds : (s.pc j).lock = some l) :
    (s.pc i).target ≠ some l.inode := by
  intro target
  have between := inv.between ne.symm
  unfold Pc.target at target
  rcases between.exclusive with none | none
  · rw [none] at target
    exact between.suspects _ l target holds rfl
  · rw [none] at holds
    cases holds

/-- The process that moves keeps the invariant for itself. -/
lemma Guarded.own_act (inv : Guarded F s) (mind : careful F s.shared (s.pc i) a)
    (st : Local F procs i s.shared (s.pc i) a g p) : Own F g p := by
  have own := inv.own i
  cases st.moves with
  | looks file next lock judging suspects =>
    refine ⟨?_, ?_, ?_, ?_⟩
    · rw [file, next]
      exact own.fresh
    · rw [file, lock]
      exact own.lock
    · intro n m e
      obtain ⟨b, here, -⟩ := judging n m e
      rw [next]
      exact own.fresh _ here
    · intro n e
      rw [next]
      rcases suspects n e with e | ⟨b, here, -⟩ | ⟨m, e, -⟩
      · exact own.suspects n e
      · exact own.fresh _ here
      · exact own.judging n m e
  | writes l free writes number event file next lock judging suspects =>
    have small : F.size (F.render l.written) ≤ maxLockFileBytes := by
      rcases event with rfl | ⟨synced, rfl⟩
      · exact mind _ writes
      · exact mind _ writes
    refine ⟨?_, ?_, ?_, ?_⟩
    · intro f e
      rw [file] at e
      cases e
      rw [next]
      exact Nat.lt_succ_self _
    · intro l' e
      rw [lock] at e
      cases e
      exact ⟨number ▸ file, small⟩
    · simp [judging]
    · simp [suspects]
  | leaves file next lock judging suspects =>
    refine ⟨?_, by simp [lock], by simp [judging], ?_⟩
    · rw [next]
      rcases file with file | ⟨-, file⟩
      · rw [file]
        exact own.fresh
      · simp [file]
    · intro n e
      obtain ⟨l, holds, rfl⟩ := suspects n e
      rw [next]
      exact own.fresh _ (own.lock l holds).1

/-- And with respect to any other process. -/
lemma Guarded.others_act (inv : Guarded F s) (punctual : Punctual procs s)
    (mind : careful F s.shared (s.pc i) a) (st : Local F procs i s.shared (s.pc i) a g p)
    (ne : j ≠ i) : Own F g (s.pc j) ∧ Between p (s.pc j) ∧ Between (s.pc j) p := by
  have own := inv.own j
  have left := inv.between ne.symm
  have right := inv.between ne
  cases st.moves with
  | looks file next lock judging suspects =>
    refine ⟨own.congr file next, ⟨?_, ?_, ?_⟩, ⟨?_, ?_, ?_⟩⟩
    · rw [lock]
      exact left.exclusive
    · intro n m l e holds same
      obtain ⟨b, here, good⟩ := judging n m e
      rw [own.read holds here, F.parse_render] at good
      cases good
      rfl
    · intro n l e holds
      exact inv.suspects punctual ne holds (suspects n e)
    · rw [lock]
      exact right.exclusive
    · rw [lock]
      exact right.judging
    · rw [lock]
      exact right.suspects
  | writes l free writes number event file next lock judging suspects =>
    -- the path was empty or the lock the process's own: the other one does not hold it
    have out : (s.pc j).lock = none := by
      rcases free with empty | holds
      · by_contra holds
        obtain ⟨l', holds⟩ := Option.ne_none_iff_exists'.mp holds
        have here := (own.lock l' holds).1
        rw [empty] at here
        cases here
      · exact left.exclusive.resolve_left holds
    refine ⟨⟨?_, by simp [out], ?_, ?_⟩, ⟨.inr out, by simp [out], by simp [out]⟩,
      ⟨.inl out, ?_, ?_⟩⟩
    · intro f e
      rw [file] at e
      cases e
      rw [next]
      exact Nat.lt_succ_self _
    · intro n m e
      rw [next]
      exact Nat.lt_succ_of_lt (own.judging n m e)
    · intro n e
      rw [next]
      exact Nat.lt_succ_of_lt (own.suspects n e)
    · intro n m l' e holds same
      rw [lock] at holds
      cases holds
      have old := own.judging n m e
      omega
    · intro n l' e holds same
      rw [lock] at holds
      cases holds
      have old := own.suspects n e
      omega
  | leaves file next lock judging suspects =>
    refine ⟨⟨?_, ?_, ?_, ?_⟩, ⟨.inl lock, by simp [judging], ?_⟩,
      ⟨.inr lock, by simp [lock], by simp [lock]⟩⟩
    · rw [next]
      rcases file with file | ⟨-, file⟩
      · rw [file]
        exact own.fresh
      · simp [file]
    · intro l holds
      rcases file with file | ⟨rfl, -⟩
      · rw [file]
        exact own.lock l holds
      · -- the file that was removed was the other one's
        have here := (own.lock l holds).1
        exact (inv.not_target ne holds (mind _ here)).elim
    · rw [next]
      exact own.judging
    · rw [next]
      exact own.suspects
    · intro n l e holds
      obtain ⟨l', holds', -⟩ := suspects n e
      rcases left.exclusive with none | none
      · rw [none] at holds'
        cases holds'
      · rw [none] at holds
        cases holds

lemma Guarded.step {l} {s' : System B} (inv : Guarded F s)
    (st : AmongPunctual procs (CarefulLocal F procs) s l s') : Guarded F s' := by
  obtain ⟨st, punctual⟩ := st
  cases st with
  | act st =>
    obtain ⟨st, mind⟩ := st
    exact inv.update (inv.own_act mind st) fun ne => inv.others_act punctual mind st ne
  | env st =>
    obtain ⟨file, next⟩ := st
    exact inv.env fun own => own.congr file next

end Invariant

section Exclusion

variable {F : Format B} {procs : Nat → Process} {bytes : Option B} {now : Nat → Instant}
  {signals : Nat → Nat → Bool} {tr : List (Label Event Unit)} {s : System B}

/-- Whatever is at the path at first, as long as every holder is alive and within the TTL, every
removal finds the file that was judged or written by the process, and every lock file is small
enough to be read: no two processes hold the lock. -/
theorem at_most_one_holder
    (r : Run (AmongPunctual procs (CarefulLocal F procs)) (.start bytes now signals) tr s)
    {i j : Nat} {l l' : RunLock} (hi : (s.pc i).lock = some l) (hj : (s.pc j).lock = some l') :
    i = j := by
  by_contra ne
  have inv := r.invariant (fun inv st => Guarded.step inv st) (Guarded.start bytes now signals)
  rcases (inv.between ne).exclusive with out | out
  · rw [out] at hi
    cases hi
  · rw [out] at hj
    cases hj

end Exclusion

section Concrete

variable {m : LockMetadata} {t : Instant} {p' : Pc}

/-- The metadata is of this time. -/
def Pc.dated (t : Instant) : Pc → Prop
  | .create m _ | .size m _ | .read m _ | .judge m _ _ _ | .removeStale m _ _ | .stat m _ _ |
    .removeCorrupt m _ _ => m.createdAt = t
  | .holding lock => lock.written.createdAt = t
  | .renewing lock m => lock.written.createdAt = t ∧ m.createdAt = t
  | _ => True

lemma dated_retry {left : Nat} (h : m.createdAt = t) : (retry m left).dated t := by
  unfold retry
  split
  · exact h
  · trivial

lemma Local.dated {F : Format B} {procs : Nat → Process} {i : Nat} {s : Fs B} {p : Pc} {a : Event}
    (st : Local F procs i s p a s' p') (now : s.now i = t) (h : p.dated t) : p'.dated t := by
  cases st with
  | acquire => split <;> trivial
  | existed => split <;> trivial
  | stamped => exact now
  | staleRemoved | staleFailed | statGone | corruptRemoved | corruptFailed => exact dated_retry h
  | renew => exact ⟨h, now⟩
  | renewed | renewUnsynced => exact h.2
  | renewFailed => exact h.1
  | dirFailed | forceRemoved | forceFailed | createFailed | held | returned | released |
    releaseFailed | dropped | dropFailed | guardDropped | guardDropFailed | crashed => trivial
  | _ => exact h

/-- The clocks stand still, every pid is found, and every lock is of this time. -/
structure Still (t : Instant) (s : System B) : Prop where
  now : ∀ i, s.shared.now i = t
  signals : ∀ i pid, s.shared.signals i pid = true
  dated : ∀ i, (s.pc i).dated t

lemma Still.punctual {s : System B} (still : Still t s) (procs : Nat → Process) :
    Punctual procs s := by
  intro i j lock holds
  have alive : sameHostDeadHolder lock.written (procs i).hostname (s.shared.signals i) = false := by
    simp [sameHostDeadHolder, pidIsAlive, still.signals]
  have created : lock.written.createdAt = t := by
    have dated := still.dated j
    cases at' : s.pc j <;> rw [at'] at holds dated <;> cases holds
    · exact dated
    · exact dated.1
  have young : ttlExpired lock.written (procs i).staleTtl (s.shared.now i) = false := by
    simp [ttlExpired, still.now, created]
  simp [reclaimReason, alive, young]

lemma Local.world {F : Format B} {procs : Nat → Process} {i : Nat} {s : Fs B} {p : Pc} {a : Event}
    (st : Local F procs i s p a s' p') : s'.now = s.now ∧ s'.signals = s.signals := by
  cases st <;> exact ⟨rfl, rfl⟩

/-- While the clocks stand still, a process moves among punctual holders. -/
lemma Still.run {F : Format B} {procs : Nat → Process} {s s' : System B} {tr}
    {loc : Nat → Fs B → Pc → Event → Fs B → Pc → Prop}
    (sub : ∀ {i s p a s' p'}, loc i s p a s' p' → Local F procs i s p a s' p') (still : Still t s)
    (acts : ∀ u, .env u ∉ tr) (r : Run (IStep loc WorldStep) s tr s') :
    Run (AmongPunctual procs loc) s tr s' ∧ Still t s' := by
  induction r with
  | nil => exact ⟨.nil, still⟩
  | @cons s l s1 tr s' st r ih =>
    have next : Still t s1 := by
      cases st with
      | @act i a g p st =>
        obtain ⟨now, signals⟩ := (sub st).world
        refine ⟨fun j => now ▸ still.now j, fun j pid => signals ▸ still.signals j pid, fun j => ?_⟩
        rcases eq_or_ne j i with rfl | ne
        · simpa only [Function.update_self] using (sub st).dated (still.now j) (still.dated j)
        · simpa only [Function.update_of_ne ne] using still.dated j
      | env => exact (acts _ (List.mem_cons_self ..)).elim
    obtain ⟨r, still'⟩ := ih next fun u mem => acts u (List.mem_cons_of_mem _ mem)
    exact ⟨.cons ⟨st, still.punctual procs⟩ r, still'⟩

/-- A format whose files hold metadata or garbage. -/
def plain : Format (Option LockMetadata) where
  render := some
  parse := id
  size _ := 200
  parse_render _ := rfl

lemma plain_small (b : Option LockMetadata) : plain.size b ≤ maxLockFileBytes := by
  simp [plain, maxLockFileBytes]

/-- The processes of the concrete runs, on one host. -/
def collector (i : Nat) : Process := ⟨100 + i, "host", "run", defaultLockTtl, false⟩

/-- The lock of a process that has crashed on another host. -/
def abandoned : LockMetadata := ⟨"old", 99, "elsewhere", 0⟩

/-- Sixteen minutes later. -/
def noon : Instant := 960000000000

/-- The lock of process `i` at noon in file `inode`. -/
def lockOf (i inode : Nat) : RunLock :=
  ⟨.current (collector i) noon, inode, .current (collector i) noon⟩

/-- The filesystem at noon with this file at the path. -/
def fs (file : Option (File (Option LockMetadata))) (nextInode : Nat) : Fs (Option LockMetadata) :=
  ⟨file, nextInode, fun _ => noon, fun _ _ => true⟩

/-- The processes find the lock of the crashed one. -/
def crashSite : System (Option LockMetadata) :=
  .start (some (some abandoned)) (fun _ => noon) fun _ _ => true

lemma Still.crashSite : Still noon crashSite := ⟨fun _ => rfl, fun _ _ => rfl, fun _ => trivial⟩

lemma stale_at_noon (i : Nat) (created : m.createdAt = 0) :
    reclaimReason (collector i) noon (fun _ => true) m = some .ttlExpired := by
  simp [reclaimReason, sameHostDeadHolder, ttlExpired, ttlJiff, pidIsAlive, collector, created,
    defaultLockTtl, noon]

/-- A process finds a lock from sixteen minutes before stale. -/
lemma finds_stale (i inode next : Nat) (created : m.createdAt = 0) :
    Run (Solo (CarefulLocal plain collector) i) (fs (some ⟨inode, some m⟩) next, .idle)
      [.acquire, .stamped, .alreadyExists, .sized, .read, .judged (some .ttlExpired)]
      (fs (some ⟨inode, some m⟩) next, .removeStale (.current (collector i) noon) 3 inode) :=
  solo_cons ⟨.acquire, trivial⟩ <|
  solo_cons ⟨.stamped, trivial⟩ <|
  solo_cons ⟨.alreadyExists rfl, trivial⟩ <|
  solo_cons ⟨.sized rfl (plain_small _), trivial⟩ <|
  solo_cons ⟨.read rfl rfl, trivial⟩ <|
  solo_cons ⟨.stale (stale_at_noon i created), trivial⟩ .nil

/-- It removes the file and creates its own. -/
lemma reclaims (i inode next : Nat) (b : Option LockMetadata) :
    Run (Solo (CarefulLocal plain collector) i)
      (fs (some ⟨inode, b⟩) next, .removeStale (.current (collector i) noon) 3 inode)
      [.removed, .created]
      (fs (some ⟨next, some (.current (collector i) noon)⟩) (next + 1), .holding (lockOf i next)) :=
  solo_cons ⟨.staleRemoved rfl, by rintro f ⟨⟩; rfl⟩ <|
  solo_cons ⟨.created rfl, fun _ _ => plain_small _⟩ .nil

/-- The lock of the crashed process is reclaimed by one process and found held by another. -/
theorem one_reclaims : ∃ tr s,
    Run (AmongPunctual collector (CarefulLocal plain collector)) crashSite tr s ∧
      (s.pc 0).lock = some (lockOf 0 1) ∧ .act 1 (.judged none) ∈ tr ∧
      ∀ j l, (s.pc j).lock = some l → j = 0 := by
  have refused : Run (Solo (CarefulLocal plain collector) 1)
      (fs (some ⟨1, some (.current (collector 0) noon)⟩) 2, .idle)
      [.acquire, .stamped, .alreadyExists, .sized, .read, .judged none]
      (fs (some ⟨1, some (.current (collector 0) noon)⟩) 2,
        .failed (.held (.current (collector 0) noon))) :=
    solo_cons ⟨.acquire, trivial⟩ <|
    solo_cons ⟨.stamped, trivial⟩ <|
    solo_cons ⟨.alreadyExists rfl, trivial⟩ <|
    solo_cons ⟨.sized rfl (plain_small _), trivial⟩ <|
    solo_cons ⟨.read rfl rfl, trivial⟩ <|
    solo_cons ⟨.held rfl, trivial⟩ .nil
  have r : Run (IStep (CarefulLocal plain collector) WorldStep) crashSite _ _ :=
    (solo_run (finds_stale 0 0 1 rfl) rfl rfl).append
      ((solo_run (reclaims 0 0 1 _) rfl rfl).append (solo_run refused rfl rfl))
  obtain ⟨r, -⟩ := Still.crashSite.run (fun st => st.1) (by simp) r
  refine ⟨_, _, r, rfl, by simp, fun j l holds => ?_⟩
  exact at_most_one_holder r holds rfl

/-- Two processes find the lock stale. The second removes the file that the first has created in the
meantime, and both hold the lock. -/
theorem fresh_lock_removed : ∃ tr s, Run (AmongPunctual collector (Local plain collector)) crashSite
      tr s ∧ Punctual collector s ∧ (s.pc 0).lock = some (lockOf 0 1) ∧
      (s.pc 1).lock = some (lockOf 1 2) := by
  have removes : Run (Solo (Local plain collector) 1)
      (fs (some ⟨1, some (.current (collector 0) noon)⟩) 2,
        .removeStale (.current (collector 1) noon) 3 0)
      [.removed, .created]
      (fs (some ⟨2, some (.current (collector 1) noon)⟩) 3, .holding (lockOf 1 2)) :=
    solo_cons (.staleRemoved rfl) <|
    solo_cons (.created rfl) .nil
  have finds (i : Nat) := (finds_stale i 0 1 (m := abandoned) rfl).mono And.left
  have r : Run (LockStep plain collector) crashSite _ _ :=
    (solo_run (finds 0) rfl rfl).append ((solo_run (finds 1) rfl rfl).append
      ((solo_run ((reclaims 0 0 1 _).mono And.left) rfl rfl).append
        (solo_run removes rfl rfl)))
  obtain ⟨r, still⟩ := Still.crashSite.run id (by simp) r
  exact ⟨_, _, r, still.punctual _, rfl, rfl⟩

end Concrete

end CherryPit.Lock
