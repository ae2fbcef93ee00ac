import CherryPit.Conc.Threads
import CherryPit.Core.Work

/-!
# The run lock

Port of `cherry-pit-storage/src/lock.rs` (`acquire_with_clock`, `reclaim_reason`,
`create_lock_exclusive`, `read_lock`, `RunLock::release`, `renew`, `Drop`). Processes that call
`acquire` share one path; every filesystem call of one of them is a step.

Rust → Lean: a file is its bytes and a number that no other file has had, so that a path that names
another file later can be told. What is written and read back is a parameter (`Format`): serde's
round trip is assumed of it and nothing else. `create_lock_exclusive` links a complete file to the
path, `renew` renames one over it: both are one step. `release` deletes the file and then drops the
guard, which deletes again. A filesystem call may fail at any time. The clock that a process reads
and what signal 0 tells it about a pid are in the shared state and may change at any time. Log lines
and the texts of the errors are left out.
-/

namespace CherryPit.Lock

open Conc

/-- Rust `LockMetadata`. -/
structure LockMetadata where
  runId : String
  pid : Nat
  hostname : String
  createdAt : Instant
  deriving DecidableEq

/-- A process that calls `acquire`: who it is and what it passes. -/
structure Process where
  pid : Nat
  hostname : String
  runId : String
  staleTtl : Duration
  force : Bool

/-- Rust `LockMetadata::current_with_clock`. -/
def LockMetadata.current (proc : Process) (now : Instant) : LockMetadata where
  runId := proc.runId
  pid := proc.pid
  hostname := proc.hostname
  createdAt := now

/-- Rust `ReclaimReason`. -/
inductive ReclaimReason where
  | ttlExpired
  | deadHolderSameHost
  deriving DecidableEq

/-- Rust `DEFAULT_LOCK_TTL`, in nanoseconds. -/
def defaultLockTtl : Duration := 15 * 60 * 1000000000

/-- `SignedDuration::try_from` takes whole seconds below `2^63`. -/
def ttlJiff (ttl : Duration) : Duration :=
  if ttl / 1000000000 < 2 ^ 63 then ttl else defaultLockTtl

/-- Rust `ttl_expired`. -/
def ttlExpired (existing : LockMetadata) (ttl : Duration) (now : Instant) : Bool :=
  decide ((ttlJiff ttl : Int) < now - existing.createdAt)

/-- Rust `pid_is_alive`; `signals` says which pids signal 0 finds. -/
def pidIsAlive (signals : Nat → Bool) (pid : Nat) : Bool :=
  if 2 ^ 31 ≤ pid then true else if pid = 0 then true else signals pid

/-- Rust `same_host_dead_holder`. -/
def sameHostDeadHolder (existing : LockMetadata) (hostname : String) (signals : Nat → Bool) :
    Bool :=
  !existing.hostname.isEmpty && existing.hostname == hostname && !pidIsAlive signals existing.pid

/-- Rust `reclaim_reason`, for a process that sees this time and these pids. -/
def reclaimReason (proc : Process) (now : Instant) (signals : Nat → Bool)
    (existing : LockMetadata) : Option ReclaimReason :=
  if sameHostDeadHolder existing proc.hostname signals then some .deadHolderSameHost
  else if ttlExpired existing proc.staleTtl now then some .ttlExpired
  else none

section Staleness

variable {ttl short long : Duration} {now : Instant} {existing : LockMetadata} {hostname : String}
  {signals : Nat → Bool} {proc : Process}

/-- The lock names this host and a pid of it that signal 0 does not find. -/
structure DeadHere (existing : LockMetadata) (hostname : String) (signals : Nat → Bool) : Prop where
  named : existing.hostname ≠ ""
  here : existing.hostname = hostname
  pos : 0 < existing.pid
  small : existing.pid < 2 ^ 31
  gone : signals existing.pid = false

lemma pidIsAlive_eq_false {pid : Nat} :
    pidIsAlive signals pid = false ↔ 0 < pid ∧ pid < 2 ^ 31 ∧ signals pid = false := by
  unfold pidIsAlive
  split
  case isTrue large =>
    exact iff_of_false (by simp) fun found => absurd found.2.1 (Nat.not_lt.mpr large)
  case isFalse small =>
    split
    case isTrue zero => simp [zero]
    case isFalse pos =>
      constructor
      · intro gone
        exact ⟨Nat.pos_of_ne_zero pos, Nat.lt_of_not_le small, gone⟩
      · intro found
        exact found.2.2

lemma sameHostDeadHolder_iff :
    sameHostDeadHolder existing hostname signals = true ↔ DeadHere existing hostname signals := by
  simp only [sameHostDeadHolder, Bool.and_eq_true, Bool.not_eq_true', pidIsAlive_eq_false,
    String.isEmpty_eq_false_iff, beq_iff_eq]
  constructor
  · rintro ⟨⟨named, here⟩, pos, small, gone⟩
    exact ⟨named, here, pos, small, gone⟩
  · intro dead
    exact ⟨⟨dead.named, dead.here⟩, dead.pos, dead.small, dead.gone⟩

/-- Whether a process that passes this TTL may take the lock away. -/
def Reclaimable (proc : Process) (now : Instant) (signals : Nat → Bool) (existing : LockMetadata)
    (ttl : Duration) : Prop :=
  (reclaimReason { proc with staleTtl := ttl } now signals existing).isSome = true

lemma reclaimable_iff :
    Reclaimable proc now signals existing ttl ↔
      DeadHere existing proc.hostname signals ∨ (ttlJiff ttl : Int) < now - existing.createdAt := by
  rw [← sameHostDeadHolder_iff]
  unfold Reclaimable reclaimReason
  split
  case isTrue dead => simp [dead]
  case isFalse alive => simp [alive, ttlExpired]

lemma ttlJiff_of_fits (h : ttl / 1000000000 < 2 ^ 63) : ttlJiff ttl = ttl :=
  if_pos h

lemma ttlJiff_of_large (h : 2 ^ 63 ≤ ttl / 1000000000) : ttlJiff ttl = defaultLockTtl :=
  if_neg (Nat.not_lt.mpr h)

/-- A TTL of `2^63` s and more counts as 15 minutes. A shorter one that the lock has not reached by
then protects it better. -/
theorem reclaimable_antitone_iff (proc : Process) (now : Instant) (signals : Nat → Bool)
    (existing : LockMetadata) (le : short ≤ long) :
    (Reclaimable proc now signals existing long → Reclaimable proc now signals existing short) ↔
      long / 1000000000 < 2 ^ 63 ∨ 2 ^ 63 ≤ short / 1000000000 ∨
        DeadHere existing proc.hostname signals ∨
        now - existing.createdAt ≤ (defaultLockTtl : Int) ∨
        (short : Int) < now - existing.createdAt := by
  rw [reclaimable_iff, reclaimable_iff]
  by_cases fits : long / 1000000000 < 2 ^ 63
  · -- both are taken as they are
    have short_fits : short / 1000000000 < 2 ^ 63 := (Nat.div_le_div_right le).trans_lt fits
    rw [ttlJiff_of_fits fits, ttlJiff_of_fits short_fits]
    refine iff_of_true ?_ (.inl fits)
    exact Or.imp_right (Int.ofNat_le.mpr le).trans_lt
  · have large : 2 ^ 63 ≤ long / 1000000000 := Nat.not_lt.mp fits
    rw [ttlJiff_of_large large]
    by_cases short_fits : short / 1000000000 < 2 ^ 63
    · rw [ttlJiff_of_fits short_fits]
      simp only [fits, Nat.not_le.mpr short_fits, false_or]
      constructor
      · intro imp
        by_cases old : (defaultLockTtl : Int) < now - existing.createdAt
        · exact (imp (.inr old)).imp_right .inr
        · exact .inr (.inl (Int.not_lt.mp old))
      · rintro (dead | young | expired) reclaim
        · exact .inl dead
        · exact reclaim.imp_right fun old => absurd old (Int.not_lt.mpr young)
        · exact .inr expired
    · have short_large : 2 ^ 63 ≤ short / 1000000000 := Nat.not_lt.mp short_fits
      rw [ttlJiff_of_large short_large]
      exact iff_of_true id (.inr (.inl short_large))

/-- A process with a lock. -/
def backup : Process := ⟨7, "db", "run", 0, false⟩

/-- Three hours after the lock was taken it is stale for a TTL of two hours, and so for one of one
hour. -/
theorem reclaimable_antitone_iff_hours :
    Reclaimable backup (10800 * 1000000000) (fun _ => true) (.current backup 0)
        (7200 * 1000000000) ∧
      Reclaimable backup (10800 * 1000000000) (fun _ => true) (.current backup 0)
        (3600 * 1000000000) := by
  have stale : Reclaimable backup (10800 * 1000000000) (fun _ => true) (.current backup 0)
      (7200 * 1000000000) := by
    unfold Reclaimable
    decide
  refine ⟨stale, ?_⟩
  exact (reclaimable_antitone_iff backup (10800 * 1000000000) (fun _ => true) (.current backup 0)
    (by decide)).mpr (.inl (by decide)) stale

/-- A living holder's lock, 16 minutes old: safe for an hour, but not for `u64::MAX` seconds. -/
theorem longest_ttl_reclaims :
    Reclaimable backup (960 * 1000000000) (fun _ => true) (.current backup 0)
        ((2 ^ 64 - 1) * 1000000000) ∧
      ¬ Reclaimable backup (960 * 1000000000) (fun _ => true) (.current backup 0)
        (3600 * 1000000000) := by
  unfold Reclaimable
  decide

end Staleness

/-- How metadata is written to bytes and read back. -/
structure Format (B : Type) where
  render : LockMetadata → B
  parse : B → Option LockMetadata
  size : B → Nat
  parse_render : ∀ m, parse (render m) = some m

/-- Rust `MAX_LOCK_FILE_BYTES`. -/
def maxLockFileBytes : Nat := 1048576

/-- Rust `MAX_ACQUIRE_ATTEMPTS`. -/
def maxAcquireAttempts : Nat := 3

/-- A file, with a number of its own. -/
structure File (B : Type) where
  inode : Nat
  bytes : B
  deriving DecidableEq

/-- What the processes share: the path, the number of the next file, and what each process would
read off its clock and find out about a pid. -/
structure Fs (B : Type) where
  file : Option (File B)
  nextInode : Nat
  now : Nat → Instant
  signals : Nat → Nat → Bool

/-- Rust `RunLock`. `inode` is the file it wrote last and `written` what it wrote. -/
structure RunLock where
  metadata : LockMetadata
  inode : Nat
  written : LockMetadata

/-- Why `acquire` fails. -/
inductive LockError where
  | io
  | createFailed
  | held (existing : LockMetadata)
  | maxRetries

/-- The program points of a process, named after what it is about to do. `left` is the number of
attempts, `seen` the file that it has read or failed to read. -/
inductive Pc where
  | idle
  | checkExists
  | forceRemove
  | stamp
  | create (m : LockMetadata) (left : Nat)
  | size (m : LockMetadata) (left : Nat)
  | read (m : LockMetadata) (left : Nat)
  | judge (m : LockMetadata) (left : Nat) (seen : Nat) (existing : LockMetadata)
  | removeStale (m : LockMetadata) (left : Nat) (seen : Nat)
  | stat (m : LockMetadata) (left : Nat) (seen : Option Nat)
  | removeCorrupt (m : LockMetadata) (left : Nat) (seen : Option Nat)
  | failed (e : LockError)
  | holding (lock : RunLock)
  | renewing (lock : RunLock) (refreshed : LockMetadata)
  | dropping (lock : RunLock)
  | dead

/-- What a step of a process does. -/
inductive Event where
  | acquire
  | dirFailed
  | existed (found : Bool)
  | stamped
  | created
  | alreadyExists
  | createFailed
  | sized
  | read
  | unreadable
  | judged (reason : Option ReclaimReason)
  | removed
  | removeFailed
  | statGone
  | statFound
  | returned
  | renew
  | renewed (synced : Bool)
  | renewFailed
  | crashed
  deriving DecidableEq

/-- The next attempt, if there is one. -/
def retry (m : LockMetadata) (left : Nat) : Pc :=
  if 1 < left then .create m (left - 1) else .failed .maxRetries

variable {B : Type}

/-- The filesystem after a file was linked to the path or renamed over it. -/
def Fs.write (s : Fs B) (bytes : B) : Fs B :=
  { s with file := some ⟨s.nextInode, bytes⟩, nextInode := s.nextInode + 1 }

/-- One step of process `i`. -/
inductive Local (F : Format B) (procs : Nat → Process) (i : Nat) :
    Fs B → Pc → Event → Fs B → Pc → Prop where
  | acquire {s} :
    Local F procs i s .idle .acquire s (if (procs i).force then .checkExists else .stamp)
  | dirFailed {s} :
    Local F procs i s .idle .dirFailed s (.failed .io)
  | existed {s} :
    Local F procs i s .checkExists (.existed s.file.isSome) s
      (if s.file.isSome then .forceRemove else .stamp)
  | forceRemoved {s f} :
    s.file = some f →
    Local F procs i s .forceRemove .removed { s with file := none } .stamp
  | forceFailed {s} :
    Local F procs i s .forceRemove .removeFailed s .stamp
  | stamped {s} :
    Local F procs i s .stamp .stamped s (.create (.current (procs i) (s.now i)) maxAcquireAttempts)
  | created {s m left} :
    s.file = none →
    Local F procs i s (.create m left) .created (s.write (F.render m))
      (.holding ⟨m, s.nextInode, m⟩)
  | alreadyExists {s m left f} :
    s.file = some f →
    Local F procs i s (.create m left) .alreadyExists s (.size m left)
  | createFailed {s m left} :
    Local F procs i s (.create m left) .createFailed s (.failed .createFailed)
  | sized {s m left f} :
    s.file = some f →
    F.size f.bytes ≤ maxLockFileBytes →
    Local F procs i s (.size m left) .sized s (.read m left)
  | oversized {s m left f} :
    s.file = some f →
    maxLockFileBytes < F.size f.bytes →
    Local F procs i s (.size m left) .unreadable s (.stat m left (some f.inode))
  -- nothing is at the path by now, or the call failed
  | sizeFailed {s m left} :
    Local F procs i s (.size m left) .unreadable s (.stat m left none)
  | read {s m left f existing} :
    s.file = some f →
    F.parse f.bytes = some existing →
    Local F procs i s (.read m left) .read s (.judge m left f.inode existing)
  | corrupt {s m left f} :
    s.file = some f →
    F.parse f.bytes = none →
    Local F procs i s (.read m left) .unreadable s (.stat m left (some f.inode))
  | readFailed {s m left} :
    Local F procs i s (.read m left) .unreadable s (.stat m left none)
  | stale {s m left seen existing reason} :
    reclaimReason (procs i) (s.now i) (s.signals i) existing = some reason →
    Local F procs i s (.judge m left seen existing) (.judged (some reason)) s
      (.removeStale m left seen)
  | held {s m left seen existing} :
    reclaimReason (procs i) (s.now i) (s.signals i) existing = none →
    Local F procs i s (.judge m left seen existing) (.judged none) s (.failed (.held existing))
  | staleRemoved {s m left seen f} :
    s.file = some f →
    Local F procs i s (.removeStale m left seen) .removed { s with file := none } (retry m left)
  | staleFailed {s m left seen} :
    Local F procs i s (.removeStale m left seen) .removeFailed s (retry m left)
  | statGone {s m left seen} :
    s.file = none →
    Local F procs i s (.stat m left seen) .statGone s (retry m left)
  -- something is at the path, or the call failed otherwise
  | statFound {s m left seen} :
    Local F procs i s (.stat m left seen) .statFound s (.removeCorrupt m left seen)
  | corruptRemoved {s m left seen f} :
    s.file = some f →
    Local F procs i s (.removeCorrupt m left seen) .removed { s with file := none } (retry m left)
  | corruptFailed {s m left seen} :
    Local F procs i s (.removeCorrupt m left seen) .removeFailed s (retry m left)
  | returned {s e} :
    Local F procs i s (.failed e) .returned s .idle
  | renew {s lock} :
    Local F procs i s (.holding lock) .renew s
      (.renewing lock { lock.metadata with createdAt := s.now i })
  | renewed {s lock m} :
    Local F procs i s (.renewing lock m) (.renewed true) (s.write (F.render m))
      (.holding ⟨m, s.nextInode, m⟩)
  -- the directory could not be synced: the file is there, `metadata` is not updated
  | renewUnsynced {s lock m} :
    Local F procs i s (.renewing lock m) (.renewed false) (s.write (F.render m))
      (.holding ⟨lock.metadata, s.nextInode, m⟩)
  | renewFailed {s lock m} :
    Local F procs i s (.renewing lock m) .renewFailed s (.holding lock)
  | released {s lock f} :
    s.file = some f →
    Local F procs i s (.holding lock) .removed { s with file := none } (.dropping lock)
  | releaseFailed {s lock} :
    Local F procs i s (.holding lock) .removeFailed s (.dropping lock)
  | dropped {s lock f} :
    s.file = some f →
    Local F procs i s (.dropping lock) .removed { s with file := none } .idle
  | dropFailed {s lock} :
    Local F procs i s (.dropping lock) .removeFailed s .idle
  -- the guard is dropped without a `release`
  | guardDropped {s lock f} :
    s.file = some f →
    Local F procs i s (.holding lock) .removed { s with file := none } .idle
  | guardDropFailed {s lock} :
    Local F procs i s (.holding lock) .removeFailed s .idle
  | crashed {s p} :
    Local F procs i s p .crashed s .dead

/-- Clocks advance and processes come and go. -/
def WorldStep (s : Fs B) (_ : Unit) (s' : Fs B) : Prop :=
  s'.file = s.file ∧ s'.nextInode = s.nextInode

/-- The processes around one path. -/
abbrev System (B : Type) := Threads (Fs B) Pc

/-- Steps of the processes. -/
abbrev LockStep (F : Format B) (procs : Nat → Process) :
    System B → Threads.Label Event Unit → System B → Prop :=
  Threads.IStep (Local F procs) WorldStep

/-- No process has started and the path is empty or holds some bytes. -/
def System.start (bytes : Option B) (now : Nat → Instant) (signals : Nat → Nat → Bool) : System B :=
  Threads.start ⟨bytes.map fun b => ⟨0, b⟩, 1, now, signals⟩ .idle

/-- The lock that `acquire` has returned to the process and that is not released. -/
def Pc.lock : Pc → Option RunLock
  | .holding lock | .renewing lock _ => some lock
  | _ => none

/-- The file whose metadata the process is about to judge, and the metadata. -/
def Pc.judging : Pc → Option (Nat × LockMetadata)
  | .judge _ _ seen existing => some (seen, existing)
  | _ => none

/-- The file that the process is on the way to remove: one that it found stale or corrupt, or its
own after the release. -/
def Pc.suspects : Pc → Option Nat
  | .removeStale _ _ seen => some seen
  | .stat _ _ seen | .removeCorrupt _ _ seen => seen
  | .dropping lock => some lock.inode
  | _ => none

/-- The metadata that the process is about to write. -/
def Pc.writes : Pc → Option LockMetadata
  | .create m _ | .renewing _ m => some m
  | _ => none

section Moves

variable {F : Format B} {procs : Nat → Process} {i : Nat} {s s' : Fs B} {p p' : Pc} {a : Event}

@[simp] lemma retry_lock (m : LockMetadata) (left : Nat) : (retry m left).lock = none := by
  unfold retry
  split <;> rfl

@[simp] lemma retry_judging (m : LockMetadata) (left : Nat) : (retry m left).judging = none := by
  unfold retry
  split <;> rfl

@[simp] lemma retry_suspects (m : LockMetadata) (left : Nat) : (retry m left).suspects = none := by
  unfold retry
  split <;> rfl

/-- What a step of process `i` can do to the path and to what the process knows of it. -/
inductive Moves (F : Format B) (procs : Nat → Process) (i : Nat) (s : Fs B) (p : Pc) (a : Event)
    (s' : Fs B) (p' : Pc) : Prop where
  | looks :
    s'.file = s.file → s'.nextInode = s.nextInode → p'.lock = p.lock →
    (∀ n m, p'.judging = some (n, m) → ∃ b, s.file = some ⟨n, b⟩ ∧ F.parse b = some m) →
    (∀ n, p'.suspects = some n → p.suspects = some n ∨
      (∃ b, s.file = some ⟨n, b⟩ ∧ (F.parse b = none ∨ maxLockFileBytes < F.size b)) ∨
      ∃ m, p.judging = some (n, m) ∧
        reclaimReason (procs i) (s.now i) (s.signals i) m ≠ none) →
    Moves F procs i s p a s' p'
  | writes (lock : RunLock) :
    s.file = none ∨ p.lock ≠ none → p.writes = some lock.written → lock.inode = s.nextInode →
    (a = .created ∨ ∃ synced, a = .renewed synced) →
    s'.file = some ⟨s.nextInode, F.render lock.written⟩ → s'.nextInode = s.nextInode + 1 →
    p'.lock = some lock → p'.judging = none → p'.suspects = none →
    Moves F procs i s p a s' p'
  | leaves :
    s'.file = s.file ∨ (a = .removed ∧ s'.file = none) → s'.nextInode = s.nextInode →
    p'.lock = none → p'.judging = none →
    (∀ n, p'.suspects = some n → ∃ lock, p.lock = some lock ∧ lock.inode = n) →
    Moves F procs i s p a s' p'

/-- A step that only moves the process on. -/
lemma Moves.still (lock : p'.lock = p.lock) (judging : p'.judging = none)
    (suspects : p'.suspects = none) : Moves F procs i s p a s p' := by
  refine .looks rfl rfl lock ?_ ?_
  · intro n m e
    rw [judging] at e
    cases e
  · intro n e
    rw [suspects] at e
    cases e

/-- A step after which the process has no lock and nothing in view. -/
lemma Moves.gone (file : s'.file = s.file ∨ (a = .removed ∧ s'.file = none))
    (next : s'.nextInode = s.nextInode) (lock : p'.lock = none) (judging : p'.judging = none)
    (suspects : p'.suspects = none) : Moves F procs i s p a s' p' := by
  refine .leaves file next lock judging ?_
  intro n e
  rw [suspects] at e
  cases e

lemma Local.moves (st : Local F procs i s p a s' p') : Moves F procs i s p a s' p' := by
  cases st with
  | acquire => split <;> exact .still rfl rfl rfl
  | existed => split <;> exact .still rfl rfl rfl
  | dirFailed | stamped | alreadyExists | createFailed | sized | sizeFailed | readFailed | held |
    returned | renew | renewFailed => exact .still rfl rfl rfl
  | created empty =>
    exact .writes _ (.inl empty) rfl rfl (.inl rfl) rfl rfl rfl rfl rfl
  | renewed | renewUnsynced =>
    exact .writes _ (.inr (by simp [Pc.lock])) rfl rfl (.inr ⟨_, rfl⟩) rfl rfl rfl rfl rfl
  | @oversized m left f here large =>
    refine .looks rfl rfl rfl (fun n m e => by cases e) fun n e => ?_
    cases e
    exact .inr (.inl ⟨f.bytes, here, .inr large⟩)
  | @corrupt m left f here bad =>
    refine .looks rfl rfl rfl (fun n m e => by cases e) fun n e => ?_
    cases e
    exact .inr (.inl ⟨f.bytes, here, .inl bad⟩)
  | @read m left f existing here good =>
    refine .looks rfl rfl rfl (fun n m e => ?_) fun n e => by cases e
    cases e
    exact ⟨f.bytes, here, good⟩
  | @stale m left seen existing reason stale =>
    refine .looks rfl rfl rfl (fun n m e => by cases e) fun n e => ?_
    cases e
    exact .inr (.inr ⟨existing, rfl, by simp [stale]⟩)
  | statFound => exact .looks rfl rfl rfl (fun n m e => by cases e) fun n e => .inl e
  | staleRemoved | corruptRemoved => exact .gone (.inr ⟨rfl, rfl⟩) rfl (by simp) (by simp) (by simp)
  | staleFailed | corruptFailed | statGone =>
    exact .gone (.inl rfl) rfl (by simp) (by simp) (by simp)
  | forceRemoved | dropped | guardDropped => exact .gone (.inr ⟨rfl, rfl⟩) rfl rfl rfl rfl
  | forceFailed | dropFailed | guardDropFailed | crashed => exact .gone (.inl rfl) rfl rfl rfl rfl
  | @released lock f =>
    refine .leaves (.inr ⟨rfl, rfl⟩) rfl rfl rfl fun n e => ?_
    cases e
    exact ⟨lock, rfl, rfl⟩
  | @releaseFailed lock =>
    refine .leaves (.inl rfl) rfl rfl rfl fun n e => ?_
    cases e
    exact ⟨lock, rfl, rfl⟩

end Moves

end CherryPit.Lock
