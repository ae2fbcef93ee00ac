import CherryPit.Lock.Acquire
import CherryPit.Conc.Prog

/-!
# Atomic writes

Port of `cherry-pit-storage/src/fs.rs` (`atomic_write_bytes`, `atomic_write_text`,
`fsync_parent_dir`) and of `error.rs` (`PersistenceError`, `RetryClass`).

Rust → Lean: the program performs one operation for each call into the filesystem. `NamedTempFile`
deletes its file when it is dropped, and every `?` after its creation drops it: `withTemp` is a call
that is followed by the drop if it fails. Which calls fail, with what text, how much of a failed
write has reached the file and which name the temporary file gets is up to `Env`. What the
operations do is POSIX: a failed `rename` changes nothing, and the empty path cannot be opened. The
parent of a path without a directory part is the empty path, and `create_dir_all` accepts that one.

The filesystem is what each path shows, so links and other spellings of one path are left out, and
so are the directories themselves.
-/

namespace CherryPit.Storage

open Conc

/-- Errors of the storage layer (Rust `PersistenceError`); a source error is its text. -/
inductive PersistenceError where
  | indeterminate (source : String)
  | lockFailed (reason : String)
  | atomicWriteFailed (reason : String)
  | loadFailed (reason : String)
  | tornWriteRecovery (source : String)
  | fencedConflict (expectedSeq actualSeq : Option Nat) (source : String)
  | backendUnavailable (source : String)
  | invariantViolation (reason : String)
  | poisonedState
  | io (e : String)
  deriving DecidableEq

/-- Retry guidance (Rust `RetryClass`). -/
inductive RetryClass where
  | reconciliationRequired
  | retryable
  | terminal
  deriving DecidableEq

/-- Rust `PersistenceError::retry_class`. -/
def PersistenceError.retryClass : PersistenceError → RetryClass
  | .indeterminate _ => .reconciliationRequired
  | .backendUnavailable _ => .retryable
  | .lockFailed _ | .atomicWriteFailed _ | .loadFailed _ | .tornWriteRecovery _
  | .fencedConflict _ _ _ | .invariantViolation _ | .poisonedState | .io _ => .terminal

lemma PersistenceError.ne_indeterminate {e : PersistenceError} (h : e.retryClass = .terminal)
    (source : String) : e ≠ .indeterminate source := by
  rintro rfl
  cases h

/-- Rust `Path`. -/
structure Path where
  absolute : Bool
  components : List String
  deriving DecidableEq

namespace Path

/-- Rust `Path::new("")`. -/
def empty : Path := ⟨false, []⟩

/-- Rust `Path::join` with a file name. -/
def join (p : Path) (name : String) : Path := ⟨p.absolute, p.components ++ [name]⟩

/-- Rust `Path::parent`. -/
def parent (p : Path) : Option Path :=
  if p.components = [] then none else some ⟨p.absolute, p.components.dropLast⟩

/-- The directory that `atomic_write_bytes` writes to. -/
def dir (p : Path) : Path := p.parent.getD ⟨false, ["."]⟩

end Path

/-- Contents of files. -/
abbrev Bytes := List UInt8

/-- What the paths show. -/
structure Fs where
  files : Path → Option Bytes

/-- The filesystem with another content at one path. -/
def Fs.set (fs : Fs) (path : Path) (content : Option Bytes) : Fs :=
  ⟨Function.update fs.files path content⟩

@[simp] lemma Fs.set_self (fs : Fs) (path : Path) (content : Option Bytes) :
    (fs.set path content).files path = content :=
  Function.update_self ..

@[simp] lemma Fs.set_of_ne (fs : Fs) {path other : Path} (content : Option Bytes)
    (ne : other ≠ path) : (fs.set path content).files other = fs.files other :=
  Function.update_of_ne ne ..

@[simp] lemma Fs.set_set (fs : Fs) (path : Path) (content content' : Option Bytes) :
    (fs.set path content).set path content' = fs.set path content' := by
  simp [Fs.set]

/-- The calls that can fail. -/
inductive Call where
  | createDirAll
  | newIn
  | writeAll
  | flush
  | syncAll
  | persist
  | drop
  | openDir
  | syncDir
  deriving DecidableEq

/-- What the filesystem does in one call of `atomic_write_bytes`: which calls fail and with what
text, how many bytes a failed write leaves, the name of the temporary file. -/
structure Env where
  fault : Call → Option String
  written : Nat
  name : String

/-- Operations on the filesystem. `drop` is the drop of a `NamedTempFile`. -/
inductive FsOp where
  | createDirAll (dir : Path)
  | newIn (dir : Path)
  | writeAll (temp : Path) (data : Bytes)
  | flush (temp : Path)
  | syncAll (temp : Path)
  | persist (temp path : Path)
  | drop (temp : Path)
  | openDir (dir : Path)
  | syncDir (dir : Path)

/-- What the operations answer; the drop of a temporary file ignores its error. -/
abbrev FsOp.Res : FsOp → Type
  | .newIn _ => Except String Path
  | .drop _ => Unit
  | _ => Except String Unit

/-- The operations as a signature. -/
abbrev fsSig : Sig := ⟨FsOp, FsOp.Res⟩

/-- The answer of a call whose only effect is its answer. -/
def Env.check (env : Env) (call : Call) : Except String Unit :=
  match env.fault call with
  | none => .ok ()
  | some e => .error e

/-- The temporary file in a directory. -/
def Env.temp (env : Env) (dir : Path) : Path := dir.join env.name

/-- What an operation does and answers. -/
def answer (env : Env) : (o : FsOp) → Fs → Fs × o.Res
  | .createDirAll dir, fs => (fs, if dir = .empty then .ok () else env.check .createDirAll)
  | .newIn dir, fs =>
    match env.fault .newIn, fs.files (env.temp dir) with
    | some e, _ => (fs, .error e)
    | none, some _ => (fs, .error "too many temporary files exist")
    | none, none => (fs.set (env.temp dir) (some []), .ok (env.temp dir))
  | .writeAll temp data, fs =>
    match env.fault .writeAll with
    | none => (fs.set temp ((fs.files temp).map (· ++ data)), .ok ())
    | some e => (fs.set temp ((fs.files temp).map (· ++ data.take env.written)), .error e)
  | .flush _, fs => (fs, env.check .flush)
  | .syncAll _, fs => (fs, env.check .syncAll)
  | .persist temp path, fs =>
    match env.fault .persist with
    | none => ((fs.set temp none).set path (fs.files temp), .ok ())
    | some e => (fs, .error e)
  | .drop temp, fs =>
    match env.fault .drop with
    | none => (fs.set temp none, ())
    | some _ => (fs, ())
  | .openDir dir, fs =>
    (fs, if dir = .empty then .error "No such file or directory (os error 2)" else
      env.check .openDir)
  | .syncDir _, fs => (fs, env.check .syncDir)

/-- The errors of `atomic_write_bytes` after the directory was made. -/
def failed (what e : String) : PersistenceError := .atomicWriteFailed (what ++ e)

/-- A call while the temporary file is at hand. -/
def withTemp (temp : Path) (o : FsOp) (f : o.Res → Except PersistenceError Unit) :
    Prog fsSig PersistenceError Unit :=
  .op o fun r => match f r with
    | .ok a => .ret a
    | .error e => .op (.drop temp) fun _ => .raise e

/-- Rust `fsync_parent_dir`. -/
def fsyncParentDir (dir : Path) : Prog fsSig PersistenceError Unit := do
  .attempt (.openDir dir) (Except.mapError (failed "failed to open parent dir for fsync: "))
  .attempt (.syncDir dir) (Except.mapError (failed "failed to fsync parent dir: "))

/-- The part of `atomic_write_bytes` after the creation of the temporary file. -/
def replaceBy (temp path : Path) (data : Bytes) : Prog fsSig PersistenceError Unit := do
  withTemp temp (.writeAll temp data) (Except.mapError (failed "failed to write temp file: "))
  withTemp temp (.flush temp) (Except.mapError (failed "failed to flush temp file: "))
  withTemp temp (.syncAll temp) (Except.mapError (failed "failed to fsync temp file: "))
  withTemp temp (.persist temp path) (Except.mapError (failed "failed to persist temp file: "))
  fsyncParentDir path.dir

/-- Rust `atomic_write_bytes`. -/
def atomicWriteBytes (path : Path) (data : Bytes) : Prog fsSig PersistenceError Unit := do
  .attempt (.createDirAll path.dir) (Except.mapError .io)
  let temp ← .attempt (.newIn path.dir) (Except.mapError (failed "failed to create temp file: "))
  replaceBy temp path data

/-- Rust `atomic_write_text`. -/
def atomicWriteText (path : Path) (content : String) : Prog fsSig PersistenceError Unit :=
  atomicWriteBytes path content.toUTF8.toList

section Outcomes

variable {env : Env} {dir temp path : Path} {data : Bytes} {fs : Fs} {call : Call}

/-- The directory is made and the temporary file comes into being. -/
structure Env.Creates (env : Env) (dir : Path) (fs : Fs) : Prop where
  dirMade : dir = .empty ∨ env.fault .createDirAll = none
  tempMade : env.fault .newIn = none
  fresh : fs.files (env.temp dir) = none

/-- Every call from the write to the rename succeeds. -/
structure Env.Replaces (env : Env) : Prop where
  wrote : env.fault .writeAll = none
  flushed : env.fault .flush = none
  synced : env.fault .syncAll = none
  renamed : env.fault .persist = none

/-- The directory can be opened and synced. -/
structure Env.Syncs (env : Env) (dir : Path) : Prop where
  named : dir ≠ .empty
  opened : env.fault .openDir = none
  synced : env.fault .syncDir = none

/-- The filesystem after the drop of a temporary file that holds `content`. -/
def Env.dropped (env : Env) (temp : Path) (content : Bytes) (fs : Fs) : Fs :=
  fs.set temp (if env.fault .drop = none then none else some content)

/-- The filesystem after the rename. -/
def published (temp path : Path) (data : Bytes) (fs : Fs) : Fs :=
  (fs.set temp none).set path (some data)

/-- The call has failed with the temporary file at hand. -/
def Abandoned (env : Env) (temp : Path) (fs : Fs) (r : Fs × Except PersistenceError Unit) : Prop :=
  ∃ e content, e.retryClass = .terminal ∧ r = (env.dropped temp content fs, .error e)

section Calls

variable {o : FsOp} {r : o.Res} {f : o.Res → Except PersistenceError Unit} {fs' : Fs}
  {e : PersistenceError} {content : Bytes} {k : Unit → Prog fsSig PersistenceError Unit}

lemma withTemp_succeeds (ans : answer env o fs = (fs', r)) (ok : f r = .ok ()) :
    (withTemp temp o f >>= k).interp (answer env) fs = (k ()).interp (answer env) fs' := by
  rw [Prog.interp_bind]
  simp only [withTemp, Prog.interp, ans, ok]

lemma withTemp_fails (ans : answer env o fs' = (fs.set temp (some content), r))
    (bad : f r = .error e) (terminal : e.retryClass = .terminal) :
    Abandoned env temp fs ((withTemp temp o f >>= k).interp (answer env) fs') := by
  refine ⟨e, content, terminal, ?_⟩
  rw [Prog.interp_bind]
  simp only [withTemp, Prog.interp, ans, bad]
  cases gone : env.fault .drop <;> simp [answer, Env.dropped, gone]

end Calls

lemma Env.check_ok (h : env.fault call = none) : env.check call = .ok () := by
  simp [Env.check, h]

lemma Env.check_error {e : String} (h : env.fault call = some e) : env.check call = .error e := by
  simp [Env.check, h]

lemma fsyncParentDir_cases (env : Env) (dir : Path) (fs : Fs) :
    (env.Syncs dir ∧ (fsyncParentDir dir).interp (answer env) fs = (fs, .ok ())) ∨
    ¬ env.Syncs dir ∧ ∃ e, e.retryClass = .terminal ∧
      (fsyncParentDir dir).interp (answer env) fs = (fs, .error e) := by
  unfold fsyncParentDir
  simp only [Prog.interp_bind, Prog.interp_attempt, answer]
  by_cases named : dir = .empty
  · refine .inr ⟨fun h => h.named named, ?_⟩
    simp only [named, if_true]
    exact ⟨_, rfl, rfl⟩
  · simp only [named, if_false]
    cases opened : env.fault .openDir with
    | some e =>
      simp only [Env.check_error opened]
      exact .inr ⟨(nomatch opened.symm.trans ·.opened), _, rfl, rfl⟩
    | none =>
      simp only [Env.check_ok opened]
      cases synced : env.fault .syncDir with
      | some e =>
        simp only [Env.check_error synced]
        exact .inr ⟨(nomatch synced.symm.trans ·.synced), _, rfl, rfl⟩
      | none =>
        simp only [Env.check_ok synced]
        exact .inl ⟨⟨named, opened, synced⟩, rfl⟩

/-- The calls from the write to the rename. -/
lemma replaceBy_cases (env : Env) (temp path : Path) (data : Bytes) (fs : Fs) :
    (env.Replaces ∧ (replaceBy temp path data).interp (answer env) (fs.set temp (some [])) =
      (fsyncParentDir path.dir).interp (answer env) (published temp path data fs)) ∨
    ¬ env.Replaces ∧
      Abandoned env temp fs
        ((replaceBy temp path data).interp (answer env) (fs.set temp (some []))) := by
  unfold replaceBy
  cases wrote : env.fault .writeAll with
  | some e =>
    have write : answer env (.writeAll temp data) (fs.set temp (some [])) =
        (fs.set temp (some (data.take env.written)), .error e) := by
      simp [answer, wrote]
    exact .inr ⟨(nomatch wrote.symm.trans ·.wrote), withTemp_fails write rfl rfl⟩
  | none =>
    have write : answer env (.writeAll temp data) (fs.set temp (some [])) =
        (fs.set temp (some data), .ok ()) := by
      simp [answer, wrote]
    rw [withTemp_succeeds write rfl]
    have flush : answer env (.flush temp) (fs.set temp (some data)) =
      (fs.set temp (some data), env.check .flush) := rfl
    cases flushed : env.fault .flush with
    | some e =>
      rw [Env.check_error flushed] at flush
      exact .inr ⟨(nomatch flushed.symm.trans ·.flushed), withTemp_fails flush rfl rfl⟩
    | none =>
      rw [Env.check_ok flushed] at flush
      rw [withTemp_succeeds flush rfl]
      have sync : answer env (.syncAll temp) (fs.set temp (some data)) =
        (fs.set temp (some data), env.check .syncAll) := rfl
      cases synced : env.fault .syncAll with
      | some e =>
        rw [Env.check_error synced] at sync
        exact .inr ⟨(nomatch synced.symm.trans ·.synced), withTemp_fails sync rfl rfl⟩
      | none =>
        rw [Env.check_ok synced] at sync
        rw [withTemp_succeeds sync rfl]
        cases renamed : env.fault .persist with
        | some e =>
          have rename : answer env (.persist temp path) (fs.set temp (some data)) =
              (fs.set temp (some data), .error e) := by
            simp [answer, renamed]
          exact .inr ⟨(nomatch renamed.symm.trans ·.renamed), withTemp_fails rename rfl rfl⟩
        | none =>
          have rename : answer env (.persist temp path) (fs.set temp (some data)) =
              (published temp path data fs, .ok ()) := by
            simp [answer, renamed, published]
          exact .inl ⟨⟨wrote, flushed, synced, renamed⟩, withTemp_succeeds rename rfl⟩

/-- One call of `atomic_write_bytes` with nothing else running. -/
def write (env : Env) (path : Path) (data : Bytes) (fs : Fs) : Fs × Except PersistenceError Unit :=
  (atomicWriteBytes path data).interp (answer env) fs

/-- How a call can end. -/
inductive Outcome (env : Env) (path : Path) (data : Bytes) (fs : Fs) :
    Fs × Except PersistenceError Unit → Prop where
  | unstarted {e} :
    ¬ env.Creates path.dir fs → e.retryClass = .terminal →
    Outcome env path data fs (fs, .error e)
  | abandoned {r} :
    env.Creates path.dir fs → ¬ env.Replaces → Abandoned env (env.temp path.dir) fs r →
    Outcome env path data fs r
  | unsynced {e} :
    env.Creates path.dir fs → env.Replaces → ¬ env.Syncs path.dir → e.retryClass = .terminal →
    Outcome env path data fs (published (env.temp path.dir) path data fs, .error e)
  | done :
    env.Creates path.dir fs → env.Replaces → env.Syncs path.dir →
    Outcome env path data fs (published (env.temp path.dir) path data fs, .ok ())

lemma answer_newIn (tempMade : env.fault .newIn = none) (fresh : fs.files (env.temp dir) = none) :
    answer env (.newIn dir) fs = (fs.set (env.temp dir) (some []), .ok (env.temp dir)) := by
  simp [answer, tempMade, fresh]

lemma answer_newIn_error (h : ¬ (env.fault .newIn = none ∧ fs.files (env.temp dir) = none)) :
    ∃ e, answer env (.newIn dir) fs = (fs, .error e) := by
  cases tempMade : env.fault .newIn with
  | some e => exact ⟨e, by simp [answer, tempMade]⟩
  | none =>
    cases found : fs.files (env.temp dir) with
    | some content => exact ⟨_, by simp [answer, tempMade, found]; rfl⟩
    | none => exact absurd ⟨tempMade, found⟩ h

theorem write_outcome (env : Env) (path : Path) (data : Bytes) (fs : Fs) :
    Outcome env path data fs (write env path data fs) := by
  unfold write atomicWriteBytes
  by_cases dirMade : path.dir = .empty ∨ env.fault .createDirAll = none
  swap
  · obtain ⟨named, e, bad⟩ : path.dir ≠ .empty ∧ ∃ e, env.fault .createDirAll = some e := by
      simpa [Option.ne_none_iff_exists'] using dirMade
    have mkdir : answer env (.createDirAll path.dir) fs = (fs, .error e) := by
      simp [answer, named, Env.check_error bad]
    rw [Prog.interp_attempt_bind (S := fsSig) mkdir]
    exact .unstarted (fun h => dirMade h.dirMade) rfl
  have mkdir : answer env (.createDirAll path.dir) fs = (fs, .ok ()) := by
    rcases dirMade with named | made
    · simp [answer, named]
    · simp [answer, Env.check_ok made]
  rw [Prog.interp_attempt_bind (S := fsSig) mkdir]
  simp only [Except.mapError]
  by_cases tempMade : env.fault .newIn = none ∧ fs.files (env.temp path.dir) = none
  swap
  · obtain ⟨e, bad⟩ := answer_newIn_error tempMade
    rw [Prog.interp_attempt_bind (S := fsSig) bad]
    exact .unstarted (fun h => tempMade ⟨h.tempMade, h.fresh⟩) rfl
  have creates : env.Creates path.dir fs := ⟨dirMade, tempMade.1, tempMade.2⟩
  rw [Prog.interp_attempt_bind (S := fsSig) (answer_newIn tempMade.1 tempMade.2)]
  simp only [Except.mapError]
  obtain ⟨replaces, eq⟩ | ⟨replaces, abandoned⟩ :=
    replaceBy_cases env (env.temp path.dir) path data fs
  · rw [eq]
    obtain ⟨syncs, eq⟩ | ⟨syncs, e, terminal, eq⟩ :=
      fsyncParentDir_cases env path.dir (published (env.temp path.dir) path data fs)
    · rw [eq]
      exact .done creates replaces syncs
    · rw [eq]
      exact .unsynced creates replaces syncs terminal
  · exact .abandoned creates replaces abandoned

/-- On success the path holds the data; after an error that does not say that the outcome is
unknown, it shows what it showed before. -/
def AllOrNothing (path : Path) (data : Bytes) (before : Fs) :
    Fs × Except PersistenceError Unit → Prop
  | (after, .ok _) => after.files path = some data
  | (after, .error e) =>
    (∀ source, e ≠ .indeterminate source) → after.files path = before.files path

lemma published_self (temp path : Path) (data : Bytes) (fs : Fs) :
    (published temp path data fs).files path = some data :=
  Fs.set_self ..

lemma allOrNothing_error {e : PersistenceError} {after before : Fs}
    (terminal : e.retryClass = .terminal) :
    AllOrNothing path data before (after, .error e) ↔ after.files path = before.files path :=
  ⟨fun h => h (e.ne_indeterminate terminal), fun h _ => h⟩

/-- A temporary file that could not be deleted shows only if it has the path's own name. -/
lemma dropped_eq_iff {content : Bytes} (fresh : fs.files temp = none) :
    (env.dropped temp content fs).files path = fs.files path ↔
      (env.fault .drop = none ∨ temp ≠ path) := by
  by_cases same : temp = path
  · subst same
    by_cases gone : env.fault .drop = none <;> simp [Env.dropped, gone, fresh]
  · simp [Env.dropped, same, Ne.symm same]

/-- `AtomicWriteFailed` is also what the caller gets when the new content is in place and the
directory cannot be opened or synced. -/
theorem allOrNothing_iff (env : Env) (path : Path) (data : Bytes) (fs : Fs) :
    AllOrNothing path data fs (write env path data fs) ↔
      (env.Creates path.dir fs → env.Replaces →
        env.Syncs path.dir ∨ fs.files path = some data) ∧
      (env.Creates path.dir fs → ¬ env.Replaces →
        env.fault .drop = none ∨ env.temp path.dir ≠ path) := by
  have outcome := write_outcome env path data fs
  generalize write env path data fs = r at outcome ⊢
  cases outcome with
  | unstarted absent terminal =>
    rw [allOrNothing_error terminal]
    refine iff_of_true rfl ⟨?_, ?_⟩
    · exact fun creates => absurd creates absent
    · exact fun creates => absurd creates absent
  | abandoned creates not abandoned =>
    obtain ⟨e, content, terminal, rfl⟩ := abandoned
    rw [allOrNothing_error terminal, dropped_eq_iff creates.fresh]
    exact ⟨fun h => ⟨fun _ replaces => absurd replaces not, fun _ _ => h⟩, fun h => h.2 creates not⟩
  | unsynced creates replaces not terminal =>
    rw [allOrNothing_error terminal, published_self]
    constructor
    · intro eq
      exact ⟨fun _ _ => .inr eq.symm, fun _ unreplaced => absurd replaces unreplaced⟩
    · intro h
      exact ((h.1 creates replaces).resolve_left not).symm
  | done creates replaces syncs =>
    refine iff_of_true (published_self ..) ⟨fun _ _ => .inl syncs, ?_⟩
    exact fun _ unreplaced => absurd replaces unreplaced

/-- A disk on which only the directory cannot be synced. -/
def unsyncable : Env := ⟨fun call => if call = .syncDir then some "EIO" else none, 0, ".tmp1"⟩

/-- The new content is there, the caller is told that the write has failed: when the directory
cannot be synced, and always for a path without a directory part. -/
theorem failed_write_is_visible :
    (let path : Path := ⟨true, ["data", "state.json"]⟩
     let before : Fs := ⟨fun p => if p = path then some [1] else none⟩
     (write unsyncable path [2] before).2 =
       .error (.atomicWriteFailed "failed to fsync parent dir: EIO") ∧
     (write unsyncable path [2] before).1.files path = some [2] ∧
     ¬ AllOrNothing path [2] before (write unsyncable path [2] before)) ∧
    (let path : Path := ⟨false, ["state.json"]⟩
     let before : Fs := ⟨fun _ => none⟩
     let faultless : Env := ⟨fun _ => none, 0, ".tmp1"⟩
     (write faultless path [2] before).2 = .error (.atomicWriteFailed
       "failed to open parent dir for fsync: No such file or directory (os error 2)") ∧
     (write faultless path [2] before).1.files path = some [2] ∧
     ¬ AllOrNothing path [2] before (write faultless path [2] before)) := by
  refine ⟨⟨rfl, rfl, ?_⟩, rfl, rfl, ?_⟩
  · exact fun h => absurd (h nofun) (by decide)
  · exact fun h => absurd (h nofun) (by decide)

/-- `renew` writes the lock file with one call of `atomic_write_text`. What the call does to the
path is one of the steps of a renewal, and it succeeds if that step does. -/
theorem renew_step {F : Lock.Format Bytes} {procs : Nat → Lock.Process} {i : Nat}
    {s : Lock.Fs Bytes} {lock : Lock.RunLock} {m : Lock.LockMetadata}
    (shown : fs.files path = s.file.map (·.bytes)) (apart : env.temp path.dir ≠ path) :
    ∃ a s' p', Lock.Local F procs i s (.renewing lock m) a s' p' ∧
      (write env path (F.render m) fs).1.files path = s'.file.map (·.bytes) ∧
      ((write env path (F.render m) fs).2 = .ok () ↔ a = .renewed true) := by
  have outcome := write_outcome env path (F.render m) fs
  generalize write env path (F.render m) fs = r at outcome ⊢
  cases outcome with
  | unstarted => exact ⟨_, _, _, .renewFailed, shown, by simp⟩
  | abandoned creates _ abandoned =>
    obtain ⟨e, content, -, rfl⟩ := abandoned
    refine ⟨_, _, _, .renewFailed, ?_, by simp⟩
    exact ((dropped_eq_iff creates.fresh).mpr (.inr apart)).trans shown
  | unsynced => exact ⟨_, _, _, .renewUnsynced, published_self .., by simp⟩
  | done => exact ⟨_, _, _, .renewed, published_self .., by simp⟩

end Outcomes

end CherryPit.Storage
