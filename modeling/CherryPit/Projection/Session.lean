import CherryPit.Conc.Pool
import CherryPit.Core.Error

/-!
# Writer sessions of the projection store

What `pardosa-cherry-pit-projection/src/lib.rs` uses of pardosa, a crate outside this repository: a
session over a file of fiber writes, behind a mutex. A fiber is its last write: appended to, rescued
or detached. The log of a session holds the writes that have landed. A session becomes uncertain
when the landing of a write is undetermined, and it may become so when `sync` fails.

What is assumed of pardosa is in `Performs`: a write that returns an error did not land, a handle is
the state of the fiber when it was obtained, and only the holder of the mutex acts on the session.
Every call may fail. Fibers are named by their keys: `derive_fiber_id` is taken to have no
collisions.

`Write.call`, `World.lastWriter` and `World.notes` are there to speak about runs; nothing reads
them.
-/

namespace CherryPit.Projection

open Conc Function

/-- Rust `u64`. -/
abbrev U64 := Fin (2 ^ 64)

instance U64.neZero : NeZero (2 ^ 64) := Nat.instNeZeroHPow

/-- Rust `NonZeroU64::get`, as a `u64`. -/
def u64 (n : NonZeroU64) : U64 := ⟨n.get, n.lt⟩

/-- Rust `NonZeroU64::new`. -/
def nonZero (n : U64) : Option NonZeroU64 :=
  if h : 0 < n.val then some ⟨n.val, h, n.isLt⟩ else none

@[simp] lemma nonZero_u64 (n : NonZeroU64) : nonZero (u64 n) = some n := by
  simp [nonZero, u64, n.pos]

lemma nonZero_eq_some {n : U64} {m : NonZeroU64} (e : nonZero n = some m) : n = u64 m := by
  unfold nonZero at e
  split at e
  · cases e
    rfl
  · cases e

/-- Rust `SNAPSHOT_BYTES_MAX`. -/
def snapshotBytesMax : Nat := 262144

/-- Rust `SnapshotBytesDto`. -/
abbrev SnapshotBytes := { bytes : List UInt8 // bytes.length ≤ snapshotBytesMax }

/-- Rust `PardosaProjectionRecord`. -/
inductive Record where
  | tombstone (aggregateId : U64) (projectionName : String) (kind : UInt8)
  | snapshot (aggregateId : U64) (projectionName : String) (bytes : SnapshotBytes)
  | checkpoint (aggregateId : U64) (projectionName : String) (lastSequence : U64)

/-- The bytes of a record: what they decode to, or the error of the decoder. -/
abbrev Payload := Except String Record

/-- The calls of a store. -/
inductive Call (P : Type) where
  | persist (id : AggregateId) (projection : P) (lastSequence : NonZeroU64)
  | delete (id : AggregateId)
  | loadSnapshot (id : AggregateId)
  | loadCheckpoint (id : AggregateId)

/-- The calls that write. -/
def Call.writes {P : Type} : Call P → Bool
  | .persist _ _ _ | .delete _ => true
  | .loadSnapshot _ | .loadCheckpoint _ => false

/-- The three writes to a fiber. -/
inductive WriteKind where
  | append
  | rescue
  | detach
  deriving DecidableEq

/-- A write to a fiber and the call that made it. -/
structure Write (P : Type) where
  kind : WriteKind
  key : String
  payload : Payload
  call : Call P

/-- The state of a fiber. -/
inductive FiberState where
  | absent
  | active
  | detached
  deriving DecidableEq

variable {P : Type} {id' id : AggregateId} {J : List (Write P) → Write P → Prop}
  {log : List (Write P)} {key name' name : String} {v : Write P}

/-! ## Fibers -/

/-- The last write to a fiber. -/
def lastWrite (log : List (Write P)) (key : String) : Option (Write P) :=
  (log.filter (·.key = key)).getLast?

@[simp] lemma lastWrite_nil (key : String) : lastWrite ([] : List (Write P)) key = none := rfl

lemma lastWrite_self (log : List (Write P)) (e : v.key = key) :
    lastWrite (log ++ [v]) key = some v := by
  simp [lastWrite, e]

lemma lastWrite_of_ne (log : List (Write P)) (ne : v.key ≠ key) :
    lastWrite (log ++ [v]) key = lastWrite log key := by
  simp [lastWrite, ne]

/-- Rust `FileWriterSession::fiber`. -/
def fiberState (log : List (Write P)) (key : String) : FiberState :=
  match lastWrite log key with
  | none => .absent
  | some v => if v.kind = .detach then .detached else .active

/-- Rust `FileWriterSession::get_latest`. -/
def latest (log : List (Write P)) (key : String) : Option Payload :=
  (lastWrite log key).map (·.payload)

lemma fiberState_active :
    fiberState log key = .active ↔ ∃ v, lastWrite log key = some v ∧ v.kind ≠ .detach := by
  unfold fiberState
  cases lastWrite log key with
  | none => simp
  | some v => by_cases detach : v.kind = .detach <;> simp [detach]

/-- A fiber depends on its last write only. -/
lemma fiberState_congr {log' : List (Write P)} (e : lastWrite log' key = lastWrite log key) :
    fiberState log' key = fiberState log key := by
  unfold fiberState
  rw [e]

/-- The fiber takes a write of this kind. -/
def WriteKind.fits : WriteKind → FiberState → Prop
  | .append, f => f ≠ .detached
  | .rescue, f => f = .detached
  | .detach, f => f = .active

/-- Every write of `log` after `base` meets `J` where it was issued. -/
def Lawful (J : List (Write P) → Write P → Prop) (base log : List (Write P)) : Prop :=
  ∀ l v, base <+: l → l ++ [v] <+: log → J l v

lemma Lawful.refl (base : List (Write P)) : Lawful J base base := by
  intro l v pre ext
  have := pre.length_le
  have := ext.length_le
  simp at this
  omega

lemma Lawful.snoc {base : List (Write P)} (h : Lawful J base log) (hv : J log v) :
    Lawful J base (log ++ [v]) := by
  intro l u pre ext
  obtain same | ext := List.prefix_concat_iff.mp ext
  · obtain ⟨rfl, e⟩ := List.append_inj' same rfl
    cases e
    exact hv
  · exact h l u pre ext

/-! ## Keys -/

/-- Rust `format!("{}:{projection_name}:snapshot", aggregate_id.get())`. -/
def snapshotKey (id : AggregateId) (projectionName : String) : String :=
  id.display ++ ":" ++ projectionName ++ ":snapshot"

/-- Rust `format!("{}:{projection_name}:checkpoint", aggregate_id.get())`. -/
def checkpointKey (id : AggregateId) (projectionName : String) : String :=
  id.display ++ ":" ++ projectionName ++ ":checkpoint"

/-- Where a text without the separator ends is determined. -/
lemma separator_inj {a b c d : List Char} {x : Char} (ha : x ∉ a) (hb : x ∉ b)
    (e : a ++ x :: c = b ++ x :: d) : a = b ∧ c = d := by
  induction a generalizing b with
  | nil =>
    cases b with
    | nil => exact ⟨rfl, (List.cons.inj e).2⟩
    | cons y b => exact absurd (List.mem_cons.mpr (.inl (List.cons.inj e).1)) hb
  | cons y a ih =>
    cases b with
    | nil => exact absurd (List.mem_cons.mpr (.inl (List.cons.inj e).1.symm)) ha
    | cons z b =>
      obtain ⟨rfl, tails⟩ := List.cons.inj e
      obtain ⟨rfl, rest⟩ := ih (fun h => ha (.tail _ h)) (fun h => hb (.tail _ h)) tails
      exact ⟨rfl, rest⟩

lemma display_no_colon (id : AggregateId) : ':' ∉ id.display.toList := by
  intro mem
  have digits : id.display.toList = Nat.toDigits 10 id.get := Nat.toList_repr
  rw [digits] at mem
  have := Nat.isDigit_of_mem_toDigits (by decide) (by decide) mem
  exact absurd this (by decide)

lemma display_inj (e : id.display.toList = id'.display.toList) : id = id' := by
  have digits : Nat.toDigits 10 id.get = Nat.toDigits 10 id'.get := by
    simpa only [AggregateId.display, Nat.toString_eq_repr, Nat.toList_repr] using e
  apply AggregateId.get_inj
  simpa using congrArg (fun digits => Nat.ofDigitChars 10 digits 0) digits

/-- A key determines the aggregate and what follows. -/
lemma key_inj {rest rest' : String} (e : id.display ++ ":" ++ rest = id'.display ++ ":" ++ rest') :
    id = id' ∧ rest = rest' := by
  have e := congrArg String.toList e
  simp only [String.toList_append, List.append_assoc] at e
  obtain ⟨ids, rests⟩ := separator_inj (display_no_colon id) (display_no_colon id') e
  exact ⟨display_inj ids, String.toList_inj.mp rests⟩

lemma snapshotKey_inj (e : snapshotKey id name = snapshotKey id' name') :
    id = id' ∧ name = name' := by
  unfold snapshotKey at e
  rw [String.append_left_inj] at e
  exact key_inj e

lemma checkpointKey_inj (e : checkpointKey id name = checkpointKey id' name') :
    id = id' ∧ name = name' := by
  unfold checkpointKey at e
  rw [String.append_left_inj] at e
  exact key_inj e

lemma snapshotKey_ne (id id' : AggregateId) (name name' : String) :
    snapshotKey id name ≠ checkpointKey id' name' := by
  -- the last two characters differ
  intro e
  have e := congrArg (fun s : String => s.toList.reverse.take 2) e
  simp [snapshotKey, checkpointKey, String.toList_append] at e

/-! ## Sessions -/

/-- What an uncertain session knows: a diagnostic, and the write that may have landed if there is
one. -/
structure Doubt (P : Type) where
  diagnostic : String
  pending : Option (Write P)

/-- A session (Rust `FileWriterSession`). -/
structure Session (P : Type) where
  log : List (Write P)
  uncertain : Option (Doubt P)
  epoch : Nat

namespace Session

variable {s : Session P}

/-- A session over a file with these writes. -/
def opened (log : List (Write P)) (epoch : Nat) : Session P := ⟨log, none, epoch⟩

/-- The writes that were issued, one that may have landed included. -/
def issued (s : Session P) : List (Write P) :=
  s.log ++ (s.uncertain.bind (·.pending)).toList

/-- A write has landed. -/
def land (s : Session P) (v : Write P) : Session P := { s with log := s.log ++ [v] }

/-- A write may have landed. -/
def strand (s : Session P) (v : Write P) (diagnostic : String) : Session P :=
  { s with uncertain := some ⟨diagnostic, some v⟩ }

/-- A `sync` has failed; what it leaves is part of the failure. -/
def unsynced (s : Session P) : Option String → Session P
  | none => s
  | some diagnostic => { s with uncertain := some ⟨diagnostic, none⟩ }

/-- `s` is an earlier state of the session. -/
structure Older (s s' : Session P) : Prop where
  log : s.log <+: s'.log
  certain : s'.uncertain = none → s.uncertain = none

lemma Older.refl (s : Session P) : Older s s := ⟨List.prefix_refl _, id⟩

lemma Older.trans {s' s'' : Session P} (h : Older s s') (h' : Older s' s'') : Older s s'' :=
  ⟨h.log.trans h'.log, h.certain ∘ h'.certain⟩

lemma issued_certain (h : s.uncertain = none) : s.issued = s.log := by
  simp [issued, h]

lemma older_land (s : Session P) (v : Write P) : s.Older (s.land v) :=
  ⟨List.prefix_append _ _, id⟩

lemma issued_land (certain : s.uncertain = none) (v : Write P) :
    (s.land v).issued = s.log ++ [v] := by
  simp [issued, land, certain]

lemma older_strand (s : Session P) (v : Write P) (diagnostic : String) :
    s.Older (s.strand v diagnostic) :=
  ⟨List.prefix_refl _, by rintro ⟨⟩⟩

lemma older_unsynced (s : Session P) (retained : Option String) :
    s.Older (s.unsynced retained) := by
  cases retained with
  | none => exact .refl s
  | some diagnostic => exact ⟨List.prefix_refl _, by rintro ⟨⟩⟩

/-- A failed `sync` of a certain session issues nothing. -/
lemma issued_unsynced (certain : s.uncertain = none) (retained : Option String) :
    (s.unsynced retained).issued = s.issued := by
  cases retained with
  | none => rfl
  | some diagnostic => simp [unsynced, issued, certain]

lemma log_prefix_issued (s : Session P) : s.log <+: s.issued := List.prefix_append _ _

end Session

/-! ## Operations -/

/-- What a write came to (Rust `WriteLandingVerdict`). -/
inductive Verdict where
  | landed
  | undetermined (carriedEpoch : Nat)

/-- What taking the mutex came to; an uncertain session shows its epoch and its diagnostic. -/
inductive LockAnswer where
  | poisoned
  | locked (uncertain : Option (Nat × String))

/-- A failed `sync` and the diagnostic that it leaves, if it does. -/
structure SyncFailure where
  error : String
  retained : Option String

/-- The calls into pardosa and into the mutex. `lock true` takes the session to write to it (Rust
`let mut session`). -/
inductive SessionOp where
  | lock (mutable : Bool)
  | unlock
  | encodePayload (record : Record)
  | fiber (key : String)
  | getLatest (key : String)
  | write (kind : WriteKind) (key : String) (record : Record)
  | sync

/-- What each of them answers. -/
@[reducible] def SessionOp.Res : SessionOp → Type
  | .lock _ => LockAnswer
  | .unlock => Unit
  | .encodePayload _ => Except String Unit
  | .fiber _ => Except String FiberState
  | .getLatest _ => Except String (Option Payload)
  | .write _ _ _ => Except String Verdict
  | .sync => Except SyncFailure Unit

/-- The signature of the calls. -/
@[reducible] def sessionSig : Sig := ⟨SessionOp, SessionOp.Res⟩

/-- What one caller has met: the session as it took it and as it gave it back, whether a call into
pardosa or the mutex failed, and what `sync` answered. -/
structure Notes (P : Type) where
  seen : Bool → Option (Session P)
  left : Bool → Option (Session P)
  failed : Bool
  synced : Option (Except SyncFailure Unit)

namespace Notes

/-- Of a caller that has done nothing. -/
def blank : Notes P := ⟨fun _ => none, fun _ => none, false, none⟩

def take (n : Notes P) (mutable : Bool) (s : Session P) : Notes P :=
  { n with seen := update n.seen mutable (some s) }

def drop (n : Notes P) (mutable : Bool) (s : Session P) : Notes P :=
  { n with left := update n.left mutable (some s) }

def fail (n : Notes P) : Notes P := { n with failed := true }

def sync (n : Notes P) (r : Except SyncFailure Unit) : Notes P := { n with synced := some r }

end Notes

/-- A session behind its mutex. -/
structure World (P : Type) where
  session : Session P
  lock : Option (Nat × Bool)
  lastWriter : Option Nat
  notes : Nat → Notes P

namespace World

/-- A store that nobody has used. -/
def opened (s : Session P) : World P := ⟨s, none, none, fun _ => .blank⟩

/-- Caller `i` notes something. -/
def note (w : World P) (i : Nat) (n : Notes P) : World P :=
  { w with notes := update w.notes i n }

/-- Caller `i` takes the mutex. -/
def take (w : World P) (i : Nat) (mutable : Bool) : World P where
  session := w.session
  lock := some (i, mutable)
  lastWriter := if mutable then some i else w.lastWriter
  notes := update w.notes i ((w.notes i).take mutable w.session)

/-- Caller `i` gives the mutex back. -/
def drop (w : World P) (i : Nat) (mutable : Bool) : World P where
  session := w.session
  lock := none
  lastWriter := w.lastWriter
  notes := update w.notes i ((w.notes i).drop mutable w.session)

lemma note_notes (w : World P) (i : Nat) (n : Notes P) : (w.note i n).notes i = n :=
  update_self ..

lemma take_notes (w : World P) (i : Nat) (m : Bool) :
    (w.take i m).notes i = (w.notes i).take m w.session :=
  update_self ..

lemma drop_notes (w : World P) (i : Nat) (m : Bool) :
    (w.drop i m).notes i = (w.notes i).drop m w.session :=
  update_self ..

/-- Caller `i` has the mutex. -/
def Holds (w : World P) (i : Nat) : Prop := ∃ mutable, w.lock = some (i, mutable)

end World

/-- What an operation of caller `i` in call `c` does. -/
def Performs : Semantics sessionSig (Call P) (World P) := fun i c w o w' =>
  match o with
  | .lock mutable => fun r =>
    (w' = w.note i (w.notes i).fail ∧ r = .poisoned) ∨
    (w.lock = none ∧ w' = w.take i mutable ∧
      r = .locked (w.session.uncertain.map fun doubt => (w.session.epoch, doubt.diagnostic)))
  | .unlock => fun _ => ∃ mutable, w.lock = some (i, mutable) ∧ w' = w.drop i mutable
  | .encodePayload _ => fun r =>
    (w' = w ∧ r = .ok ()) ∨ (w' = w.note i (w.notes i).fail ∧ ∃ e, r = .error e)
  | .fiber key => fun r => w.Holds i ∧
    ((w' = w ∧ r = .ok (fiberState w.session.log key)) ∨
    (w' = w.note i (w.notes i).fail ∧ ∃ e, r = .error e))
  | .getLatest key => fun r => w.Holds i ∧
    ((w' = w ∧ r = .ok (latest w.session.log key)) ∨
    (w' = w.note i (w.notes i).fail ∧ ∃ e, r = .error e))
  | .write kind key record => fun r => w.lock = some (i, true) ∧
    ((kind.fits (fiberState w.session.log key) ∧
      w' = { w with session := w.session.land ⟨kind, key, .ok record, c⟩ } ∧ r = .ok .landed) ∨
    (∃ diagnostic,
      w' = { w with session := w.session.strand ⟨kind, key, .ok record, c⟩ diagnostic } ∧
      r = .ok (.undetermined w.session.epoch)) ∨
    (w' = w.note i (w.notes i).fail ∧ ∃ e, r = .error e))
  | .sync => fun r => w.lock = some (i, true) ∧
    ((w' = w.note i ((w.notes i).sync (.ok ())) ∧ r = .ok ()) ∨
    (∃ failure, w' = { w.note i ((w.notes i).fail.sync (.error failure)) with
        session := w.session.unsynced failure.retained } ∧ r = .error failure))

end CherryPit.Projection
