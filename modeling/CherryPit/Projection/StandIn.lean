import CherryPit.Data.HighWater
import CherryPit.Projection.Isolation

/-!
# The in-memory projection store

Port of `InMemoryProjectionStore` (`cherry-pit-core/src/testing.rs`), and a comparison with the
pardosa store: one sequence of calls is made to both, the pardosa store over a substrate that does
not fail. The in-memory store keeps what was persisted last. The pardosa store refuses a lower
sequence than the one it has, and keeps what has the highest since the last delete
(`Keeping.call`). The two return the same at every load only if no load comes while the last persist
is behind (`loads_agree_iff`).

Rust → Lean: a hash map is a function.
-/

namespace CherryPit.Projection

open Conc Function

variable {P : Type} {lastSequence : NonZeroU64} {projection : P}

/-- Rust `InMemoryProjectionStore`, with its `ProjectionState`. -/
structure InMemoryProjectionStore (P : Type) where
  projectionName : String
  snapshots : AggregateId → Option P
  checkpoints : AggregateId → Option NonZeroU64

namespace InMemoryProjectionStore

/-- Rust `InMemoryProjectionStore::new`. -/
def new (projectionName : String) : InMemoryProjectionStore P :=
  ⟨projectionName, fun _ => none, fun _ => none⟩

/-- Rust `InMemoryProjectionStore::load_snapshot`. -/
def loadSnapshot (s : InMemoryProjectionStore P) (aggregateId : AggregateId) : Option P :=
  s.snapshots aggregateId

/-- Rust `InMemoryProjectionStore::load_checkpoint`. -/
def loadCheckpoint (s : InMemoryProjectionStore P) (aggregateId : AggregateId) :
    Option NonZeroU64 :=
  s.checkpoints aggregateId

/-- Rust `InMemoryProjectionStore::persist`. -/
def persist (s : InMemoryProjectionStore P) (aggregateId : AggregateId) (projection : P)
    (lastSequence : NonZeroU64) : InMemoryProjectionStore P :=
  { s with
    snapshots := update s.snapshots aggregateId (some projection)
    checkpoints := update s.checkpoints aggregateId (some lastSequence) }

/-- Rust `InMemoryProjectionStore::delete`. -/
def delete (s : InMemoryProjectionStore P) (aggregateId : AggregateId) :
    InMemoryProjectionStore P :=
  { s with
    snapshots := update s.snapshots aggregateId none
    checkpoints := update s.checkpoints aggregateId none }

/-- A call, with its reply in the form of the pardosa store's. -/
def perform (s : InMemoryProjectionStore P) : Call P → InMemoryProjectionStore P × Reply P
  | .persist id projection lastSequence => (s.persist id projection lastSequence, .done)
  | .delete id => (s.delete id, .done)
  | .loadSnapshot id => (s, .snapshot (s.loadSnapshot id))
  | .loadCheckpoint id =>
    (s, .checkpoint ((s.loadCheckpoint id).map fun sequence => ⟨id, s.projectionName, sequence⟩))

end InMemoryProjectionStore

/-! ## What was persisted -/

/-- A projection and its sequence. -/
abbrev Persisted (P : Type) := P × NonZeroU64

/-- What a call adds to what was persisted of an aggregate. -/
def persistedBy (id : AggregateId) (persisted : List (Persisted P)) : Call P → List (Persisted P)
  | .persist id' projection lastSequence =>
    if id' = id then persisted ++ [(projection, lastSequence)] else persisted
  | .delete id' => if id' = id then [] else persisted
  | .loadSnapshot _ | .loadCheckpoint _ => persisted

/-- What was persisted of an aggregate since it was last deleted. -/
def since (id : AggregateId) (calls : List (Call P)) : List (Persisted P) :=
  calls.foldl (persistedBy id) []

/-- The sequence of what was persisted. -/
def rank (persisted : Persisted P) : Nat := persisted.2.get

/-- What a store returns that has this of an aggregate. -/
def replyOf (name : String) (kept : AggregateId → Option (Persisted P)) : Call P → Reply P
  | .loadSnapshot id => .snapshot ((kept id).map Prod.fst)
  | .loadCheckpoint id => .checkpoint ((kept id).map fun persisted => ⟨id, name, persisted.2⟩)
  | .persist _ _ _ | .delete _ => .done

lemma since_concat {id : AggregateId} {calls : List (Call P)} {c : Call P} :
    since id (calls ++ [c]) = persistedBy id (since id calls) c := by
  rw [since, List.foldl_append]
  rfl

/-! ## The in-memory store -/

/-- The in-memory store has what was persisted last. -/
structure Remembers (name : String) (calls : List (Call P)) (s : InMemoryProjectionStore P) :
    Prop where
  name : s.projectionName = name
  snapshots : ∀ id, s.snapshots id = (since id calls).getLast?.map Prod.fst
  checkpoints : ∀ id, s.checkpoints id = (since id calls).getLast?.map Prod.snd

section Memory

variable {name : String} {calls : List (Call P)} {s : InMemoryProjectionStore P} {c : Call P}
  {persisted : List (Persisted P)}

lemma remembers_new : Remembers name ([] : List (Call P)) (.new name) :=
  ⟨rfl, fun _ => rfl, fun _ => rfl⟩

lemma getLast?_persistedBy_persist {id id' : AggregateId} :
    (persistedBy id persisted (.persist id' projection lastSequence)).getLast? =
      if id' = id then some (projection, lastSequence) else persisted.getLast? := by
  rw [persistedBy]
  split
  · exact List.getLast?_concat
  · rfl

lemma getLast?_persistedBy_delete {id id' : AggregateId} :
    (persistedBy id persisted (.delete id')).getLast? =
      if id' = id then none else persisted.getLast? := by
  rw [persistedBy]
  split <;> rfl

/-- Both maps of the store are updated as what was persisted last. -/
lemma update_eq {α : Type} {f : Persisted P → α} {id id' : AggregateId}
    {map : AggregateId → Option α} {last : AggregateId → Option (Persisted P)}
    (now : Option (Persisted P)) (old : ∀ id, map id = (last id).map f) :
    update map id' (now.map f) id = (if id' = id then now else last id).map f := by
  rcases eq_or_ne id' id with rfl | ne
  · rw [update_self, if_pos rfl]
  · rw [update_of_ne ne.symm, if_neg ne, old]

/-- A call that changes nothing. -/
lemma Remembers.unmoved (h : Remembers name calls s)
    (same : ∀ id, since id (calls ++ [c]) = since id calls) : Remembers name (calls ++ [c]) s := by
  refine ⟨h.name, fun id => ?_, fun id => ?_⟩
  · rw [same, h.snapshots]
  · rw [same, h.checkpoints]

lemma Remembers.perform (h : Remembers name calls s) :
    Remembers name (calls ++ [c]) (s.perform c).1 ∧
      (s.perform c).2 = replyOf name (fun id => (since id calls).getLast?) c := by
  cases c with
  | persist id projection lastSequence =>
    refine ⟨⟨h.name, fun id' => ?_, fun id' => ?_⟩, rfl⟩
    · rw [since_concat, getLast?_persistedBy_persist]
      exact update_eq (some (projection, lastSequence)) h.snapshots
    · rw [since_concat, getLast?_persistedBy_persist]
      exact update_eq (some (projection, lastSequence)) h.checkpoints
  | delete id =>
    refine ⟨⟨h.name, fun id' => ?_, fun id' => ?_⟩, rfl⟩
    · rw [since_concat, getLast?_persistedBy_delete]
      exact update_eq none h.snapshots
    · rw [since_concat, getLast?_persistedBy_delete]
      exact update_eq none h.checkpoints
  | loadSnapshot id =>
    exact ⟨h.unmoved fun _ => since_concat, congrArg Reply.snapshot (h.snapshots id)⟩
  | loadCheckpoint id =>
    refine ⟨h.unmoved fun _ => since_concat, ?_⟩
    show Reply.checkpoint ((s.checkpoints id).map _) = _
    rw [h.checkpoints, h.name, Option.map_map]
    rfl

end Memory

/-! ## The pardosa store -/

/-- The two fibers of an aggregate hold this. -/
inductive Keeps (codec : Codec P) (name : String) (id : AggregateId) (log : List (Write P)) :
    Option (Persisted P) → Prop where
  | nothing :
    fiberState log (snapshotKey id name) ≠ .active →
    fiberState log (checkpointKey id name) ≠ .active →
    Keeps codec name id log none
  | record {projection sequence v u} :
    Snapshotted codec name id projection sequence log v →
    codec.restored projection = projection →
    lastWrite log (checkpointKey id name) = some u →
    u.kind ≠ .detach →
    u.payload = .ok (checkpointRecord name id sequence) →
    Keeps codec name id log (some (projection, sequence))

section Durable

variable {codec : Codec P} {name : String} {id id' : AggregateId} {log log' : List (Write P)}
  {kept : Option (Persisted P)} {s : Session P} {w : World P} {calls : List (Call P)}
  {more : List (Write P)} {bytes : SnapshotBytes} {key : String} {kind : UInt8} {w' : World P}

lemma Keeps.snapshotIn (h : Keeps codec name id log kept) :
    snapshotIn codec name id log = .ok (kept.map Prod.fst) := by
  cases h with
  | nothing inactive => rw [Projection.snapshotIn, fiberIn, if_neg inactive]; rfl
  | record snapshotted restored => rw [snapshotted.snapshotIn, restored]; rfl

lemma Keeps.checkpointIn (h : Keeps codec name id log kept) :
    checkpointIn name id log = .ok (kept.map fun persisted => ⟨id, name, persisted.2⟩) := by
  cases h with
  | nothing _ inactive => rw [Projection.checkpointIn, fiberIn, if_neg inactive]; rfl
  | record _ _ last live payload =>
    exact checkpointIn_record (fiberState_active.mpr ⟨_, last, live⟩) last payload

/-- What is kept depends on the last writes to the two fibers. -/
lemma Keeps.congr (h : Keeps codec name id log kept)
    (same : ∀ key, OwnKey id name key → lastWrite log' key = lastWrite log key) :
    Keeps codec name id log' kept := by
  cases h with
  | nothing snapshot checkpoint =>
    refine .nothing ?_ ?_
    · rwa [fiberState_congr (same _ (.inl rfl))]
    · rwa [fiberState_congr (same _ (.inr rfl))]
  | record snapshotted restored last live payload =>
    refine .record ⟨?_, snapshotted.live, snapshotted.call, snapshotted.record⟩ restored ?_ live
      payload
    · rw [same _ (.inl rfl), snapshotted.last]
    · rw [same _ (.inr rfl), last]

/-- Writes for another aggregate do not matter. -/
lemma Keeps.append (h : Keeps codec name id log kept) (other : id' ≠ id)
    (own : ∀ v ∈ more, OwnKey id' name v.key) : Keeps codec name id (log ++ more) kept := by
  refine h.congr fun key theirs => lastWrite_append ?_
  rintro v mem rfl
  exact other ((own v mem).inj theirs).1

lemma keeps_persisted {sequence : NonZeroU64}
    (encoded : encodeSnapshot codec projection = .ok bytes)
    (restored : codec.restored projection = projection) :
    Keeps codec name id (s.persisted name id projection sequence bytes).log
      (some (projection, sequence)) := by
  have snapshotted : Snapshotted codec name id projection sequence
      (s.land (snapshotWrite name id projection sequence bytes s.log)).log
      (snapshotWrite name id projection sequence bytes s.log) :=
    ⟨lastWrite_self _ rfl, writeKind_ne_detach _, rfl, bytes, encoded, rfl⟩
  exact .record (snapshotted.land (snapshotKey_ne id id name name).symm) restored
    (lastWrite_self _ rfl) (writeKind_ne_detach _) rfl

lemma persisted_log (projection : P) (sequence : NonZeroU64) (bytes : SnapshotBytes) :
    ∃ more, (s.persisted name id projection sequence bytes).log = s.log ++ more ∧
      ∀ v ∈ more, OwnKey id name v.key := by
  refine ⟨_, List.append_assoc _ _ _, ?_⟩
  simp only [List.forall_mem_append, List.forall_mem_singleton]
  exact ⟨.inl rfl, .inr rfl⟩

lemma not_active_detached : fiberState (s.detached name id key kind).log key ≠ .active := by
  unfold Session.detached
  split
  next => exact not_active_of_detach (u := removal id name key kind) rfl
  next inactive => exact inactive

lemma detached_log (own : OwnKey id name key) :
    ∃ more, (s.detached name id key kind).log = s.log ++ more ∧
      ∀ v ∈ more, v.key = key ∧ OwnKey id name v.key := by
  unfold Session.detached
  split
  · exact ⟨[removal id name key kind], rfl, List.forall_mem_singleton.mpr ⟨rfl, own⟩⟩
  · exact ⟨[], (List.append_nil _).symm, fun _ mem => absurd mem List.not_mem_nil⟩

lemma keeps_deleted : Keeps codec name id (s.deleted name id).log none := by
  refine .nothing not_active_detached ?_
  obtain ⟨more, log, own⟩ : ∃ more, (s.deleted name id).log = _ ++ more ∧ _ :=
    detached_log (.inl rfl)
  rw [log, fiberState_congr (lastWrite_append ?_)]
  · exact not_active_detached
  · intro v mem
    rw [(own v mem).1]
    exact snapshotKey_ne id id name name

lemma deleted_log : ∃ more, (s.deleted name id).log = s.log ++ more ∧
    ∀ v ∈ more, OwnKey id name v.key := by
  obtain ⟨first, log, own⟩ : ∃ first, (s.detached name id (checkpointKey id name)
    kindCheckpoint).log = s.log ++ first ∧ _ := detached_log (.inr rfl)
  obtain ⟨second, log', own'⟩ : ∃ second, (s.deleted name id).log = _ ++ second ∧ _ :=
    detached_log (.inl rfl)
  refine ⟨first ++ second, ?_, ?_⟩
  · rw [log', log, List.append_assoc]
  · exact List.forall_mem_append.mpr ⟨fun v mem => (own v mem).2, fun v mem => (own' v mem).2⟩

/-- The pardosa store has what stands of what was persisted. -/
structure Keeping (codec : Codec P) (name : String) (calls : List (Call P)) (w : World P) :
    Prop where
  unlocked : w.lock = none
  certain : w.session.uncertain = none
  keeps : ∀ id, Keeps codec name id w.session.log (standing rank (since id calls))

/-- The projection of a persist comes back as it was, and it is not too large. -/
def RoundTrips (codec : Codec P) : Call P → Prop
  | .persist _ projection _ => codec.restored projection = projection ∧
      ∃ bytes, encodeSnapshot codec projection = .ok bytes
  | _ => True

/-- What the pardosa store answers: a persist is checked against what stands. -/
def answerOf (name : String) (kept : AggregateId → Option (Persisted P)) (c : Call P) :
    ProjectionResult (Reply P) :=
  match c with
  | .persist id _ lastSequence =>
    (checkRegression lastSequence ((kept id).map fun persisted => ⟨id, name, persisted.2⟩)).map
      fun _ => .done
  | c => .ok (replyOf name kept c)

lemma keeping_opened (epoch : Nat) :
    Keeping codec name [] (World.opened (Session.opened [] epoch) : World P) := by
  refine ⟨rfl, rfl, fun id => .nothing ?_ ?_⟩
  · rintro ⟨⟩
  · rintro ⟨⟩

lemma since_of_ne {c : Call P} (other : c.aggregate ≠ id) :
    since id (calls ++ [c]) = since id calls := by
  rw [since_concat]
  cases c with
  | persist id' | delete id' => exact if_neg other
  | loadSnapshot | loadCheckpoint => rfl

/-- A call that writes nothing and after which the same stands. -/
lemma Keeping.unmoved {c : Call P} (h : Keeping codec name calls w) (unlocked : w'.lock = none)
    (session : w'.session = w.session)
    (same : standing rank (since c.aggregate (calls ++ [c])) =
      standing rank (since c.aggregate calls)) :
    Keeping codec name (calls ++ [c]) w' := by
  refine ⟨unlocked, session ▸ h.certain, fun id => ?_⟩
  rw [session]
  rcases eq_or_ne c.aggregate id with rfl | other
  · rw [same]
    exact h.keeps _
  · rw [since_of_ne other]
    exact h.keeps id

/-- A call that writes for its aggregate. -/
lemma Keeping.moved {c : Call P} (h : Keeping codec name calls w) (unlocked : w'.lock = none)
    (certain : w'.session.uncertain = none) (log : w'.session.log = w.session.log ++ more)
    (own : ∀ v ∈ more, OwnKey c.aggregate name v.key)
    (keeps : Keeps codec name c.aggregate w'.session.log
      (standing rank (since c.aggregate (calls ++ [c])))) :
    Keeping codec name (calls ++ [c]) w' := by
  refine ⟨unlocked, certain, fun id => ?_⟩
  rcases eq_or_ne c.aggregate id with rfl | other
  · exact keeps
  · rw [since_of_ne other, log]
    exact (h.keeps id).append other own

/-- The check of `persist` tells whether the new entry stands. -/
lemma raise_of_refused {e : ProjectionError WriteDiagnostic}
    (refused : checkRegression lastSequence (kept.map fun persisted => ⟨id, name, persisted.2⟩) =
      .error e) :
    raise rank kept (projection, lastSequence) = kept := by
  rcases kept with _ | top
  · cases refused
  · rw [Option.map_some, checkRegression] at refused
    split at refused
    next lower => exact if_pos lower
    next => cases refused

lemma raise_of_passed
    (passed : checkRegression lastSequence (kept.map fun persisted => ⟨id, name, persisted.2⟩) =
      .ok ()) :
    raise rank kept (projection, lastSequence) = some (projection, lastSequence) := by
  rcases kept with _ | top
  · rfl
  · rw [Option.map_some, checkRegression] at passed
    split at passed
    next => cases passed
    next reached => exact if_neg reached

lemma Keeping.persist (h : Keeping codec name calls w)
    (encoded : encodeSnapshot codec projection = .ok bytes)
    (restored : codec.restored projection = projection) (i : Nat) :
    ∃ w' x, Exec Reliably i (.persist id projection lastSequence) w
        (program codec name (.persist id projection lastSequence)) w' x ∧
      Keeping codec name (calls ++ [.persist id projection lastSequence]) w' ∧
      x = answerOf name (fun id => standing rank (since id calls))
        (.persist id projection lastSequence) := by
  have stands : standing rank (since id (calls ++ [.persist id projection lastSequence])) =
      raise rank (standing rank (since id calls)) (projection, lastSequence) := by
    rw [since_concat, persistedBy, if_pos rfl, standing_concat]
  have shown := (h.keeps id).checkpointIn
  rw [answerOf]
  generalize checked : checkRegression lastSequence _ = result
  rcases result with e | ⟨⟨⟩⟩
  · obtain ⟨w', ex, session, unlocked⟩ :=
      persist_refused_exec (i := i) h.unlocked h.certain encoded shown checked
    refine ⟨w', _, ex, h.unmoved unlocked session ?_, rfl⟩
    exact stands.trans (raise_of_refused checked)
  · obtain ⟨w', ex, session, unlocked, -⟩ :=
      persist_exec (i := i) h.unlocked h.certain encoded ⟨_, shown, checked⟩
    obtain ⟨more, log, own⟩ : ∃ more, (w.session.persisted name id projection lastSequence
      bytes).log = w.session.log ++ more ∧ _ := persisted_log projection lastSequence bytes
    refine ⟨w', _, ex, h.moved unlocked ?_ ?_ own ?_, rfl⟩
    · rw [session]
      exact h.certain
    · rw [session, log]
    · show Keeps codec name id _ (standing rank (since id _))
      rw [stands, raise_of_passed checked, session]
      exact keeps_persisted encoded restored

/-- What a call of the pardosa store answers and leaves. -/
lemma Keeping.call (h : Keeping codec name calls w) {c : Call P} (roundTrips : RoundTrips codec c)
    (i : Nat) :
    ∃ w' x, Exec Reliably i c w (program codec name c) w' x ∧
      Keeping codec name (calls ++ [c]) w' ∧
      x = answerOf name (fun id => standing rank (since id calls)) c := by
  cases c with
  | loadSnapshot id =>
    refine ⟨_, _, loadSnapshot_exec h.unlocked h.certain id, h.unmoved rfl rfl ?_, ?_⟩
    · rw [since_concat]
      rfl
    · rw [(h.keeps id).snapshotIn]
      rfl
  | loadCheckpoint id =>
    refine ⟨_, _, loadCheckpoint_exec h.unlocked h.certain id, h.unmoved rfl rfl ?_, ?_⟩
    · rw [since_concat]
      rfl
    · rw [(h.keeps id).checkpointIn]
      rfl
  | delete id =>
    obtain ⟨w', ex, session, unlocked⟩ : ∃ w', Exec Reliably i (.delete id) w
        (program codec name (.delete id)) w' (.ok .done) ∧
        w'.session = w.session.deleted name id ∧ w'.lock = none :=
      delete_exec h.unlocked h.certain
    obtain ⟨more, log, own⟩ : ∃ more, (w.session.deleted name id).log = w.session.log ++ more ∧ _ :=
      deleted_log
    refine ⟨w', _, ex, h.moved unlocked ?_ ?_ own ?_, rfl⟩
    · rw [session, Session.deleted, Session.detached_uncertain, Session.detached_uncertain]
      exact h.certain
    · rw [session, log]
    · show Keeps codec name id _ (standing rank (since id _))
      rw [since_concat, persistedBy, if_pos rfl, session]
      exact keeps_deleted
  | persist id projection lastSequence =>
    obtain ⟨restored, bytes, encoded⟩ := roundTrips
    exact h.persist encoded restored i

end Durable

/-! ## Side by side -/

/-- A call made to both stores, with what they returned. -/
structure Both (P : Type) where
  call : Call P
  memory : Reply P
  durable : ProjectionResult (Reply P)

/-- One call after another, of the pardosa store over a substrate that does not fail. -/
inductive BothStep (codec : Codec P) (name : String) :
    InMemoryProjectionStore P × World P → Both P → InMemoryProjectionStore P × World P → Prop where
  | call {s w c i w' x} :
    Exec Reliably i c w (program codec name c) w' x →
    BothStep codec name (s, w) ⟨c, (s.perform c).2, x⟩ ((s.perform c).1, w')

/-- Runs of two new stores. -/
abbrev BothRun (codec : Codec P) (name : String) (epoch : Nat) :=
  Run (BothStep codec name) (.new name, World.opened (Session.opened [] epoch))

/-- What was persisted last and what stands give the same at a load. -/
def InStep (calls : List (Call P)) : Call P → Prop
  | .loadSnapshot id => (standing rank (since id calls)).map Prod.fst =
      (since id calls).getLast?.map Prod.fst
  | .loadCheckpoint id => ¬ Behind rank (since id calls)
  | .persist _ _ _ | .delete _ => True

section Both

variable {codec : Codec P} {name : String} {epoch : Nat} {calls : List (Call P)}
  {tr : List (Both P)} {p : InMemoryProjectionStore P × World P}

/-- Every sequence of calls returns. -/
lemma exists_run (roundTrip : ∀ c ∈ calls, RoundTrips codec c) :
    ∃ tr p, BothRun codec name epoch tr p ∧ tr.map (·.call) = calls ∧
      Keeping codec name calls p.2 := by
  induction calls using List.reverseRecOn with
  | nil => exact ⟨[], _, .nil, rfl, keeping_opened epoch⟩
  | append_singleton calls c ih =>
    obtain ⟨before, last⟩ := List.forall_mem_append.mp roundTrip
    obtain ⟨tr, ⟨s, w⟩, run, made, keeping⟩ := ih before
    obtain ⟨w', x, ex, keeping', -⟩ := keeping.call (List.forall_mem_singleton.mp last) 0
    refine ⟨_, _, run.snoc (.call ex), ?_, keeping'⟩
    rw [List.map_append, made]
    rfl

/-- What the two stores have returned in the course of a run. -/
structure Answered (name : String) (before : List (Both P)) (d : Both P) : Prop where
  memory : d.memory = replyOf name (fun id => (since id (before.map (·.call))).getLast?) d.call
  durable : d.durable =
    answerOf name (fun id => standing rank (since id (before.map (·.call)))) d.call

lemma both_run (run : BothRun codec name epoch tr p)
    (roundTrip : ∀ d ∈ tr, RoundTrips codec d.call) :
    Keeping codec name (tr.map (·.call)) p.2 ∧ Remembers name (tr.map (·.call)) p.1 ∧
      ∀ before d after, tr = before ++ d :: after → Answered name before d := by
  revert roundTrip
  refine run.snocInduction (motive := fun tr p => (∀ d ∈ tr, RoundTrips codec d.call) →
    Keeping codec name (tr.map (·.call)) p.2 ∧ Remembers name (tr.map (·.call)) p.1 ∧
      ∀ before d after, tr = before ++ d :: after → Answered name before d) ?_ ?_
  · intro _
    refine ⟨keeping_opened epoch, remembers_new, ?_⟩
    intro before d after split
    cases List.append_ne_nil_of_right_ne_nil before (List.cons_ne_nil d after) split.symm
  · intro tr p l p' _ st ih roundTrip
    obtain ⟨earlier, last⟩ := List.forall_mem_append.mp roundTrip
    obtain ⟨keeping, remembers, answered⟩ := ih earlier
    cases st with
    | @call s w c i w' x ex =>
      obtain ⟨w1, x1, ex1, keeping', result⟩ := keeping.call (last _ (List.mem_singleton_self _)) i
      obtain ⟨rfl, rfl⟩ := Exec.unique Reliably.unique ex ex1
      obtain ⟨remembers', reply⟩ := remembers.perform (c := c)
      rw [List.map_append]
      refine ⟨keeping', remembers', ?_⟩
      intro before d after split
      rcases after.eq_nil_or_concat with rfl | ⟨after, d', rfl⟩
      · obtain ⟨rfl, same⟩ := List.append_inj' split rfl
        cases same
        exact ⟨reply, result⟩
      · rw [List.concat_eq_append, ← List.cons_append, ← List.append_assoc] at split
        exact answered before d after (List.append_inj' split rfl).1

/-- Checkpoints are compared by their sequences. -/
lemma checkpoint_eq_iff {id : AggregateId} {kept kept' : Option (Persisted P)} :
    (kept.map fun persisted => (⟨id, name, persisted.2⟩ : ProjectionCheckpoint)) =
        kept'.map (fun persisted => ⟨id, name, persisted.2⟩) ↔
      kept.map rank = kept'.map rank := by
  rcases kept with _ | ⟨projection, sequence⟩ <;> rcases kept' with _ | ⟨projection', sequence'⟩
  · simp
  · simp
  · simp
  · simp [rank, NonZeroU64.ext_iff]

/-- The stores agree at a load if what was persisted last and what stands give the same. -/
lemma Answered.agrees_iff {before : List (Both P)} {d : Both P} (h : Answered name before d)
    (loads : d.call.writes = false) :
    d.durable = .ok d.memory ↔ InStep (before.map (·.call)) d.call := by
  rw [h.memory, h.durable]
  cases call : d.call with
  | persist | delete =>
    rw [call] at loads
    cases loads
  | loadSnapshot id => simp only [answerOf, replyOf, InStep, Except.ok.injEq, Reply.snapshot.injEq]
  | loadCheckpoint id =>
    simp only [answerOf, replyOf, InStep, Except.ok.injEq, Reply.checkpoint.injEq]
    rw [checkpoint_eq_iff, rank_standing_iff]

lemma inStep_of_writes {c : Call P} (writes : c.writes = true) : InStep calls c := by
  cases c with
  | persist | delete => trivial
  | loadSnapshot | loadCheckpoint => cases writes

/-- When the in-memory store stands in for the pardosa store: every sequence of calls returns
from both, with the same result of every load exactly if each load finds what was persisted last
standing. -/
theorem loads_agree_iff (codec : Codec P) (name : String) (epoch : Nat) (calls : List (Call P))
    (roundTrip : ∀ c ∈ calls, RoundTrips codec c) :
    (∃ tr p, BothRun codec name epoch tr p ∧ tr.map (·.call) = calls) ∧
    ∀ tr p, BothRun codec name epoch tr p → tr.map (·.call) = calls →
      ((∀ d ∈ tr, d.call.writes = false → d.durable = .ok d.memory) ↔
        ∀ before c after, calls = before ++ c :: after → InStep before c) := by
  constructor
  · obtain ⟨tr, p, run, made, -⟩ : ∃ tr p, BothRun codec name epoch tr p ∧ _ :=
      exists_run roundTrip
    exact ⟨tr, p, run, made⟩
  · rintro tr p run rfl
    obtain ⟨-, -, answered⟩ := both_run run fun d mem => roundTrip _ (List.mem_map_of_mem mem)
    constructor
    · intro agree before c after split
      obtain ⟨before, rest, rfl, rfl, tail⟩ := List.map_eq_append_iff.mp split
      obtain ⟨d, after, rfl, rfl, -⟩ := List.map_eq_cons_iff.mp tail
      cases loads : d.call.writes with
      | false =>
        have mem : d ∈ before ++ d :: after := List.mem_append_right _ List.mem_cons_self
        exact ((answered before d after rfl).agrees_iff loads).mp (agree d mem loads)
      | true => exact inStep_of_writes loads
    · intro inStep d mem loads
      obtain ⟨before, after, rfl⟩ := List.append_of_mem mem
      refine ((answered before d after rfl).agrees_iff loads).mpr ?_
      exact inStep (before.map (·.call)) d.call (after.map (·.call)) (by simp)

lemma roundTrips_totals (c : Call UInt8) : RoundTrips totals c := by
  cases c with
  | persist id total => exact ⟨rfl, _, encodeSnapshot_totals total⟩
  | delete | loadSnapshot | loadCheckpoint => trivial

/-- A persist and a load. -/
theorem loads_agree_persisted :
    ∃ tr p, BothRun totals "view" 1 tr p ∧
      tr.map (·.call) = [.persist one 7 .min, .loadCheckpoint one] ∧
      ∀ d ∈ tr, d.call.writes = false → d.durable = .ok d.memory := by
  obtain ⟨⟨tr, p, run, made⟩, agree⟩ := loads_agree_iff totals "view" 1
    [.persist one 7 .min, .loadCheckpoint one] fun c _ => roundTrips_totals c
  refine ⟨tr, p, run, made, (agree tr p run made).mpr ?_⟩
  intro before c after split
  match before with
  | [] =>
    cases split
    trivial
  | [_] =>
    cases split
    show ¬ Behind rank _
    decide
  | _ :: _ :: rest =>
    have length := congrArg List.length split
    simp only [List.length_append, List.length_cons, List.length_nil] at length
    omega

/-- A persist with a lower sequence is refused by the pardosa store and kept by the in-memory
store. -/
theorem loads_differ :
    ∃ tr p, BothRun totals "view" 1 tr p ∧
      tr.map (·.call) = [.persist one 7 second.id, .persist one 9 .min, .loadSnapshot one,
        .loadCheckpoint one] ∧
      tr.map (·.memory) = [.done, .done, .snapshot (some 9),
        .checkpoint (some ⟨one, "view", .min⟩)] ∧
      tr.map (·.durable) = [.ok .done, .error (.checkpointRegression second.id .min),
        .ok (.snapshot (some 7)), .ok (.checkpoint (some ⟨one, "view", second.id⟩))] := by
  obtain ⟨tr, p, run, made, -⟩ : ∃ tr p, BothRun totals "view" 1 tr p ∧
      tr.map (·.call) = [.persist one 7 second.id, .persist one 9 .min, .loadSnapshot one,
        .loadCheckpoint one] ∧ _ := exists_run fun c _ => roundTrips_totals c
  refine ⟨tr, p, run, made, ?_⟩
  obtain ⟨-, -, answered⟩ := both_run run fun d _ => roundTrips_totals d.call
  obtain ⟨d1, tr, rfl, call1, made⟩ := List.map_eq_cons_iff.mp made
  obtain ⟨d2, tr, rfl, call2, made⟩ := List.map_eq_cons_iff.mp made
  obtain ⟨d3, tr, rfl, call3, made⟩ := List.map_eq_cons_iff.mp made
  obtain ⟨d4, tr, rfl, call4, made⟩ := List.map_eq_cons_iff.mp made
  obtain rfl := List.map_eq_nil_iff.mp made
  have first := answered [] d1 [d2, d3, d4] rfl
  have second := answered [d1] d2 [d3, d4] rfl
  have third := answered [d1, d2] d3 [d4] rfl
  have fourth := answered [d1, d2, d3] d4 [] rfl
  constructor
  · simp only [List.map_cons, List.map_nil, first.memory, second.memory, third.memory,
      fourth.memory, call1, call2, call3, call4]
    rfl
  · simp only [List.map_cons, List.map_nil, first.durable, second.durable, third.durable,
      fourth.durable, call1, call2, call3, call4]
    rfl

end Both

end CherryPit.Projection
