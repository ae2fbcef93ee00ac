import CherryPit.EventStore.PgnoRuns

/-!
# Replay

Port of `ProjectionDriver::replay` in `cherry-pit-projection/src/lib.rs`: the stream of an aggregate
is loaded, validated and folded into a projection. Corruption is found by the store or, if the store
does not look, by the driver. The driver calls what it finds itself corrupt data; of the errors of
the store it keeps only `Indeterminate` and makes an infrastructure error of every other, so that a
terminal error of the store comes out as one to retry (`honest_iff`).

Rust → Lean: a boxed error is its text; the tracing events are left out.
-/

namespace CherryPit.Replay

variable {P E : Type}

/-- Rust `Projection`. -/
structure Projection (P E : Type) where
  default : P
  apply : P → EventEnvelope E → P

/-- What replay uses of an event store, and what the store holds. -/
structure EventStore (E : Type) where
  content : AggregateId → List (EventEnvelope E)
  load : AggregateId → Except StoreError (List (EventEnvelope E))

/-- What becomes of an error of the store. -/
def ofStoreError : StoreError → ProjectionError String
  | .indeterminate e => .indeterminate (StoreError.indeterminate e).display
  | other => .infrastructure other.display

/-- Rust `ProjectionDriver::replay_inner`. -/
def replayInner (projection : Projection P E) (store : EventStore E) (aggregateId : AggregateId) :
    Except (ProjectionError String) (P × Option NonZeroU64) :=
  match store.load aggregateId with
  | .error e => .error (ofStoreError e)
  | .ok stream =>
    match EventEnvelope.validateStream aggregateId stream with
    | .error e => .error (.corruptData e.display)
    | .ok () =>
      .ok (stream.foldl projection.apply projection.default, stream.getLast?.map (·.sequence))

/-- Rust `ProjectionDriver::replay`. -/
def replay (projection : Projection P E) (store : EventStore E) (aggregateId : AggregateId) :
    Except (ProjectionError String) P :=
  (replayInner projection store aggregateId).map Prod.fst

variable {projection : Projection P E} {store : EventStore E} {id : AggregateId} {e : EnvelopeError}

/-- Replay tells how things are: corrupt content is reported as such, whether the store finds it or
not, and an error of the store keeps its category. -/
structure Honest (projection : Projection P E) (store : EventStore E) (id : AggregateId) :
    Prop where
  corrupt : EventEnvelope.validateStream id (store.content id) ≠ .ok () →
    (∃ text, store.load id = .error (.corruptData text)) ∨ store.load id = .ok (store.content id) →
    ∃ text, replay projection store id = .error (.corruptData text)
  category : ∀ e, store.load id = .error e →
    ∃ e', replay projection store id = .error e' ∧ e'.category = e.category

/-- An error of `load` is mapped. -/
lemma replay_of_error {e : StoreError} (failed : store.load id = .error e) :
    replay projection store id = .error (ofStoreError e) := by
  rw [replay, replayInner, failed]
  rfl

/-- What the store does not look at the driver does. -/
lemma replay_of_refused {stream : List (EventEnvelope E)} (loaded : store.load id = .ok stream)
    (refused : EventEnvelope.validateStream id stream = .error e) :
    replay projection store id = .error (.corruptData e.display) := by
  simp only [replay, replayInner, loaded, refused]
  rfl

/-- The terminal errors of the store are those whose category is lost. -/
lemma ofStoreError_category (e : StoreError) :
    (ofStoreError e).category = e.category ↔ e.category ≠ .terminal := by
  cases e <;> simp [ofStoreError, ProjectionError.category, StoreError.category]

/-- What replay makes of corrupt content and of the errors of the store. It is honest exactly if the
store does not fail with a terminal error. Corrupt content that the store returns is always
reported as such, and a terminal error of the store becomes one to retry. -/
theorem honest_iff (projection : Projection P E) (store : EventStore E) (id : AggregateId) :
    (Honest projection store id ↔ ∀ e, store.load id = .error e → e.category ≠ .terminal) ∧
    (∀ e, EventEnvelope.validateStream id (store.content id) = .error e →
      store.load id = .ok (store.content id) →
      replay projection store id = .error (.corruptData e.display)) ∧
    ∀ e, store.load id = .error e → e.category = .terminal →
      replay projection store id = .error (.infrastructure e.display) := by
  refine ⟨⟨?_, fun passing => ⟨?_, ?_⟩⟩, ?_, ?_⟩
  · intro honest e failed
    obtain ⟨e', replayed, same⟩ := honest.category e failed
    cases (replay_of_error failed).symm.trans replayed
    exact (ofStoreError_category e).mp same
  · rintro refused (⟨text, failed⟩ | loaded)
    · exact absurd rfl (passing _ failed)
    · rcases verdict : EventEnvelope.validateStream id (store.content id) with e | ⟨⟩
      · exact ⟨e.display, replay_of_refused loaded verdict⟩
      · exact absurd verdict refused
  · intro e failed
    exact ⟨_, replay_of_error failed, (ofStoreError_category e).mpr (passing e failed)⟩
  · exact fun e refused loaded => replay_of_refused loaded refused
  · intro e failed terminal
    rw [replay_of_error failed]
    cases e <;> first | rfl | cases terminal

/-! ## The durable store -/

section Durable

open Conc Pgno

variable {codec : Codec E} {file : List Entry}

/-- A `PgnoEventStore` over a file, as replay sees it: it holds the records of an aggregate, and
looks at them in the order of their sequences. -/
def ofPgno (codec : Codec E) (file : List Entry) : EventStore E where
  content id := (streamOf codec id file).mergeSort fun a b => a.sequence.get ≤ b.sequence.get
  load id := streamIn codec id file

/-- This is what `load` returns over the file. -/
lemma load_ofPgno {w : World} {u : Uuid} {t : Timestamp} {i : Nat} {c : Store.Call E}
    (certain : w.session.uncertain = none) :
    Exec (Reliably codec (fun log => log) u t) i c w (Pgno.load codec id) w
      (((ofPgno codec w.session.log).load id).mapError .store) := by
  refine .op ⟨⟨.ok w.session.log, ?_, rfl, ?_⟩, rfl⟩ (.ofExcept _)
  · rintro _ ⟨⟩
    exact .refl _
  · rw [Session.readAll, Session.ready, certain]
    rfl

/-- The store reports corrupt content, so it does not come out as such. -/
lemma replay_ofPgno (projection : Projection P E) (legible : Legible codec file)
    (refused : EventEnvelope.validateStream id ((ofPgno codec file).content id) = .error e) :
    (ofPgno codec file).load id = .error (.corruptData e.display) ∧
      replay projection (ofPgno codec file) id =
        .error (.infrastructure (StoreError.corruptData e.display).display) := by
  have failed : (ofPgno codec file).load id = .error (.corruptData e.display) := by
    show streamIn codec id file = _
    rw [streamIn, collect_eq id legible]
    exact congrArg (fun verdict => match verdict with
      | .error e => Except.error (StoreError.corruptData e.display)
      | .ok () => .ok ((ofPgno codec file).content id)) refused
  exact ⟨failed, replay_of_error failed⟩

/-- The number of events. -/
def counter : Projection Nat Unit := ⟨0, fun total _ => total + 1⟩

/-- An aggregate is created, and its record is there twice when the file is opened again. The file
can be opened, `load` says that the stream is corrupt, and the driver says to try again. -/
theorem corrupt_replay_retryable : ∃ w entry found source text,
    Exec (Performs unitCodec) 0 (.create [()] ⟨none, none⟩) World.created
      (program unitCodec (.create [()] ⟨none, none⟩)) w (.ok found) ∧
    w.session.log = [entry] ∧ (∃ maximum, maxId unitCodec [entry, entry] = .ok maximum) ∧
    EventEnvelope.validateStream ⟨.min⟩ ((ofPgno unitCodec [entry, entry]).content ⟨.min⟩) =
      .error (.duplicateEventId 1) ∧
    (ofPgno unitCodec [entry, entry]).load ⟨.min⟩ = .error (.corruptData source) ∧
    replay counter (ofPgno unitCodec [entry, entry]) ⟨.min⟩ = .error (.infrastructure text) ∧
    (StoreError.corruptData source).category = .terminal ∧
    (ProjectionError.infrastructure text : ProjectionError String).category = .retryable := by
  obtain ⟨w, entry, env, ex, eventId, -, sequence, aggregate, carries, session⟩ :=
    create_alone (unitCodec_fits ()) ⟨none, none⟩
  have legible : Legible unitCodec [entry, entry] := by
    intro other mem
    simp only [List.mem_cons, List.not_mem_nil, or_false, or_self] at mem
    exact mem ▸ ⟨env, carries⟩
  have stream : streamOf unitCodec ⟨.min⟩ [entry, entry] = [env, env] := by
    rw [show [entry, entry] = [entry] ++ [entry] from rfl, ← aggregate, carries.streamOf_concat,
      carries.streamOf_singleton, if_pos rfl]
    rfl
  have refused : EventEnvelope.validateStream ⟨.min⟩
      ((ofPgno unitCodec [entry, entry]).content ⟨.min⟩) = .error (.duplicateEventId 1) := by
    have sorted : (ofPgno unitCodec [entry, entry]).content ⟨.min⟩ = [env, env] := by
      simp only [ofPgno, stream]
      exact List.mergeSort_of_pairwise (by simp)
    obtain ⟨_, _, _, _, _, _, _⟩ := env
    cases eventId
    cases sequence
    cases aggregate
    rw [sorted]
    rfl
  obtain ⟨maximum, folds, -⟩ := maxId_eq legible 0
  obtain ⟨failed, replayed⟩ := replay_ofPgno counter legible refused
  exact ⟨w, entry, _, _, _, ex, by rw [session], ⟨maximum, folds⟩, refused, failed, replayed, rfl,
    rfl⟩

end Durable

end CherryPit.Replay
