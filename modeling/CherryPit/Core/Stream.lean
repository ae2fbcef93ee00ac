import CherryPit.Core.Event

/-!
# Validated streams

Port of `EventEnvelope::{new, validate, validate_stream}` in `cherry-pit-core/src/event.rs` and of
`EnvelopeError` in `cherry-pit-core/src/error.rs`. `WellFormed` says what a stream is; a stream of
less than `2^64` envelopes is well formed exactly if `validate_stream` accepts it. `Offends` says
what an envelope is refused for, given those before it; `validate_stream` refuses a stream for the
first envelope that offends (`validateStream_exact`).
-/

namespace CherryPit

/-- Errors of envelope construction and validation (Rust `EnvelopeError`). -/
inductive EnvelopeError where
  | nilEventId
  | aggregateIdMismatch (expected actual : AggregateId)
  | sequenceGap (expectedSequence : Nat) (actualSequence : NonZeroU64)
  | duplicateEventId (eventId : Uuid)
  deriving DecidableEq

/-- Rust `Display for EnvelopeError`. -/
def EnvelopeError.display : EnvelopeError → String
  | .nilEventId => "event_id must not be nil"
  | .aggregateIdMismatch expected actual =>
    "event aggregate_id mismatch: expected " ++ expected.display ++ ", actual " ++ actual.display
  | .sequenceGap expectedSequence actualSequence =>
    "event sequence gap: expected sequence " ++ toString expectedSequence ++ ", actual " ++
      toString actualSequence.get
  | .duplicateEventId eventId => "duplicate event_id in stream: " ++ eventId.display

namespace EventEnvelope

variable {E : Type} {id : AggregateId} {stream stream' : List (EventEnvelope E)}
  {env : EventEnvelope E} {seen : List Uuid} {e : EnvelopeError} {index expected : Nat}

/-- Rust `EventEnvelope::new`. -/
def new (eventId : Uuid) (aggregateId : AggregateId) (sequence : NonZeroU64)
    (timestamp : Timestamp) (correlationId causationId : Option Uuid) (payload : E) :
    Except EnvelopeError (EventEnvelope E) :=
  if eventId = 0 then .error .nilEventId
  else .ok { eventId, aggregateId, sequence, timestamp, correlationId, causationId, payload }

/-- Rust `EventEnvelope::validate`. -/
def validate (env : EventEnvelope E) : Except EnvelopeError Unit :=
  if env.eventId = 0 then .error .nilEventId else .ok ()

/-- The loop of `validate_stream`, which has got to position `index`. -/
def validateFrom (id : AggregateId) (seen : List Uuid) (index : Nat) :
    List (EventEnvelope E) → Except EnvelopeError Unit
  | [] => .ok ()
  | env :: rest =>
    match env.validate with
    | .error e => .error e
    | .ok () =>
      if env.eventId ∈ seen then .error (.duplicateEventId env.eventId)
      else if env.aggregateId ≠ id then .error (.aggregateIdMismatch id env.aggregateId)
      -- the position is counted in 64 bits and sticks at the largest number
      else if env.sequence.get ≠ min (index + 1) (2 ^ 64 - 1) then
        .error (.sequenceGap (min (index + 1) (2 ^ 64 - 1)) env.sequence)
      else validateFrom id (env.eventId :: seen) (index + 1) rest

/-- Rust `EventEnvelope::validate_stream`. -/
def validateStream (id : AggregateId) (stream : List (EventEnvelope E)) :
    Except EnvelopeError Unit :=
  validateFrom id [] 0 stream

/-- The envelopes are those of the aggregate, numbered from 1 on, with identities of their own. -/
structure WellFormed (id : AggregateId) (stream : List (EventEnvelope E)) : Prop where
  named : ∀ env ∈ stream, env.eventId ≠ 0
  distinct : (stream.map (·.eventId)).Nodup
  owned : ∀ env ∈ stream, env.aggregateId = id
  numbered : ∀ n env, stream[n]? = some env → env.sequence.get = n + 1

/-- Rust `EventEnvelope::new` with an id. -/
lemma new_eq_ok {eventId : Uuid} {sequence : NonZeroU64} {timestamp : Timestamp}
    {correlationId causationId : Option Uuid} {payload : E} (named : eventId ≠ 0) :
    new eventId id sequence timestamp correlationId causationId payload =
      .ok ⟨eventId, id, sequence, timestamp, correlationId, causationId, payload⟩ :=
  if_neg named

/-- One round of the loop. -/
lemma validateFrom_cons :
    validateFrom id seen index (env :: stream) = .ok () ↔
      env.eventId ≠ 0 ∧ env.eventId ∉ seen ∧ env.aggregateId = id ∧
        env.sequence.get = min (index + 1) (2 ^ 64 - 1) ∧
        validateFrom id (env.eventId :: seen) (index + 1) stream = .ok () := by
  rw [validateFrom, validate]
  by_cases nil : env.eventId = 0
  · simp only [nil, if_true]
    exact iff_of_false (by rintro ⟨⟩) fun h => h.1 rfl
  simp only [nil, if_false]
  split_ifs with dup other gap
  · exact iff_of_false (by rintro ⟨⟩) fun h => h.2.1 dup
  · exact iff_of_false (by rintro ⟨⟩) fun h => other h.2.2.1
  · exact iff_of_false (by rintro ⟨⟩) fun h => gap h.2.2.2.1
  · rw [not_not] at other gap
    exact ⟨fun h => ⟨nil, dup, other, gap, h⟩, fun h => h.2.2.2.2⟩

/-- When the rest of a stream passes `validate_stream`. -/
lemma validateFrom_eq_ok :
    validateFrom id seen index stream = .ok () ↔
      (∀ env ∈ stream, env.eventId ≠ 0) ∧ (stream.map (·.eventId)).Nodup ∧
        (∀ env ∈ stream, env.eventId ∉ seen) ∧ (∀ env ∈ stream, env.aggregateId = id) ∧
        ∀ n env, stream[n]? = some env →
          env.sequence.get = min (index + n + 1) (2 ^ 64 - 1) := by
  induction stream generalizing seen index with
  | nil => simp [validateFrom]
  | cons env stream ih =>
    have counts : ∀ n, index + 1 + n + 1 = index + (n + 1) + 1 := by omega
    rw [validateFrom_cons, ih, List.map_cons, List.nodup_cons]
    simp only [List.forall_mem_cons, counts]
    constructor
    · rintro ⟨named, new, owned, number, names, nodup, news, owneds, numbers⟩
      refine ⟨⟨named, names⟩, ⟨?_, nodup⟩, ⟨new, ?_⟩, ⟨owned, owneds⟩, ?_⟩
      · intro mem
        obtain ⟨other, mem, e⟩ := List.mem_map.mp mem
        exact news other mem (e ▸ List.mem_cons_self)
      · exact fun other mem old => news other mem (List.mem_cons_of_mem _ old)
      · intro n other at'
        cases n with
        | zero =>
          cases at'
          exact number
        | succ n => exact numbers n other at'
    · rintro ⟨⟨named, names⟩, ⟨only, nodup⟩, ⟨new, news⟩, ⟨owned, owneds⟩, numbers⟩
      refine ⟨named, new, owned, numbers 0 env rfl, names, nodup, ?_, owneds, ?_⟩
      · intro other mem old
        rcases List.mem_cons.mp old with e | old
        · exact only (e ▸ List.mem_map_of_mem mem)
        · exact news other mem old
      · exact fun n other at' => numbers (n + 1) other at'

/-- A well-formed stream is accepted. -/
lemma WellFormed.validateStream (h : WellFormed id stream) : validateStream id stream = .ok () := by
  refine validateFrom_eq_ok.mpr ⟨h.named, h.distinct, by simp, h.owned, ?_⟩
  intro n env at'
  have number := h.numbered n env at'
  have lt := env.sequence.lt
  omega

/-- What is accepted is well formed, unless it is longer than sequences go. -/
lemma wellFormed_of_validateStream (short : stream.length < 2 ^ 64)
    (h : EventEnvelope.validateStream id stream = .ok ()) : WellFormed id stream := by
  obtain ⟨named, distinct, -, owned, numbered⟩ := validateFrom_eq_ok.mp h
  refine ⟨named, distinct, owned, ?_⟩
  intro n env at'
  have number := numbered n env at'
  have lt := (List.getElem?_eq_some_iff.mp at').1
  omega

lemma WellFormed.nil : WellFormed id ([] : List (EventEnvelope E)) :=
  ⟨by simp, by simp, by simp, by simp⟩

/-- The last envelope of a stream carries its length. -/
lemma WellFormed.getLast? {last : EventEnvelope E} (h : WellFormed id stream)
    (at' : stream.getLast? = some last) : last.sequence.get = stream.length := by
  rw [List.getLast?_eq_getElem?] at at'
  have lt := (List.getElem?_eq_some_iff.mp at').1
  rw [h.numbered _ _ at']
  omega

/-- The last sequence of a well-formed stream, zero if it is empty, is its length. -/
lemma WellFormed.lastSequence (h : WellFormed id stream) :
    stream.getLast?.elim 0 (·.sequence.get) = stream.length := by
  cases last : stream.getLast? with
  | none =>
    rw [List.getLast?_eq_none_iff.mp last]
    rfl
  | some env => exact h.getLast? last

lemma WellFormed.sequence_le (h : WellFormed id stream) (mem : env ∈ stream) :
    env.sequence.get ≤ stream.length := by
  obtain ⟨n, lt, rfl⟩ := List.mem_iff_getElem.mp mem
  rw [h.numbered n _ (List.getElem?_eq_getElem lt)]
  omega

/-- A stream goes on with envelopes that go on with the numbers. -/
lemma WellFormed.append (h : WellFormed id stream) (named : ∀ env ∈ stream', env.eventId ≠ 0)
    (distinct : (stream'.map (·.eventId)).Nodup)
    (new : ∀ env ∈ stream', ∀ old ∈ stream, env.eventId ≠ old.eventId)
    (owned : ∀ env ∈ stream', env.aggregateId = id)
    (numbered : ∀ n env, stream'[n]? = some env → env.sequence.get = stream.length + n + 1) :
    WellFormed id (stream ++ stream') := by
  refine ⟨?_, ?_, ?_, ?_⟩
  · intro env mem
    exact (List.mem_append.mp mem).elim (h.named env) (named env)
  · rw [List.map_append, List.nodup_append]
    refine ⟨h.distinct, distinct, ?_⟩
    intro a olds b news
    obtain ⟨old, mem, rfl⟩ := List.mem_map.mp olds
    obtain ⟨env, mem', rfl⟩ := List.mem_map.mp news
    exact (new env mem' old mem).symm
  · intro env mem
    exact (List.mem_append.mp mem).elim (h.owned env) (owned env)
  · intro n env at'
    rw [List.getElem?_append] at at'
    split at at'
    · exact h.numbered n env at'
    · rw [numbered _ _ at']
      omega

/-- What is left of a well-formed stream when its end is cut off. -/
lemma WellFormed.cut (h : WellFormed id stream') (pre : stream <+: stream') :
    WellFormed id stream := by
  obtain ⟨rest, rfl⟩ := pre
  refine ⟨?_, ?_, ?_, ?_⟩
  · exact fun env mem => h.named env (List.mem_append_left rest mem)
  · exact h.distinct.sublist ((List.sublist_append_left stream rest).map _)
  · exact fun env mem => h.owned env (List.mem_append_left rest mem)
  · intro n env at'
    exact h.numbered n env (List.getElem?_append_left
      (List.getElem?_eq_some_iff.mp at').1 ▸ at')

/-! ## What a stream is refused for -/

/-- What an envelope is refused for after envelopes with the identities `seen`, when its sequence
should be `expected`: the first of the four checks that it fails. -/
inductive Offends (id : AggregateId) (seen : List Uuid) (expected : Nat) (env : EventEnvelope E) :
    EnvelopeError → Prop where
  | nilEventId :
    env.eventId = 0 →
    Offends id seen expected env .nilEventId
  | duplicateEventId :
    env.eventId ≠ 0 →
    env.eventId ∈ seen →
    Offends id seen expected env (.duplicateEventId env.eventId)
  | aggregateIdMismatch :
    env.eventId ≠ 0 →
    env.eventId ∉ seen →
    env.aggregateId ≠ id →
    Offends id seen expected env (.aggregateIdMismatch id env.aggregateId)
  | sequenceGap :
    env.eventId ≠ 0 →
    env.eventId ∉ seen →
    env.aggregateId = id →
    env.sequence.get ≠ expected →
    Offends id seen expected env (.sequenceGap expected env.sequence)

/-- An envelope has one first error. -/
lemma Offends.unique {e' : EnvelopeError} (h : Offends id seen expected env e)
    (h' : Offends id seen expected env e') : e = e' := by
  cases h <;> cases h' <;> first | rfl | contradiction

/-- The order of the identities before does not matter. -/
lemma Offends.of_mem_iff {seen' : List Uuid} (same : env.eventId ∈ seen ↔ env.eventId ∈ seen')
    (h : Offends id seen expected env e) : Offends id seen' expected env e := by
  cases h with
  | nilEventId nil => exact .nilEventId nil
  | duplicateEventId named dup => exact .duplicateEventId named (same.mp dup)
  | aggregateIdMismatch named new other =>
    exact .aggregateIdMismatch named (mt same.mpr new) other
  | sequenceGap named new owned gap => exact .sequenceGap named (mt same.mpr new) owned gap

/-- One round of the loop: the envelope is refused for what it offends, or the loop goes on. -/
lemma validateFrom_round (id : AggregateId) (seen : List Uuid) (index : Nat)
    (env : EventEnvelope E) :
    (∃ e, Offends id seen (min (index + 1) (2 ^ 64 - 1)) env e ∧
      ∀ stream, validateFrom id seen index (env :: stream) = .error e) ∨
    ((∀ e, ¬ Offends id seen (min (index + 1) (2 ^ 64 - 1)) env e) ∧
      ∀ stream, validateFrom id seen index (env :: stream) =
        validateFrom id (env.eventId :: seen) (index + 1) stream) := by
  simp only [validateFrom, validate]
  by_cases nil : env.eventId = 0
  · refine .inl ⟨_, .nilEventId nil, ?_⟩
    simp only [nil, if_true, implies_true]
  by_cases dup : env.eventId ∈ seen
  · refine .inl ⟨_, .duplicateEventId nil dup, ?_⟩
    simp only [nil, dup, if_true, if_false, implies_true]
  by_cases owned : env.aggregateId = id
  · by_cases number : env.sequence.get = min (index + 1) (2 ^ 64 - 1)
    · refine .inr ⟨?_, ?_⟩
      · intro e offends
        cases offends <;> contradiction
      · simp only [nil, dup, owned, number, if_false, ne_eq, not_true, implies_true]
    · refine .inl ⟨_, .sequenceGap nil dup owned number, ?_⟩
      simp only [nil, dup, owned, number, if_true, if_false, ne_eq, not_true, not_false_eq_true,
        implies_true]
  · refine .inl ⟨_, .aggregateIdMismatch nil dup owned, ?_⟩
    simp only [nil, dup, owned, if_true, if_false, ne_eq, not_false_eq_true, implies_true]

/-- The loop stops at the first envelope that offends. -/
lemma validateFrom_eq_error :
    validateFrom id seen index stream = .error e ↔
      ∃ before env after, stream = before ++ env :: after ∧
        validateFrom id seen index before = .ok () ∧
        Offends id (before.map (·.eventId) ++ seen) (min (index + before.length + 1) (2 ^ 64 - 1))
          env e := by
  induction stream generalizing seen index with
  | nil =>
    refine iff_of_false (by rintro ⟨⟩) ?_
    rintro ⟨before, env, after, eq, -⟩
    cases before <;> cases eq
  | cons env stream ih =>
    rcases validateFrom_round id seen index env with ⟨e', offends, refused⟩ | ⟨passes, on⟩
    · constructor
      · intro h
        cases (refused stream).symm.trans h
        exact ⟨[], env, stream, rfl, rfl, offends⟩
      · rintro ⟨before, env', after, eq, ok, offends'⟩
        cases before with
        | nil =>
          cases eq
          rw [refused, offends.unique offends']
        | cons first before =>
          cases eq
          cases (refused before).symm.trans ok
    · have member : ∀ (before : List (EventEnvelope E)) (u : Uuid),
          u ∈ before.map (·.eventId) ++ env.eventId :: seen ↔
            u ∈ (env :: before).map (·.eventId) ++ seen := by
        intro before u
        simp only [List.mem_append, List.mem_cons, List.map_cons]
        tauto
      rw [on, ih]
      constructor
      · rintro ⟨before, env', after, rfl, ok, offends⟩
        refine ⟨env :: before, env', after, rfl, (on before).trans ok, ?_⟩
        rw [List.length_cons, ← add_assoc, add_right_comm index]
        exact offends.of_mem_iff (member before _)
      · rintro ⟨before, env', after, eq, ok, offends⟩
        cases before with
        | nil =>
          cases eq
          exact absurd offends (passes e)
        | cons first before =>
          cases eq
          refine ⟨before, env', after, rfl, (on before).symm.trans ok, ?_⟩
          rw [List.length_cons, ← add_assoc, add_right_comm index] at offends
          exact offends.of_mem_iff (member before _).symm

/-- A list that Rust can have as a slice: positions fit in a `usize`. -/
abbrev Slice (α : Type) := { list : List α // list.length < 2 ^ 64 }

/-- What `validate_stream` accepts and what it refuses a stream for. -/
theorem validateStream_exact (id : AggregateId) (stream : Slice (EventEnvelope E)) :
    (EventEnvelope.validateStream id stream.val = .ok () ↔ WellFormed id stream.val) ∧
    (∀ e, EventEnvelope.validateStream id stream.val = .error e ↔
      ∃ before env after, stream.val = before ++ env :: after ∧ WellFormed id before ∧
        Offends id (before.map (·.eventId)) (before.length + 1) env e) ∧
    (EventEnvelope.validateStream id stream.val = .ok () →
      ∀ front, front <+: stream.val → EventEnvelope.validateStream id front = .ok ()) := by
  obtain ⟨stream, short⟩ := stream
  have accepts : ∀ {front}, front <+: stream →
      (EventEnvelope.validateStream id front = .ok () ↔ WellFormed id front) := by
    intro front pre
    have lt : front.length < 2 ^ 64 := pre.length_le.trans_lt short
    exact ⟨wellFormed_of_validateStream lt, WellFormed.validateStream⟩
  refine ⟨accepts (List.prefix_refl stream), ?_, ?_⟩
  · intro e
    rw [EventEnvelope.validateStream, validateFrom_eq_error]
    refine exists_congr fun before => exists_congr fun env => exists_congr fun after => ?_
    refine and_congr_right fun eq => ?_
    have pre : before <+: stream := ⟨env :: after, eq.symm⟩
    have lt : before.length < stream.length := by
      rw [show stream = before ++ env :: after from eq, List.length_append, List.length_cons]
      omega
    have sequence : min (0 + before.length + 1) (2 ^ 64 - 1) = before.length + 1 := by omega
    rw [sequence, List.append_nil]
    exact and_congr_left fun _ => accepts pre
  · intro ok front pre
    exact (accepts pre).mpr (((accepts (List.prefix_refl stream)).mp ok).cut pre)

end EventEnvelope

end CherryPit
