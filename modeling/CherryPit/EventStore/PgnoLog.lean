import CherryPit.EventStore.Pgno

/-!
# Streams in a log

What `ordered_stream` and `from_session` make of a log whose entries are records of envelopes. In a
`Sound` log the envelopes of each aggregate stand in order and form a well-formed stream
(`streamOf`), and `ordered_stream` finds it whatever the order in which the log is read.
-/

namespace CherryPit.Pgno

open Projection (U64 u64 nonZero nonZero_u64)

variable {E : Type} {codec : Codec E} {id : AggregateId} {env : EventEnvelope E} {entry : Entry}
  {log entries : List Entry} {stream : List (EventEnvelope E)} {log' : List Entry}

lemma u64_inj {a b : NonZeroU64} (e : u64 a = u64 b) : a = b :=
  NonZeroU64.ext (congrArg Fin.val e)

/-- What was encoded decodes to the record that it was made of. -/
lemma decodeRecord_encodeRecord {record : PgnoEnvelope E} {payload : List UInt8}
    (h : encodeRecord codec record = .ok payload) : decodeRecord codec payload = .ok record := by
  unfold encodeRecord at h
  split at h
  · cases h
  rename_i json json_eq
  split at h
  · cases h
  rename_i bytes bytes_eq
  have wire : codec.encodeType bytes = .ok payload := by
    generalize codec.encodeType bytes = wire at h
    cases wire <;> cases h
    rfl
  rw [decodeRecord, codec.decodeType_encodeType wire]
  simp only [ne_eq, not_true_eq_false, if_false]
  rw [codec.newBytes_bytes bytes_eq, codec.fromSlice_toVec json_eq]
  rfl

/-! ## Entries -/

/-- The record of an envelope. -/
def recordOf (env : EventEnvelope E) (nanos : I64) : PgnoEnvelope E :=
  ⟨env.eventId, u64 env.aggregateId.id, u64 env.sequence, nanos, env.correlationId,
    env.causationId, env.payload⟩

/-- An entry is the record of an envelope. -/
structure Carries (codec : Codec E) (entry : Entry) (env : EventEnvelope E) : Prop where
  live : entry.detached = false
  named : env.eventId ≠ 0
  decodes : ∃ nanos : I64, nanos.val = env.timestamp ∧
    decodeRecord codec entry.payload = .ok (recordOf env nanos)

/-- The round of `ordered_stream` for an entry. -/
lemma Carries.envelopeIn (h : Carries codec entry env) (id : AggregateId) :
    envelopeIn codec id entry = .ok (if env.aggregateId = id then some env else none) := by
  obtain ⟨nanos, time, decodes⟩ := h.decodes
  unfold Pgno.envelopeIn
  rw [h.live, decodes]
  simp only [Bool.false_eq_true, if_false, recordOf]
  by_cases same : env.aggregateId = id
  · subst same
    simp only [if_true, nonZero_u64, codec.fromNanosecond_i64, EventEnvelope.new_eq_ok h.named]
    rw [time]
  · have other : u64 env.aggregateId.id ≠ u64 id.id :=
      fun e => same (AggregateId.ext (u64_inj e))
    simp only [same, other, if_false]

lemma Carries.inj {env' : EventEnvelope E} (h : Carries codec entry env)
    (h' : Carries codec entry env') : env = env' := by
  have same := (h.envelopeIn env.aggregateId).symm.trans (h'.envelopeIn env.aggregateId)
  rw [if_pos rfl] at same
  split at same
  · cases same
    rfl
  · cases same

/-- The envelopes of an aggregate, in the order of the log. -/
def streamOf (codec : Codec E) (id : AggregateId) (log : List Entry) : List (EventEnvelope E) :=
  log.filterMap fun entry => (Pgno.envelopeIn codec id entry).toOption.join

@[simp] lemma streamOf_nil : streamOf codec id [] = [] := rfl

lemma streamOf_append (log log' : List Entry) :
    streamOf codec id (log ++ log') = streamOf codec id log ++ streamOf codec id log' :=
  List.filterMap_append

lemma streamOf_mono (pre : log' <+: log) : streamOf codec id log' <+: streamOf codec id log :=
  pre.filterMap _

lemma streamOf_perm (perm : entries.Perm log) :
    (streamOf codec id entries).Perm (streamOf codec id log) :=
  perm.filterMap _

lemma Carries.streamOf_singleton (h : Carries codec entry env) (id : AggregateId) :
    streamOf codec id [entry] = if env.aggregateId = id then [env] else [] := by
  unfold streamOf
  rw [List.filterMap_cons, h.envelopeIn]
  split_ifs <;> rfl

/-- An entry comes after what is there. -/
lemma Carries.streamOf_concat (h : Carries codec entry env) (log : List Entry) :
    streamOf codec env.aggregateId (log ++ [entry]) =
      streamOf codec env.aggregateId log ++ [env] := by
  rw [streamOf_append, h.streamOf_singleton, if_pos rfl]

/-- An entry of another aggregate does not matter. -/
lemma Carries.streamOf_other (h : Carries codec entry env) (log : List Entry)
    (ne : env.aggregateId ≠ id) : streamOf codec id (log ++ [entry]) = streamOf codec id log := by
  rw [streamOf_append, h.streamOf_singleton, if_neg ne, List.append_nil]

/-! ## Logs -/

/-- Every entry is the record of an envelope. -/
def Legible (codec : Codec E) (log : List Entry) : Prop :=
  ∀ entry ∈ log, ∃ env, Carries codec entry env

lemma mem_streamOf (legible : Legible codec log) (mem : env ∈ streamOf codec id log) :
    ∃ entry ∈ log, Carries codec entry env ∧ env.aggregateId = id := by
  obtain ⟨entry, mem, e⟩ := List.mem_filterMap.mp mem
  obtain ⟨env', carries⟩ := legible entry mem
  rw [carries.envelopeIn] at e
  split at e
  · rename_i same
    cases e
    exact ⟨entry, mem, carries, same⟩
  · cases e

lemma collect_eq (id : AggregateId) (legible : Legible codec log) :
    collect codec id log = .ok (streamOf codec id log) := by
  induction log with
  | nil => rfl
  | cons entry log ih =>
    obtain ⟨env, carries⟩ := legible entry List.mem_cons_self
    have rest := ih fun other mem => legible other (List.mem_cons_of_mem _ mem)
    rw [collect, carries.envelopeIn, show entry :: log = [entry] ++ log from rfl, streamOf_append,
      carries.streamOf_singleton]
    split_ifs <;> simp [rest, Except.map]

/-- A log of well-formed streams. -/
structure Sound (codec : Codec E) (log : List Entry) : Prop where
  legible : Legible codec log
  wellFormed : ∀ id, EventEnvelope.WellFormed id (streamOf codec id log)

lemma Sound.nil : Sound codec [] :=
  ⟨fun _ mem => absurd mem List.not_mem_nil, fun _ => .nil⟩

lemma Sound.of_prefix (h : Sound codec log) (pre : log' <+: log) : Sound codec log' :=
  ⟨fun entry mem => h.legible entry (pre.subset mem),
    fun id => (h.wellFormed id).cut (streamOf_mono pre)⟩

/-- A log goes on with the next envelope of a stream. -/
lemma Sound.concat (h : Sound codec log) (carries : Carries codec entry env)
    (next : env.sequence.get = (streamOf codec env.aggregateId log).length + 1)
    (new : ∀ old ∈ streamOf codec env.aggregateId log, env.eventId ≠ old.eventId) :
    Sound codec (log ++ [entry]) := by
  refine ⟨?_, ?_⟩
  · intro other mem
    rcases List.mem_append.mp mem with mem | mem
    · exact h.legible other mem
    · rw [List.mem_singleton.mp mem]
      exact ⟨env, carries⟩
  · intro id
    rcases eq_or_ne env.aggregateId id with rfl | ne
    · rw [carries.streamOf_concat]
      refine (h.wellFormed _).append ?_ (List.nodup_singleton _) ?_ ?_ ?_
      · simpa using carries.named
      · simpa using new
      · simp
      · intro n other at'
        obtain ⟨rfl, rfl⟩ : n = 0 ∧ env = other := by
          cases n with
          | zero => exact ⟨rfl, Option.some.inj at'⟩
          | succ n => cases at'
        exact next
    · rw [carries.streamOf_other log ne]
      exact h.wellFormed id

/-- Sorting by sequence puts a stream that was read in any order back in order. -/
lemma mergeSort_eq {result : List (EventEnvelope E)} (h : EventEnvelope.WellFormed id stream)
    (perm : result.Perm stream) :
    (result.mergeSort fun a b => decide (a.sequence.get ≤ b.sequence.get)) = stream := by
  have sorted : (result.mergeSort fun a b => decide (a.sequence.get ≤ b.sequence.get)).Pairwise
      fun a b => a.sequence.get ≤ b.sequence.get := by
    refine (List.pairwise_mergeSort ?_ ?_ result).imp of_decide_eq_true
    · intro a b c ab bc
      exact decide_eq_true ((of_decide_eq_true ab).trans (of_decide_eq_true bc))
    · intro a b
      simpa using Nat.le_total a.sequence.get b.sequence.get
  have order : stream.Pairwise fun a b => a.sequence.get ≤ b.sequence.get := by
    rw [List.pairwise_iff_getElem]
    intro n m hn hm lt
    rw [h.numbered n _ (List.getElem?_eq_getElem hn), h.numbered m _ (List.getElem?_eq_getElem hm)]
    omega
  have perm' := (List.mergeSort_perm result
    fun a b => decide (a.sequence.get ≤ b.sequence.get)).trans perm
  refine List.Perm.eq_of_pairwise ?_ sorted order perm'
  -- two envelopes of the stream with one sequence stand at one position
  intro a b ha hb ab ba
  obtain ⟨n, hn⟩ := List.mem_iff_getElem?.mp (perm'.subset ha)
  obtain ⟨m, hm⟩ := List.mem_iff_getElem?.mp hb
  have hn' := h.numbered n a hn
  have hm' := h.numbered m b hm
  obtain rfl : n = m := by omega
  exact Option.some.inj (hn.symm.trans hm)

/-- `ordered_stream` finds the stream, in whatever order the log is read. -/
lemma Sound.streamIn (h : Sound codec log) (perm : entries.Perm log) (id : AggregateId) :
    streamIn codec id entries = .ok (streamOf codec id log) := by
  have legible : Legible codec entries := fun entry mem => h.legible entry (perm.subset mem)
  have sorted := mergeSort_eq (h.wellFormed id) (streamOf_perm perm)
  rw [Pgno.streamIn, collect_eq id legible]
  simp only [sorted, (h.wellFormed id).validateStream]

/-- The last envelope is found by its identity. -/
lemma find?_last {env : EventEnvelope E} (h : EventEnvelope.WellFormed id (stream ++ [env])) :
    (stream ++ [env]).find? (·.eventId = env.eventId) = some env := by
  have distinct := h.distinct
  rw [List.map_append, List.nodup_append] at distinct
  have absent : stream.find? (·.eventId = env.eventId) = none := by
    rw [List.find?_eq_none]
    intro old mem same
    exact distinct.2.2 _ (List.mem_map_of_mem mem) _ (List.mem_singleton_self _)
      (of_decide_eq_true same)
  rw [List.find?_append, absent]
  simp

/-- `from_session` finds the largest id of a log. -/
lemma maxId_eq (legible : Legible codec entries) (start : U64) :
    ∃ m, entries.foldlM (fun maximum entry => (decodeRecord codec entry.payload).map
        fun record => max maximum record.aggregateId) start = Except.ok m ∧ start ≤ m ∧
      (∀ entry ∈ entries, ∀ env, Carries codec entry env → env.aggregateId.get ≤ m.val) ∧
      (m = start ∨
        ∃ entry ∈ entries, ∃ env, Carries codec entry env ∧ m.val = env.aggregateId.get) := by
  induction entries generalizing start with
  | nil => exact ⟨start, rfl, le_rfl, fun _ mem => absurd mem List.not_mem_nil, .inl rfl⟩
  | cons entry entries ih =>
    obtain ⟨env, carries⟩ := legible entry List.mem_cons_self
    obtain ⟨nanos, -, decodes⟩ := carries.decodes
    obtain ⟨m, folds, least, all, reached⟩ :=
      ih (fun other mem => legible other (List.mem_cons_of_mem _ mem))
        (max start (u64 env.aggregateId.id))
    refine ⟨m, ?_, (le_max_left _ _).trans least, ?_, ?_⟩
    · rw [List.foldlM_cons, decodes]
      exact folds
    · intro other mem env' carries'
      rcases List.mem_cons.mp mem with rfl | mem
      · rw [← carries.inj carries']
        exact (le_max_right start (u64 env.aggregateId.id)).trans least
      · exact all other mem env' carries'
    · rcases reached with rfl | ⟨other, mem, env', carries', e⟩
      · rcases max_cases start (u64 env.aggregateId.id) with ⟨e, -⟩ | ⟨e, -⟩
        · exact .inl e
        · exact .inr ⟨entry, List.mem_cons_self, env, carries, congrArg Fin.val e⟩
      · exact .inr ⟨other, List.mem_cons_of_mem _ mem, env', carries', e⟩

end CherryPit.Pgno
