import CherryPit.Merger.Commands

/-!
# Routing

What holds whenever the merger is between two commands, for a store whose outcomes are known: every
key is routed to a stream of its own, which exists; what was persisted for a key is in its stream;
the tracker follows; `handle` saw what had been persisted for its key; and the bus was handed what
was persisted, in order. A command that fails changes nothing.

The invariant is `Routed`. Each of the ways in which a command can change the world keeps it
(`Routed.same`, `Routed.saw`, `Routed.wrote`), and so does a command (`Routed.handled`); while the
task is busy, its program is known to end in such a way (`Ok`).
-/

namespace CherryPit.Merger

open Conc

variable {A E Cmd Err : Type}

/-- An index and a tracker that fit a store: every key has a stream of its own, and every sequence
in the tracker is the last one. -/
structure Consistent (store : Store E) (index : String → Option AggregateId)
    (nextSeq : AggregateId → Option NonZeroU64) : Prop where
  nonempty : ∀ {key id}, index key = some id → store.streams id ≠ []
  distinct : ∀ {key key' id}, index key = some id → index key' = some id → key = key'
  tracked : ∀ {id seq}, nextSeq id = some seq →
    ∃ last, (store.streams id).getLast? = some last ∧ last.sequence = seq

/-- What was persisted for a key: before the merger was spawned, and since. -/
def World.persistedFor (w : World A E Cmd) (journal : Journal E) :
    Option String → List (EventEnvelope E)
  | none => []
  | some key => w.history (some key) ++ journal.of (some key)

/-- What holds between two commands, `w0` being the world in which the merger was spawned. -/
structure Routed (agg : Aggregate A E) (arm : Arm A E Cmd Err) (w0 w : World A E Cmd) : Prop extends
    Consistent w.store w.index w.nextSeq where
  kept : ∀ {key id}, w0.index key = some id → w.index key = some id
  fresh : ∀ {key id}, w0.index key = none → w.index key = some id → w0.store.streams id = []
  routed : ∀ {key env}, (some key, env) ∈ w.persisted → w.index key = some env.aggregateId
  apart : ∀ {key env}, (none, env) ∈ w.persisted → w.index key ≠ some env.aggregateId
  written : ∀ {entry}, entry ∈ w.persisted → w.nextSeq entry.2.aggregateId ≠ none
  streams : ∀ id, w.store.streams id =
    w0.store.streams id ++ (w.persisted.map (·.2)).filter (·.aggregateId = id)
  seen : ∀ {cmd state journal}, (cmd, state, journal) ∈ w.seen →
    state = agg.fold (w0.persistedFor journal (arm.persistMode cmd).key)

section Keeps

variable {agg : Aggregate A E} {arm : Arm A E Cmd Err} {w0 w v : World A E Cmd}

/-- The invariant at the start. -/
lemma Consistent.routed {store : Store E} {index nextSeq} (h : Consistent store index nextSeq) :
    Routed agg arm (.opened store index nextSeq) (.opened store index nextSeq) where
  nonempty := h.nonempty
  distinct := h.distinct
  tracked := h.tracked
  kept := fun known => known
  fresh := fun none some => absurd (none.symm.trans some) nofun
  routed := nofun
  apart := nofun
  written := nofun
  streams := fun _ => (List.append_nil _).symm
  seen := nofun

lemma Routed.same (h : Routed agg arm w0 w) (s : Same w v) : Routed agg arm w0 v := by
  obtain ⟨es, ei, en, -, ep, ese, -⟩ := s
  constructor
  case toConsistent =>
    rw [ei, en]
    exact ⟨fun known => es ▸ h.nonempty known, h.distinct, fun seq => es ▸ h.tracked seq⟩
  all_goals simp only [es, ei, en, ep, ese]
  exacts [h.kept, h.fresh, h.routed, h.apart, h.written, h.streams, h.seen]

/-- A stream that has been written to is not empty. -/
lemma Routed.stream_ne_nil (h : Routed agg arm w0 w) {entry} (mem : entry ∈ w.persisted) :
    w.store.streams entry.2.aggregateId ≠ [] := by
  have there : entry.2 ∈ (w.persisted.map (·.2)).filter
      (·.aggregateId = entry.2.aggregateId) := by
    simpa using ⟨entry.1, mem⟩
  rw [h.streams]
  exact List.ne_nil_of_mem (List.mem_append_right _ there)

/-- What is in the stream of a key was persisted for it. -/
lemma Routed.of_key (h : Routed agg arm w0 w) {key id} (known : w.index key = some id) :
    (w.persisted.map (·.2)).filter (·.aggregateId = id) = w.persisted.of (some key) := by
  rw [Journal.of, List.filter_map]
  congr 1
  apply List.filter_congr
  rintro ⟨tag, env⟩ mem
  refine decide_eq_decide.mpr ⟨?_, ?_⟩
  · rintro rfl
    cases tag with
    | none => exact absurd known (h.apart mem)
    | some key' => rw [h.distinct (h.routed mem) known]
  · rintro rfl
    exact Option.some.inj ((h.routed mem).symm.trans known)

/-- What is stored of a key is what was persisted for it. -/
lemma Routed.history (h : Routed agg arm w0 w) (key : String) :
    w.history (some key) = w0.persistedFor w.persisted (some key) := by
  rw [World.persistedFor]
  rcases known : w.index key with _ | id
  · -- nothing was ever persisted
    have none : w0.index key = none := by
      rcases old : w0.index key with _ | id
      · rfl
      · rw [h.kept old] at known
        cases known
    have nothing : w.persisted.of (some key) = [] := by
      rw [Journal.of, List.map_eq_nil_iff, List.filter_eq_nil_iff]
      rintro ⟨tag, env⟩ mem e
      cases of_decide_eq_true e
      rw [h.routed mem] at known
      cases known
    simp only [World.history, Option.bind_some, known, none, nothing, List.append_nil]
  · rw [history_of_index known, h.streams, h.of_key known]
    rcases old : w0.index key with _ | id'
    · rw [h.fresh old known]
      simp only [World.history, Option.bind_some, old]
    · rw [h.kept old] at known
      cases known
      rw [history_of_index old]

/-- A call of `handle`. -/
lemma Routed.saw (h : Routed agg arm w0 w) (cmd : Cmd) :
    Routed agg arm w0 (w.saw agg cmd (arm.persistMode cmd).key) where
  toConsistent := h.toConsistent
  kept := h.kept
  fresh := h.fresh
  routed := h.routed
  apart := h.apart
  written := h.written
  streams := h.streams
  seen := by
    intro cmd' state journal mem
    rcases List.mem_append.mp mem with old | new
    · exact h.seen old
    · cases List.mem_singleton.mp new
      congr 1
      generalize (arm.persistMode cmd).key = key
      cases key with
      | none => rfl
      | some key => exact h.history key

/-- The stream of a write belongs to no key but its own. -/
lemma Routed.owner (h : Routed agg arm w0 w) {mode id key} (t : Target mode w id)
    (known : w.index key = some id) : mode.key = some key := by
  rcases t.cases with ⟨key', hk, known'⟩ | ⟨-, none⟩
  · rw [hk, h.distinct known known']
  · exact absurd none (h.nonempty known)

/-- The envelopes of a write and its entries. -/
lemma mem_entries {journal : Journal E} {key : Option String} {envs : List (EventEnvelope E)}
    {entry} (h : entry ∈ journal ++ envs.map (key, ·)) :
    entry ∈ journal ∨ entry.1 = key ∧ entry.2 ∈ envs := by
  rcases List.mem_append.mp h with old | new
  · exact .inl old
  · obtain ⟨env, mem, rfl⟩ := List.mem_map.mp new
    exact .inr ⟨rfl, mem⟩

namespace Wrote

variable {mode : PersistMode} {id : AggregateId} {envs : List (EventEnvelope E)}

/-- An index entry is that of the write or an old one. -/
lemma index_cases (h : Wrote mode id envs w v) {key id'} (known : v.index key = some id') :
    mode.key = some key ∧ id' = id ∨ mode.key ≠ some key ∧ w.index key = some id' := by
  rw [h.index] at known
  dsimp only at known
  split_ifs at known with e
  · exact .inl ⟨e, (Option.some.inj known).symm⟩
  · exact .inr ⟨e, known⟩

lemma index_self (h : Wrote mode id envs w v) {key} (hk : mode.key = some key) :
    v.index key = some id := by
  rw [h.index]
  exact if_pos hk

/-- Old index entries stay. -/
lemma index_kept (h : Wrote mode id envs w v) {key id'} (known : w.index key = some id') :
    v.index key = some id' := by
  by_cases hk : mode.key = some key
  · rw [h.index_self hk, h.target.eq_of_indexed hk known]
  · rw [h.index]
    exact (if_neg hk).trans known

lemma streams_self (h : Wrote mode id envs w v) :
    v.store.streams id = w.store.streams id ++ envs := by
  rw [h.streams, Function.update_self]

lemma streams_of_ne (h : Wrote mode id envs w v) {id'} (ne : id' ≠ id) :
    v.store.streams id' = w.store.streams id' := by
  rw [h.streams, Function.update_of_ne ne]

/-- The stream ends with what was written, and the tracker says so. -/
lemma last (h : Wrote mode id envs w v) :
    ∃ last, (v.store.streams id).getLast? = some last ∧ v.nextSeq id = some last.sequence := by
  obtain ⟨last, l, e⟩ := h.nextSeq
  refine ⟨last, ?_, by rw [e, Function.update_self]⟩
  rw [h.streams_self, List.getLast?_append, l]
  rfl

lemma nextSeq_of_ne (h : Wrote mode id envs w v) {id'} (ne : id' ≠ id) :
    v.nextSeq id' = w.nextSeq id' := by
  obtain ⟨last, -, e⟩ := h.nextSeq
  rw [e, Function.update_of_ne ne]

/-- The index and the tracker still fit the store. -/
lemma consistent (h : Wrote mode id envs w v) (ok : Routed agg arm w0 w) :
    Consistent v.store v.index v.nextSeq := by
  refine ⟨?_, ?_, ?_⟩
  · intro k id' known
    rcases eq_or_ne id' id with rfl | ne
    · obtain ⟨last, l, -⟩ := h.last
      exact fun e => by rw [e] at l; cases l
    · rcases h.index_cases known with ⟨-, rfl⟩ | ⟨-, old⟩
      · exact absurd rfl ne
      · rw [h.streams_of_ne ne]
        exact ok.nonempty old
  · intro k k' id' known known'
    rcases h.index_cases known with ⟨e, rfl⟩ | ⟨ne, old⟩
    · rcases h.index_cases known' with ⟨e', -⟩ | ⟨ne', old'⟩
      · exact Option.some.inj (e.symm.trans e')
      · exact absurd (ok.owner h.target old') ne'
    · rcases h.index_cases known' with ⟨e', rfl⟩ | ⟨ne', old'⟩
      · exact absurd (ok.owner h.target old) ne
      · exact ok.distinct old old'
  · intro id' seq e
    rcases eq_or_ne id' id with rfl | ne
    · obtain ⟨last, l, e'⟩ := h.last
      exact ⟨last, l, Option.some.inj (e'.symm.trans e)⟩
    · rw [h.streams_of_ne ne]
      exact ok.tracked (h.nextSeq_of_ne ne ▸ e)

end Wrote

lemma Routed.wrote {mode id envs} (ok : Routed agg arm w0 w) (h : Wrote mode id envs w v) :
    Routed agg arm w0 v where
  toConsistent := h.consistent ok
  kept := fun old => h.index_kept (ok.kept old)
  fresh := by
    intro key id' none known
    rcases h.index_cases known with ⟨hk, rfl⟩ | ⟨-, old⟩
    · rcases h.target.cases with ⟨key', hk', old⟩ | ⟨-, unused⟩
      · cases hk'.symm.trans hk
        exact ok.fresh none old
      · rw [ok.streams] at unused
        exact (List.append_eq_nil_iff.mp unused).1
    · exact ok.fresh none old
  routed := by
    intro key env mem
    rw [h.persisted] at mem
    rcases mem_entries mem with old | ⟨hk, new⟩
    · exact h.index_kept (ok.routed old)
    · rw [h.index_self hk.symm, h.owned new]
  apart := by
    intro key env mem known
    rw [h.persisted] at mem
    rcases h.index_cases known with ⟨hk, e⟩ | ⟨-, known⟩
    · rcases mem_entries mem with old | ⟨none, -⟩
      · -- the stream would be that of an earlier write without a key
        rcases h.target.cases with ⟨key', -, known'⟩ | ⟨-, unused⟩
        · exact ok.apart old (known'.trans (congrArg some e.symm))
        · exact ok.stream_ne_nil old (e ▸ unused)
      · cases none.trans hk
    · rcases mem_entries mem with old | ⟨none, new⟩
      · exact ok.apart old known
      · rw [h.owned new] at known
        cases none.trans (ok.owner h.target known)
  written := by
    intro entry mem
    rcases eq_or_ne entry.2.aggregateId id with e | ne
    · obtain ⟨last, -, e'⟩ := h.last
      rw [e, e']
      nofun
    · rw [h.nextSeq_of_ne ne]
      rw [h.persisted] at mem
      rcases mem_entries mem with old | ⟨-, new⟩
      · exact ok.written old
      · exact absurd (h.owned new) ne
  streams := by
    intro id'
    have entries : (envs.map (mode.key, ·)).map (·.2) = envs := by
      rw [List.map_map]
      exact List.map_id envs
    rw [h.persisted, List.map_append, List.filter_append, entries, ← List.append_assoc,
      ← ok.streams]
    rcases eq_or_ne id' id with rfl | ne
    · rw [h.streams_self, List.filter_eq_self.mpr fun env mem => decide_eq_true (h.owned mem)]
    · have none : envs.filter (·.aggregateId = id') = [] := by
        refine List.filter_eq_nil_iff.mpr fun env mem e => ne ?_
        rw [← of_decide_eq_true e, h.owned mem]
      rw [h.streams_of_ne ne, none, List.append_nil]
  seen := by
    intro cmd state journal mem
    rw [h.seen] at mem
    exact ok.seen mem

/-- A command keeps the invariant and hands the bus what it persisted; if it fails, it changes
nothing. -/
lemma Routed.handled {c : Command Cmd} {x : Except Err Unit} (ok : Routed agg arm w0 w)
    (bus : w.bus = w.persisted.map (·.2))
    (h : Handled True agg c.cmd (arm.persistMode c.cmd) w x v) :
    Routed agg arm w0 v ∧ v.bus = v.persisted.map (·.2) ∧
      ∀ e, x = .error e →
        v.store.streams = w.store.streams ∧ v.index = w.index ∧ v.nextSeq = w.nextSeq := by
  obtain ⟨w', saw, h⟩ := h
  have ok' : Routed agg arm w0 w' := by
    rcases saw with rfl | rfl
    · exact ok
    · exact ok.saw c.cmd
  have like : w'.store.streams = w.store.streams ∧ w'.index = w.index ∧ w'.nextSeq = w.nextSeq ∧
      w'.bus = w'.persisted.map (·.2) := by
    rcases saw with rfl | rfl
    · exact ⟨rfl, rfl, rfl, bus⟩
    · exact ⟨rfl, rfl, rfl, bus⟩
  obtain ⟨es, ei, en, eb⟩ := like
  cases x with
  | error e =>
    rcases h with same | ⟨no, -⟩
    · refine ⟨ok'.same same, ?_, fun _ _ => ?_⟩
      · rw [same.bus, same.persisted, eb]
      · exact ⟨same.streams.trans es, same.index.trans ei, same.nextSeq.trans en⟩
    · exact absurd trivial no
  | ok =>
    obtain ⟨envs, u, h, rfl⟩ := h
    refine ⟨?_, ?_, nofun⟩
    · have done : Routed agg arm w0 u := by
        rcases h with ⟨-, same⟩ | ⟨id, wrote⟩
        · exact ok'.same same
        · exact ok'.wrote wrote
      exact ⟨done.toConsistent, done.kept, done.fresh, done.routed, done.apart, done.written,
        done.streams, done.seen⟩
    · show u.bus ++ envs = u.persisted.map (·.2)
      rcases h with ⟨rfl, same⟩ | ⟨id, wrote⟩
      · rw [same.bus, same.persisted, eb, List.append_nil]
      · rw [wrote.bus, wrote.persisted, eb, List.map_append, List.map_map]
        exact congrArg _ (List.map_id envs).symm

end Keeps

/-! ## Runs -/

section Runs

variable {agg : Aggregate A E} {arm : Arm A E Cmd Err} {w0 : World A E Cmd}

/-- The invariant of the system. -/
def Ok (agg : Aggregate A E) (arm : Arm A E Cmd Err) (w0 : World A E Cmd)
    (st : System A E Cmd Err) : Prop :=
  match st.task with
  | .idle => Routed agg arm w0 st.world ∧ st.world.bus = st.world.persisted.map (·.2)
  | .stopped => Routed agg arm w0 st.world ∧ st.world.bus = st.world.persisted.map (·.2)
  | .aborted => True
  | .busy start c p => Routed agg arm w0 start ∧ start.bus = start.persisted.map (·.2) ∧
      Grown (arm.persistMode c.cmd) start st.world ∧
      wp (Performs True arm) (.solo (Grown (arm.persistMode c.cmd) start)) 0 c
        (Handled True agg c.cmd (arm.persistMode c.cmd) start) p st.world

/-- A program that is done is in a world of its postcondition. -/
lemma wp_done {sure : Prop} {I : World A E Cmd → Prop} {Q : Except Err Unit → World A E Cmd → Prop}
    {i c x w} (hw : I w) (h : wp (Performs sure arm) (.solo I) i c Q (.ofExcept x) w) : Q x w := by
  cases x with
  | ok => exact wp_ret h hw
  | error e => exact wp_raise h hw

lemma Ok.step {st l st'} (ok : Ok agg arm w0 st) (h : SystemStep True agg arm st l st') :
    Ok agg arm w0 st' := by
  cases h with
  | send => exact ok
  | take => exact ⟨ok.1, ok.2, grown_of_eq rfl, handleOne_meets _⟩
  | work act =>
    obtain ⟨start, bus, grown, meets⟩ := ok
    exact ⟨start, bus, meets _ rfl grown _ _ act⟩
  | reply =>
    obtain ⟨start, bus, grown, meets⟩ := ok
    obtain ⟨done, bus', -⟩ := start.handled bus (wp_done grown meets)
    exact ⟨done, bus'⟩
  | close => exact ok
  | abort => trivial

/-- The routing invariant, for any commands of any number of handles: between two commands, every
indexed key has a stream of its own, which exists, and which is the one of everything that was ever
persisted for the key; the tracker holds the last sequence of every stream that was written; the
streams have grown by what was persisted; `handle` saw the fold of what had been persisted for the
key; and the bus was handed what was persisted, in order. A command that is about to be answered
with an error has changed neither store nor index nor tracker. -/
theorem routing {store : Store E} {index nextSeq tr} {st : System A E Cmd Err}
    (consistent : Consistent store index nextSeq)
    (run : Run (SystemStep True agg arm) (.spawn (.opened store index nextSeq)) tr st) :
    (st.task.Quiet →
      (∀ key id, st.world.index key = some id → st.world.store.streams id ≠ []) ∧
      (∀ key key' id, st.world.index key = some id → st.world.index key' = some id → key = key') ∧
      (∀ key id, index key = some id → st.world.index key = some id) ∧
      (∀ key env, (some key, env) ∈ st.world.persisted →
        st.world.index key = some env.aggregateId) ∧
      (∀ entry ∈ st.world.persisted, ∃ last,
        (st.world.store.streams entry.2.aggregateId).getLast? = some last ∧
        st.world.nextSeq entry.2.aggregateId = some last.sequence) ∧
      (∀ id, st.world.store.streams id =
        store.streams id ++ (st.world.persisted.map (·.2)).filter (·.aggregateId = id)) ∧
      (∀ cmd state journal, (cmd, state, journal) ∈ st.world.seen →
        state = agg.fold ((World.opened store index nextSeq : World A E Cmd).persistedFor journal
          (arm.persistMode cmd).key)) ∧
      st.world.bus = st.world.persisted.map (·.2)) ∧
    ∀ start c e, st.task = .busy start c (.raise e) →
      st.world.store.streams = start.store.streams ∧ st.world.index = start.index ∧
      st.world.nextSeq = start.nextSeq := by
  have ok : Ok agg arm (.opened store index nextSeq) st :=
    run.invariant (fun ok step => ok.step step) ⟨consistent.routed, rfl⟩
  unfold Ok at ok
  refine ⟨fun quiet => ?_, fun start c e busy => ?_⟩
  · have done : Routed agg arm (.opened store index nextSeq) st.world ∧
        st.world.bus = st.world.persisted.map (·.2) := by
      rcases quiet with e | e <;> rw [e] at ok <;> exact ok
    obtain ⟨h, bus⟩ := done
    refine ⟨fun _ _ => h.nonempty, fun _ _ _ => h.distinct, fun _ _ => h.kept, fun _ _ => h.routed,
      ?_, h.streams, fun _ _ _ => h.seen, bus⟩
    intro entry mem
    obtain ⟨seq, e⟩ := Option.ne_none_iff_exists'.mp (h.written mem)
    obtain ⟨last, l, rfl⟩ := h.tracked e
    exact ⟨last, l, e⟩
  · rw [busy] at ok
    obtain ⟨h, bus, grown, meets⟩ := ok
    exact (h.handled bus (wp_raise meets grown)).2.2 e rfl

end Runs

/-- An aggregate that counts its events. -/
def counter : Aggregate Nat Unit := ⟨0, fun n _ => n + 1⟩

/-- An arm whose commands are the keys they write one event for. -/
def keyed : Arm Nat Unit String Unit where
  persistMode := .createOrAppend
  handle _ _ := .ok [()]
  publishLabel _ := "Counted"
  missingKeyError _ := ()
  fromStore _ := ()

/-- The command of the concrete runs. -/
def count : Command String := ⟨"k", ⟨none, none⟩⟩

/-- Two commands for one key: the second sees the event of the first. -/
theorem routing_twice : ∃ tr st,
    Run (SystemStep True counter keyed)
      (.spawn (.opened .empty (fun _ => none) fun _ => none)) tr st ∧
    st.task = .idle ∧ st.world.seen.map (·.2.1) = [0, 1] ∧
    st.world.bus = st.world.persisted.map (·.2) := by
  have start := run_sends True counter keyed [count, count]
    (.opened .empty (fun _ => none) fun _ => none) (by decide)
  obtain ⟨_, first⟩ := run_command [count] (exec_after True counter keyed count
    (.opened .empty (fun _ => none) fun _ => none))
  obtain ⟨_, second⟩ := run_command [] (exec_after True counter keyed count _)
  have run := start.append (first.append second)
  have empty : Consistent (.empty : Store Unit) (fun _ => none) fun _ => none :=
    ⟨nofun, nofun, nofun⟩
  exact ⟨_, _, run, rfl, by decide, ((routing empty run).1 (.inl rfl)).2.2.2.2.2.2.2⟩

end CherryPit.Merger
