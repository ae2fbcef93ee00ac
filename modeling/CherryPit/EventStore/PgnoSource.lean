import CherryPit.Conc.Watch
import CherryPit.EventStore.PgnoRuns

/-!
# Where the entries of the durable event store come from

Every call of the durable store writes at most once, and what it writes is what it asks for
(`program_writesOnce`). This is a property of the programs and of nothing else, so it holds of every
run, of calls that have not returned as well, and whether or not the counter of ids wraps around:
every entry was written for a call that was made and asked for it, and no call has two entries
(`entries_asked_once`).
-/

namespace CherryPit.Pgno

open Conc Store Function
open Projection (U64 u64)

variable {E α : Type} {codec : Codec E} {i : Nat} {c : Call E} {w w' : World}
  {sl : Slot sig (Call E) Failure (Reply E)} {tr : List (Label E)} {P : Calls E} {o : Op}
  {l : Label E}

/-! ## Calls write at most once -/

/-- The envelope is correlated as the context says. -/
def Correlated (ctx : CorrelationContext) (env : EventEnvelope E) : Prop :=
  env.correlationId = ctx.correlationId ∧ env.causationId = ctx.causationId

/-- The call asks for this envelope. -/
def Wants : Call E → EventEnvelope E → Prop
  | .load _, _ => False
  | .create events ctx, env =>
    events = [env.payload] ∧ env.sequence.get = 1 ∧ Correlated ctx env
  | .append id expected events ctx, env =>
    env.aggregateId = id ∧ events = [env.payload] ∧ env.sequence.get = expected.get + 1 ∧
      Correlated ctx env

/-- Every operation but a write. -/
def Op.Reads : Op → Prop
  | .record _ _ _ => False
  | _ => True

/-- A write of the record of an envelope that the call asks for. -/
def Op.WritesFor (codec : Codec E) (c : Call E) : Op → Prop
  | .record key eventId payload =>
    ∃ env, (∀ i, Carries codec ⟨key, eventId, payload, false, i⟩ env) ∧ Wants c env
  | _ => False

/-- A UUID that is drawn is not nil. -/
def Op.Answers : (o : Op) → o.Res → Prop
  | .uuid, r => r ≠ 0
  | _, _ => True

/-- What is known of answers holds of them. -/
lemma Performs.answers {r : o.Res} (ex : Performs codec i c w o w' r) : o.Answers r := by
  cases o with
  | uuid => exact ex.1
  | _ => trivial

/-- A program that writes at most once, and what the call asks for. -/
abbrev WritesOnce (codec : Codec E) (c : Call E) (p : Prog sig Failure α) : Prop :=
  p.Single Op.Reads (Op.WritesFor codec c) Op.Answers

/-- Rust `ordered_stream` writes nothing. -/
lemma orderedStream_reads (id : AggregateId) : (orderedStream codec id).Uses Op.Reads :=
  .attempt trivial

/-- Rust `record_single` writes one entry for its envelope. -/
lemma recordSingle_writesOnce (env : EventEnvelope E) (named : env.eventId ≠ 0)
    (wants : ∀ timestamp, Wants c { env with timestamp }) :
    WritesOnce codec c (recordSingle codec (u64 env.aggregateId.id) env.eventId (u64 env.sequence)
      env.correlationId env.causationId env.payload) := by
  refine .inr ⟨trivial, fun now _ => ?_⟩
  dsimp only
  split
  · trivial
  · rename_i bytes encoded
    refine .inl ⟨⟨_, fun _ => ?_, wants (i64OrMax now).val⟩, fun _ => .ofExcept _⟩
    exact ⟨rfl, named, _, rfl, decodeRecord_encodeRecord encoded⟩

/-- Rust `with_aggregate` writes what its body does. -/
lemma withAggregate_writesOnce {id : AggregateId} {body : Prog sig Failure α}
    (h : WritesOnce codec c body) : WritesOnce codec c (withAggregate id body) := by
  refine .inr ⟨trivial, fun poisoned _ => ?_⟩
  cases poisoned with
  | true => trivial
  | false => exact h.result.before fun x => ⟨trivial, fun _ => .ofExcept x⟩

lemma addOne_eq_ok {n : NonZeroU64} {m : U64} (e : addOne (u64 n) = .ok m) :
    ∃ next : NonZeroU64, m = u64 next ∧ next.get = n.get + 1 := by
  unfold addOne at e
  split at e
  · rename_i lt
    cases e
    exact ⟨⟨n.get + 1, n.get.succ_pos, lt⟩, rfl, rfl⟩
  · cases e

/-- Rust `create` writes at most one entry. -/
lemma create_writesOnce (events : List E) (ctx : CorrelationContext) :
    WritesOnce codec (.create events ctx) (create codec events ctx) := by
  refine .after (.attempt trivial) fun _ => ?_
  match events with
  | _ :: _ :: _ => trivial
  | [] => trivial
  | [payload] =>
    refine .inr ⟨trivial, fun old _ => .after (.ofExcept _) fun rawId => ?_⟩
    split
    · trivial
    · rename_i raw _
      refine withAggregate_writesOnce (.inr ⟨trivial, fun u named => .before ?_ fun _ => ?_⟩)
      · exact recordSingle_writesOnce
          ⟨u, ⟨raw⟩, .min, 0, ctx.correlationId, ctx.causationId, payload⟩ named
          fun _ => ⟨rfl, rfl, rfl, rfl⟩
      · exact (orderedStream_reads _).mapError.bind fun _ => trivial

/-- Rust `append` writes at most one entry. -/
lemma append_writesOnce (id : AggregateId) (expected : NonZeroU64) (events : List E)
    (ctx : CorrelationContext) :
    WritesOnce codec (.append id expected events ctx) (append codec id expected events ctx) := by
  refine .after (.attempt trivial) fun _ => ?_
  match events with
  | _ :: _ :: _ => trivial
  | [] => trivial
  | [payload] =>
    refine withAggregate_writesOnce (.after (orderedStream_reads id) fun existing => ?_)
    split
    · trivial
    dsimp only
    split
    · trivial
    refine .inr ⟨trivial, fun u named => .ofExcept fun sequence added => ?_⟩
    obtain ⟨next, rfl, get⟩ := addOne_eq_ok added
    refine .before (recordSingle_writesOnce
      ⟨u, id, next, 0, ctx.correlationId, ctx.causationId, payload⟩ named
      fun _ => ⟨rfl, rfl, get, rfl, rfl⟩) fun _ =>
        (orderedStream_reads id).mapError.bind fun full => ?_
    split <;> trivial

/-- Every call writes at most once, and what it asks for. -/
lemma program_writesOnce (c : Call E) : WritesOnce codec c (program codec c) := by
  cases c with
  | load id =>
    refine .after (orderedStream_reads id) fun _ => ?_
    trivial
  | create events ctx =>
    refine .before (create_writesOnce events ctx) fun _ => ?_
    trivial
  | append id expected events ctx =>
    refine .before (append_writesOnce id expected events ctx) fun _ => ?_
    trivial

lemma Performs.session {r : o.Res} (reads : o.Reads) (ex : Performs codec i c w o w' r) :
    w'.session = w.session := by
  cases o with
  | record => exact reads.elim
  | ready =>
    obtain ⟨rfl, -⟩ := ex
    rfl
  | fetchAdd =>
    obtain ⟨rfl, -⟩ := ex
    rfl
  | lockAggregate id => obtain ⟨-, rfl, -⟩ | ⟨-, rfl, -⟩ := ex <;> rfl
  | unlockAggregate id panicking =>
    obtain ⟨-, rfl⟩ := ex
    rfl
  | uuid =>
    obtain ⟨-, -, rfl⟩ := ex
    rfl
  | now =>
    cases ex
    rfl
  | readAll =>
    obtain ⟨_, -, rfl, -⟩ := ex
    rfl

/-! ## Where entries come from -/

/-- What caller `i` issued is one entry at most, and its call asked for it. -/
structure Asked (codec : Codec E) (i : Nat) (c : Call E) (w : World) : Prop where
  once : (ownEntries i w).length ≤ 1
  wanted : ∀ entry ∈ ownEntries i w, ∃ env, Carries codec entry env ∧ Wants c env

lemma asked_clean (clean : ownEntries i w = []) : Asked codec i c w := by
  refine ⟨by simp [clean], ?_⟩
  rw [clean]
  exact fun _ mem => absurd mem List.not_mem_nil

lemma Asked.mono (h : Asked codec i c w) (own : (ownEntries i w').Sublist (ownEntries i w)) :
    Asked codec i c w' :=
  ⟨own.length_le.trans h.once, fun entry mem => h.wanted entry (own.subset mem)⟩

/-- Either there is no such entry, or there is one. -/
lemma Asked.cases (h : Asked codec i c w) :
    ownEntries i w = [] ∨
      ∃ entry env, ownEntries i w = [entry] ∧ Carries codec entry env ∧ Wants c env := by
  obtain ⟨once, wanted⟩ := h
  match own : ownEntries i w with
  | [] => exact .inl rfl
  | [entry] =>
    obtain ⟨env, carries, wants⟩ := wanted entry (own ▸ List.mem_singleton_self entry)
    exact .inr ⟨entry, env, rfl, carries, wants⟩
  | _ :: _ :: _ =>
    rw [own] at once
    simp at once

/-- What a place of the pool has issued, and what it may still issue. -/
def Sources (codec : Codec E) (w : World) (i : Nat) :
    Slot sig (Call E) Failure (Reply E) → Prop
  | .idle => ownEntries i w = []
  | .run c p =>
    (ownEntries i w = [] ∧ WritesOnce codec c p) ∨ (p.Uses Op.Reads ∧ Asked codec i c w)
  | .gone c => Asked codec i c w

lemma Sources.mono (h : Sources codec w i sl) (own : (ownEntries i w').Sublist (ownEntries i w)) :
    Sources codec w' i sl := by
  have clean : ownEntries i w = [] → ownEntries i w' = [] := by
    intro none'
    rw [none'] at own
    exact List.sublist_nil.mp own
  cases sl with
  | idle => exact clean h
  | gone c => exact Asked.mono h own
  | run c p =>
    obtain ⟨none', once⟩ | ⟨reads, asked⟩ := h
    · exact .inl ⟨clean none', once⟩
    · exact .inr ⟨reads, asked.mono own⟩

/-- What is known of a call that is on its way or has returned. -/
lemma Sources.asked {p : Prog sig Failure (Reply E)} (h : Sources codec w i (.run c p)) :
    Asked codec i c w := by
  obtain ⟨clean, -⟩ | ⟨-, asked⟩ := h
  · exact asked_clean clean
  · exact asked

/-- Every entry comes from a call that was made. -/
structure Sourced (codec : Codec E) (tr : List (Label E)) (P : Calls E) : Prop where
  settled : P.world.session.uncertain = none → P.world.session.pending = none
  slots : ∀ i, Sources codec P.world i (P.slots i)
  called : ∀ i c, Slot.call (P.slots i) = some c → .step (.call i c) ∈ tr

lemma ownEntries_congr (same : w'.session = w.session) (j : Nat) :
    ownEntries j w' = ownEntries j w := by
  rw [ownEntries, ownEntries, World.issued, World.issued, same]

/-- What an operation of caller `i` adds to the entries that were issued. -/
lemma Performs.issues {r : o.Res} (ex : Performs codec i c w o w' r)
    (settled : w.session.uncertain = none → w.session.pending = none) :
    (w'.session.uncertain = none → w'.session.pending = none) ∧
      ((∀ j, ownEntries j w' = ownEntries j w) ∨
        ∃ key eventId payload, o = .record key eventId payload ∧
          ownEntries i w' = ownEntries i w ++ [⟨key, eventId, payload, false, i⟩] ∧
          ∀ j ≠ i, ownEntries j w' = ownEntries j w) := by
  by_cases reads : o.Reads
  · have same := ex.session reads
    exact ⟨same ▸ settled, .inl (ownEntries_congr same)⟩
  cases o with
  | record key eventId payload =>
    obtain ⟨answers, -, rfl⟩ := ex
    rcases (Session.recorded w.session answers _).issued settled with
      same | ⟨-, issued, -, settled'⟩
    · exact ⟨by rwa [same], .inl (ownEntries_congr same)⟩
    · refine ⟨settled', .inr ⟨key, eventId, payload, rfl, ?_, fun j ne => ?_⟩⟩
      · rw [ownEntries, World.issued, issued, List.filter_append, List.filter_singleton]
        simp [ownEntries, World.issued]
      · rw [ownEntries, World.issued, issued, List.filter_append, List.filter_singleton]
        simp [ownEntries, World.issued, ne.symm]
  | _ => exact absurd trivial reads

/-- One operation of a call. -/
lemma Sources.op {r : o.Res} {k : o.Res → Prog sig Failure (Reply E)}
    (h : Sources codec w i (.run c (.op o k))) (known : o.Answers r)
    (own : ownEntries i w' = ownEntries i w ∨
      ∃ key eventId payload, o = .record key eventId payload ∧
        ownEntries i w' = ownEntries i w ++ [⟨key, eventId, payload, false, i⟩]) :
    Sources codec w' i (.run c (k r)) := by
  rcases own with same | ⟨key, eventId, payload, rfl, issued⟩
  · have next : Sources codec w i (.run c (k r)) := by
      obtain ⟨clean, ⟨-, uses⟩ | ⟨-, once⟩⟩ | ⟨uses, asked⟩ := h
      · exact .inr ⟨uses r, asked_clean clean⟩
      · exact .inl ⟨clean, once r known⟩
      · exact .inr ⟨uses.2 r, asked⟩
    exact next.mono (same ▸ List.Sublist.refl _)
  · -- the one write of the call
    obtain ⟨clean, ⟨writes, uses⟩ | ⟨⟨⟩, -⟩⟩ | ⟨⟨⟨⟩, -⟩, -⟩ := h
    rw [clean, List.nil_append] at issued
    obtain ⟨env, carries, wants⟩ := writes
    refine .inr ⟨uses r, by simp [issued], ?_⟩
    rw [issued]
    intro entry mem
    rw [List.mem_singleton.mp mem]
    exact ⟨env, carries i, wants⟩

/-- One place of the pool changes. -/
lemma Sourced.update (h : Sourced codec tr P)
    (settled : w.session.uncertain = none → w.session.pending = none)
    (others : ∀ j ≠ i, ownEntries j w = ownEntries j P.world) (sources : Sources codec w i sl)
    (called : ∀ c, Slot.call sl = some c → .step (.call i c) ∈ tr ++ [l]) :
    Sourced codec (tr ++ [l]) ⟨w, update P.slots i sl⟩ := by
  refine ⟨settled, fun j => ?_, fun j c call => ?_⟩
  · rcases eq_or_ne j i with rfl | ne
    · simpa only [update_self] using sources
    · simp only [update_of_ne ne]
      exact (h.slots j).mono (others j ne ▸ List.Sublist.refl _)
  · rcases eq_or_ne j i with rfl | ne
    · simp only [update_self] at call
      exact called c call
    · simp only [update_of_ne ne] at call
      exact List.mem_append_left _ (h.called j c call)

lemma Sources.cut (h : Sources codec w i sl) : Sources codec w i (cut sl) := by
  cases sl with
  | idle => exact h
  | gone c => exact h
  | run c p =>
    cases p with
    | op o k => exact Sources.asked h
    | ret reply => exact h
    | raise f => exact h

/-- Every entry keeps the call that asked for it. -/
lemma Sourced.step {P' : Calls E} (h : Sourced codec tr P)
    (st : SystemStep codec (Performs codec) P l P') : Sourced codec (tr ++ [l]) P' := by
  cases st with
  | step st =>
    cases st with
    | @call i c idle =>
      have clean : ownEntries i P.world = [] := by
        have sources := h.slots i
        rwa [idle] at sources
      refine h.update h.settled (fun _ _ => rfl) (.inl ⟨clean, program_writesOnce c⟩) ?_
      rintro _ ⟨⟩
      exact List.mem_append_right _ (List.mem_singleton_self _)
    | @op i c o k w r at' ex =>
      have sources := h.slots i
      have called := h.called i c
      rw [at'] at sources called
      obtain ⟨settled, same | ⟨key, eventId, payload, rfl, own, others⟩⟩ := ex.issues h.settled
      · refine h.update settled (fun j _ => same j) (sources.op ex.answers (.inl (same i))) ?_
        rintro _ ⟨⟩
        exact List.mem_append_left _ (called rfl)
      · refine h.update settled others
          (sources.op ex.answers (.inr ⟨key, eventId, payload, rfl, own⟩)) ?_
        rintro _ ⟨⟩
        exact List.mem_append_left _ (called rfl)
    | @abandon i c p at' =>
      have sources := h.slots i
      have called := h.called i c
      rw [at'] at sources called
      refine h.update h.settled (fun _ _ => rfl) (Sources.asked sources) ?_
      rintro _ ⟨⟩
      exact List.mem_append_left _ (called rfl)
    | env none => exact none.elim
  | @reopen w reopens =>
    refine ⟨?_, fun i => ((h.slots i).mono (reopens.later i).own).cut, fun i c call => ?_⟩
    · obtain ⟨-, -, -, -⟩ := reopens
      exact fun _ => rfl
    · rw [Slot.call_cut] at call
      exact List.mem_append_left _ (h.called i c call)

/-- In every run each entry has a call that asked for it. -/
lemma sourced_run (r : Run (SystemStep codec (Performs codec)) (Pool.init .created) tr P) :
    Sourced codec tr P := by
  refine r.snocInduction (motive := Sourced codec) ?_ fun _ st h => h.step st
  exact ⟨fun _ => rfl, fun _ => rfl, by rintro _ _ ⟨⟩⟩

/-- A place that was not called has no entries. -/
lemma Sourced.asked (h : Sourced codec tr P) (i : Nat) :
    ownEntries i P.world = [] ∨ ∃ c, .step (.call i c) ∈ tr ∧ Asked codec i c P.world := by
  have sources := h.slots i
  have called := h.called i
  generalize P.slots i = sl at sources called
  cases sl with
  | idle => exact .inl sources
  | run c p => exact .inr ⟨c, called c rfl, sources.asked⟩
  | gone c => exact .inr ⟨c, called c rfl, sources⟩

/-- Every entry is the record of an envelope that a call asked for. -/
lemma Sourced.wanted (h : Sourced codec tr P) {entry : Entry} (mem : entry ∈ P.world.issued) :
    ∃ c env, .step (.call entry.writer c) ∈ tr ∧
      Carries codec entry env ∧ Wants c env := by
  have own : entry ∈ ownEntries entry.writer P.world :=
    List.mem_filter.mpr ⟨mem, decide_eq_true rfl⟩
  rcases h.asked entry.writer with clean | ⟨c, called, asked⟩
  · rw [clean] at own
    cases own
  · obtain ⟨env, carries, wants⟩ := asked.wanted entry own
    exact ⟨c, env, called, carries, wants⟩

/-- In every run, however calls are interleaved, abandoned or cut off: every entry of the file is
the record of an envelope that a call was made for, and no call has two entries. -/
theorem entries_asked_once {tr : List (Label E)} {P : Calls E}
    (r : Run (SystemStep codec (Performs codec)) (Pool.init .created) tr P) :
    (P.world.issued.map (·.writer)).Nodup ∧
      ∀ entry ∈ P.world.issued, ∃ c env, .step (.call entry.writer c) ∈ tr ∧
        Carries codec entry env ∧ Wants c env := by
  have sourced := sourced_run r
  refine ⟨List.nodup_iff_count_le_one.mpr fun i => ?_, fun entry mem => sourced.wanted mem⟩
  have count : (P.world.issued.map (·.writer)).count i = (ownEntries i P.world).length := by
    rw [List.count, List.countP_map, List.countP_eq_length_filter]
    rfl
  rw [count]
  rcases sourced.asked i with clean | ⟨c, -, asked⟩
  · simp [clean]
  · exact asked.once

/-- An aggregate is created: the entry was asked for. -/
theorem entries_asked_once_created : ∃ tr P entry,
    Run (SystemStep unitCodec (Performs unitCodec)) (Pool.init .created) tr P ∧
    P.world.issued = [entry] ∧
    ∃ c env, .step (.call entry.writer c) ∈ tr ∧ Carries unitCodec entry env ∧ Wants c env := by
  obtain ⟨w, entry, env, ex, -, -, -, -, -, session⟩ :=
    create_alone (unitCodec_fits ()) ⟨none, none⟩
  obtain ⟨tr, run, -⟩ := run_first ex
  have issued : w.issued = [entry] := by
    rw [World.issued, session]
    rfl
  exact ⟨_, _, entry, run, issued,
    (entries_asked_once run).2 entry (issued ▸ List.mem_singleton_self entry)⟩

end CherryPit.Pgno
