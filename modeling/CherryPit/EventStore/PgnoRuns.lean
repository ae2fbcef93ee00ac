import CherryPit.EventStore.PgnoCalls
import CherryPit.EventStore.PgnoReliable

/-!
# Runs of the durable event store

Runs of the system from `create_pgno` on: calls from any number of threads, interrupted at any point
by the end of the process and a reopen. In a run with fewer than `2^64 - 1` calls of `create` the
counter does not wrap around (`allocs_le`), every call meets its postcondition, and what a call
knows when it returns stays true for good.
-/

namespace CherryPit.Pgno

open Conc Store Function
open Projection (U64 u64)

variable {E : Type} {codec : Codec E} {w w' : World} {P P' : Calls E} {tr : List (Label E)}
  {slot : Slot sig (Call E) Failure (Reply E)} {id : AggregateId} {i j : Nat} {payload : E}
  {l : Label E} {c : Call E}

/-! ## Reopens -/

lemma Reopens.later (h : Reopens codec w w') (i : Nat) : Later i w w' := by
  obtain ⟨log, file, -, -⟩ := h
  refine ⟨log, ?_⟩
  refine List.Sublist.filter _ (List.IsPrefix.sublist ?_)
  simpa [World.issued, Session.issued, Session.opened] using file

lemma Reopens.inv (inv : Inv codec w) (h : Reopens codec w w') : Inv codec w' := by
  obtain @⟨file, entries, epoch, maximum, log, part, perm, found⟩ := h
  have issued : (Session.opened file epoch).issued = file := List.append_nil file
  have sound := inv.sound.of_prefix part
  obtain ⟨m, folds, -, all, reached⟩ :=
    maxId_eq (fun entry mem => sound.legible entry (perm.subset mem)) (0 : U64)
  cases folds.symm.trans found
  refine ⟨inv.orderly, ?_, ?_, ?_, fun _ h => absurd rfl h, fun _ => rfl, ?_⟩
  · show Sound codec (Session.opened file epoch).issued
    rwa [issued]
  · intro entry mem env carries
    exact all entry (perm.mem_iff.mpr (issued ▸ mem)) env carries
  · intro entry mem env carries
    exact inv.drawn entry (part.subset (issued ▸ mem)) env carries
  · -- the largest id of the file was allocated
    rcases reached with rfl | ⟨entry, mem, env, carries, e⟩
    · exact Nat.zero_le _
    · show maximum.val ≤ w.allocs.length
      rw [e]
      exact (inv.bounded entry (part.subset (perm.subset mem)) env carries).trans inv.counted

/-- What is known of the calls survives a reopen. -/
lemma ok_reopen (ok : Pool.Ok (protocol codec) (Post codec) P) (h : Reopens codec P.world w) :
    Pool.Ok (protocol codec) (Post codec) ⟨w, fun i => cut (P.slots i)⟩ := by
  have inv := h.inv ok.inv
  refine ⟨inv, fun i => ?_⟩
  have returned : ∀ c x, P.slots i = .run c (.ofExcept x) →
      wp (Within codec) ((protocol codec).assume i) i c (Post codec i c) (.ofExcept x) w := by
    intro c x at'
    refine wp_ofExcept fun v rely inv' => ?_
    exact (Post.later (ok.returned at') (h.later i)).later (rely.kept inv'.orderly).later
  show (protocol codec).SlotOk (Post codec) w i (cut (P.slots i))
  cases at' : P.slots i with
  | idle =>
    intro _
    have sub := (h.later i).own
    rw [ok.unused at' ok.inv.orderly] at sub
    exact List.sublist_nil.mp sub
  | gone c => trivial
  | run c p =>
    cases p with
    | ret reply => exact returned c (.ok reply) at'
    | raise f => exact returned c (.error f) at'
    | op o k => trivial

lemma inv_created : Inv codec World.created := by
  refine ⟨trivial, .nil, ?_, ?_, fun _ h => absurd rfl h, fun _ => rfl, Nat.le_refl _⟩
  · exact fun _ mem => absurd mem List.not_mem_nil
  · exact fun _ mem => absurd mem List.not_mem_nil

/-- The calls follow the protocol as long as the counter does not wrap around. -/
lemma system_ok (r : Run (SystemStep codec (Within codec)) (Pool.init .created) tr P) :
    Pool.Ok (protocol codec) (Post codec) P := by
  refine r.invariant ?_ (Pool.Ok.init inv_created fun _ _ => rfl)
  intro P l P' ok st
  cases st with
  | step st =>
    exact ok.step (fun _ inv fresh => program_meets inv (fresh inv.orderly)) st
  | reopen h => exact ok_reopen ok h

/-! ## The counter -/

/-- Every operation but the allocation of an id. -/
def Op.spares (o : Op) : Prop := o ≠ .fetchAdd

lemma withAggregate_spares {α : Type} {body : Prog sig Failure α} (h : body.Uses Op.spares) :
    (withAggregate id body).Uses Op.spares := by
  refine ⟨by rintro ⟨⟩, fun poisoned => ?_⟩
  cases poisoned with
  | true => trivial
  | false => exact h.result.bind fun x => ⟨by rintro ⟨⟩, fun _ => .ofExcept x⟩

lemma orderedStream_spares (id : AggregateId) : (orderedStream codec id).Uses Op.spares :=
  .attempt (by rintro ⟨⟩)

lemma recordSingle_spares {aggregateId : U64} {eventId : Uuid} {sequence : U64}
    {correlationId causationId : Option Uuid} :
    (recordSingle codec aggregateId eventId sequence correlationId causationId payload).Uses
      Op.spares := by
  refine ⟨by rintro ⟨⟩, fun now => ?_⟩
  dsimp only
  split
  · trivial
  · exact .attempt (by rintro ⟨⟩)

lemma create_once (events : List E) (ctx : CorrelationContext) :
    (create codec events ctx).Once Op.spares := by
  refine .after (.attempt (by rintro ⟨⟩)) fun _ => ?_
  match events with
  | _ :: _ :: _ => trivial
  | [] => trivial
  | [payload] =>
    refine .inl ⟨fun h => h rfl, fun old => (Prog.Uses.ofExcept _).bind fun rawId => ?_⟩
    split
    · trivial
    · refine withAggregate_spares ⟨by rintro ⟨⟩, fun u => recordSingle_spares.bind fun _ => ?_⟩
      exact (orderedStream_spares _).mapError.bind fun _ => trivial

lemma append_spares (id : AggregateId) (expected : NonZeroU64) (events : List E)
    (ctx : CorrelationContext) : (append codec id expected events ctx).Uses Op.spares := by
  refine (Prog.Uses.attempt (by rintro ⟨⟩)).bind fun _ => ?_
  match events with
  | _ :: _ :: _ => trivial
  | [] => trivial
  | [payload] =>
    refine withAggregate_spares ((orderedStream_spares id).bind fun existing => ?_)
    split
    · trivial
    dsimp only
    split
    · trivial
    refine ⟨by rintro ⟨⟩, fun u => (Prog.Uses.ofExcept _).bind fun sequence => ?_⟩
    refine recordSingle_spares.bind fun _ => (orderedStream_spares id).mapError.bind fun full => ?_
    split <;> trivial

/-- A call other than `create` allocates nothing. -/
lemma program_spares (h : ∀ events ctx, c ≠ .create events ctx) :
    (program codec c).Uses Op.spares := by
  cases c with
  | load id => exact (orderedStream_spares id).bind fun _ => trivial
  | create events ctx => exact absurd rfl (h events ctx)
  | append id expected events ctx => exact (append_spares _ _ _ _).bind fun _ => trivial

lemma program_once (c : Call E) : (program codec c).Once Op.spares := by
  cases c with
  | create events ctx => exact (create_once events ctx).before fun _ => trivial
  | load id => exact (program_spares (by rintro _ _ ⟨⟩)).once
  | append id expected events ctx => exact (program_spares (by rintro _ _ ⟨⟩)).once

/-- What a call may still allocate. -/
def Spends (allocs : List Nat) (i : Nat) : Slot sig (Call E) Failure (Reply E) → Prop
  | .idle => i ∉ allocs
  | .run c p => p.Uses Op.spares ∨
    (i ∉ allocs ∧ p.Once Op.spares ∧ ∃ events ctx, c = .create events ctx)
  | .gone _ => True

/-- The call of a place that is in use. -/
def Slot.call : Slot sig (Call E) Failure (Reply E) → Option (Call E)
  | .idle => none
  | .run c _ => some c
  | .gone c => some c

/-- A crash keeps the calls. -/
lemma Slot.call_cut (sl : Slot sig (Call E) Failure (Reply E)) :
    Slot.call (cut sl) = Slot.call sl := by
  cases sl with
  | run c p => cases p <;> rfl
  | idle => rfl
  | gone c => rfl

/-- Ids were allocated by calls of `create`, one each. -/
structure Counted (tr : List (Label E)) (P : Calls E) : Prop where
  nodup : P.world.allocs.Nodup
  creators : ∀ i ∈ P.world.allocs, i ∈ tr.filterMap Label.creator
  called : ∀ i events ctx, Slot.call (P.slots i) = some (.create events ctx) →
    i ∈ tr.filterMap Label.creator
  slots : ∀ i, Spends P.world.allocs i (P.slots i)

lemma Performs.allocs {o : Op} {r : o.Res} (ex : Performs codec i c w o w' r) :
    (o.spares ∧ w'.allocs = w.allocs) ∨ (¬ o.spares ∧ w'.allocs = w.allocs ++ [i]) := by
  cases o with
  | fetchAdd =>
    obtain ⟨rfl, -⟩ := ex
    exact .inr ⟨fun h => h rfl, rfl⟩
  | ready =>
    obtain ⟨rfl, -⟩ := ex
    exact .inl ⟨by rintro ⟨⟩, rfl⟩
  | lockAggregate id =>
    refine .inl ⟨by rintro ⟨⟩, ?_⟩
    obtain ⟨-, rfl, -⟩ | ⟨-, rfl, -⟩ := ex <;> rfl
  | unlockAggregate id panicking =>
    obtain ⟨-, rfl⟩ := ex
    exact .inl ⟨by rintro ⟨⟩, rfl⟩
  | uuid =>
    obtain ⟨-, -, rfl⟩ := ex
    exact .inl ⟨by rintro ⟨⟩, rfl⟩
  | now =>
    cases ex
    exact .inl ⟨by rintro ⟨⟩, rfl⟩
  | readAll =>
    obtain ⟨_, -, rfl, -⟩ := ex
    exact .inl ⟨by rintro ⟨⟩, rfl⟩
  | record key eventId payload =>
    obtain ⟨_, -, rfl⟩ := ex
    exact .inl ⟨by rintro ⟨⟩, rfl⟩

lemma Spends.other {allocs : List Nat} (h : Spends allocs j slot) (ne : j ≠ i) :
    Spends (allocs ++ [i]) j slot := by
  cases slot with
  | idle => simpa [Spends, ne] using h
  | run c p =>
    obtain free | ⟨new, once, create⟩ := h
    · exact .inl free
    · exact .inr ⟨by simp [new, ne], once, create⟩
  | gone c => trivial

/-- One place of the pool changes. -/
lemma Counted.update (h : Counted tr P) (nodup : w.allocs.Nodup)
    (creators : ∀ j ∈ w.allocs, j ∈ (tr ++ [l]).filterMap Label.creator)
    (called : ∀ events ctx, Slot.call slot = some (.create events ctx) →
      i ∈ (tr ++ [l]).filterMap Label.creator)
    (spends : Spends w.allocs i slot)
    (others : ∀ j ≠ i, Spends P.world.allocs j (P.slots j) → Spends w.allocs j (P.slots j)) :
    Counted (tr ++ [l]) ⟨w, update P.slots i slot⟩ := by
  refine ⟨nodup, creators, ?_, ?_⟩
  · intro j events ctx call
    rcases eq_or_ne j i with rfl | ne
    · simp only [update_self] at call
      exact called events ctx call
    · simp only [update_of_ne ne] at call
      rw [List.filterMap_append]
      exact List.mem_append_left _ (h.called j events ctx call)
  · intro j
    rcases eq_or_ne j i with rfl | ne
    · simpa only [update_self] using spends
    · simpa only [update_of_ne ne] using others j ne (h.slots j)

lemma Counted.step (h : Counted tr P) (st : SystemStep codec (Performs codec) P l P') :
    Counted (tr ++ [l]) P' := by
  have creators : ∀ j ∈ P.world.allocs, j ∈ (tr ++ [l]).filterMap Label.creator := by
    intro j mem
    rw [List.filterMap_append]
    exact List.mem_append_left _ (h.creators j mem)
  have called : ∀ {i events ctx}, Slot.call (P.slots i) = some (.create events ctx) →
      i ∈ (tr ++ [l]).filterMap Label.creator := by
    intro i events ctx call
    rw [List.filterMap_append]
    exact List.mem_append_left _ (h.called i events ctx call)
  cases st with
  | step st =>
    cases st with
    | @call i c idle =>
      have new : i ∉ P.world.allocs := by
        have slot := h.slots i
        rwa [idle] at slot
      refine h.update h.nodup creators ?_ ?_ fun _ _ h => h
      · rintro events ctx ⟨⟩
        rw [List.filterMap_append]
        exact List.mem_append_right _ (List.mem_singleton_self i)
      · by_cases create : ∃ events ctx, c = .create events ctx
        · exact .inr ⟨new, program_once c, create⟩
        · exact .inl (program_spares fun events ctx e => create ⟨events, ctx, e⟩)
    | @op i c o k w' r at' ex =>
      have slot := h.slots i
      rw [at'] at slot
      have call : ∀ events ctx, c = .create events ctx →
          i ∈ (tr ++ [Label.step (.op i o)]).filterMap Label.creator := by
        rintro events ctx rfl
        exact called (by rw [at']; rfl)
      obtain ⟨spares, same⟩ | ⟨spends, grown⟩ := ex.allocs
      · refine h.update (same ▸ h.nodup) (same ▸ creators) ?_ ?_ fun _ _ h => same ▸ h
        · rintro events ctx ⟨⟩
          exact call events ctx rfl
        · obtain free | ⟨new, once, create⟩ := slot
          · exact .inl (free.2 r)
          · obtain ⟨spends, -⟩ | ⟨-, once⟩ := once
            · exact absurd spares spends
            · exact .inr ⟨same ▸ new, once r, create⟩
      · -- the only allocation of the call
        obtain free | ⟨new, once, events, ctx, rfl⟩ := slot
        · exact absurd free.1 spends
        obtain ⟨-, free⟩ | ⟨spares, -⟩ := once
        · refine h.update ?_ ?_ ?_ (.inl (free r)) fun j ne h => grown ▸ h.other ne
          · rw [grown]
            exact List.concat_eq_append ▸ h.nodup.concat new
          · intro j mem
            rw [grown] at mem
            rcases List.mem_append.mp mem with mem | mem
            · exact creators j mem
            · rw [List.mem_singleton.mp mem]
              exact call events ctx rfl
          · exact fun _ _ _ => call events ctx rfl
        · exact absurd spares spends
    | @abandon i c p at' =>
      refine h.update h.nodup creators ?_ trivial fun _ _ h => h
      rintro events ctx ⟨⟩
      exact called (by rw [at']; rfl)
    | env none => exact none.elim
  | @reopen w reopens =>
    have allocs : w.allocs = P.world.allocs := by
      obtain ⟨-, -, -, -⟩ := reopens
      rfl
    refine ⟨allocs ▸ h.nodup, allocs ▸ creators, ?_, ?_⟩
    · intro i events ctx call
      exact called ((Slot.call_cut _).symm.trans call)
    · intro i
      have slot := h.slots i
      rw [← allocs] at slot
      show Spends w.allocs i (cut (P.slots i))
      cases at' : P.slots i with
      | idle => rwa [at'] at slot
      | gone c => trivial
      | run c p =>
        rw [at'] at slot
        cases p with
        | op o k => trivial
        | ret reply => exact .inl trivial
        | raise f => exact .inl trivial

/-- At most one id is allocated for each call of `create`. -/
lemma allocs_le (r : Run (SystemStep codec (Performs codec)) (Pool.init .created) tr P) :
    P.world.allocs.length ≤ (tr.filterMap Label.creator).length := by
  have counted : Counted tr P := by
    refine r.snocInduction (motive := Counted) ?_ fun _ st h => h.step st
    exact ⟨List.nodup_nil, fun _ mem => absurd mem List.not_mem_nil, by rintro _ _ _ ⟨⟩,
      fun _ => List.not_mem_nil⟩
  exact (List.subperm_of_subset counted.nodup counted.creators).length_le

/-- Along a run allocations are not undone. -/
lemma allocs_mono (r : Run (SystemStep codec (Performs codec)) P tr P') :
    P.world.allocs.length ≤ P'.world.allocs.length := by
  refine r.invariant (I := fun Q => P.world.allocs.length ≤ Q.world.allocs.length) ?_ le_rfl
  intro Q l Q' le st
  cases st with
  | step st =>
    cases st with
    | call => exact le
    | op _ ex =>
      obtain ⟨-, same⟩ | ⟨-, grown⟩ := ex.allocs
      · rwa [same]
      · rw [grown, List.length_append]
        omega
    | abandon => exact le
    | env none => exact none.elim
  | reopen reopens =>
    obtain ⟨-, -, -, -⟩ := reopens
    exact le

/-- A run that ends with few allocations had few all the time. -/
lemma run_within (r : Run (SystemStep codec (Performs codec)) P tr P')
    (few : P'.world.allocs.length < 2 ^ 64 - 1) :
    Run (SystemStep codec (Within codec)) P tr P' := by
  induction r with
  | nil => exact .nil
  | cons st r ih =>
    have le := allocs_mono r
    refine .cons ?_ (ih few)
    cases st with
    | step st =>
      refine .step ?_
      cases st with
      | call idle may => exact .call idle may
      | op at' ex => exact .op at' ⟨ex, lt_of_le_of_lt le few⟩
      | abandon at' => exact .abandon at'
      | env none => exact none.elim
    | reopen reopens => exact .reopen reopens

/-! ## Whole runs -/

/-- The log only grows. -/
lemma log_mono (r : Run (SystemStep codec (Performs codec)) P tr P') :
    P.world.session.log <+: P'.world.session.log := by
  refine r.invariant (I := fun Q => P.world.session.log <+: Q.world.session.log) ?_
    (List.prefix_refl _)
  intro Q l Q' pre st
  refine pre.trans ?_
  cases st with
  | step st =>
    cases st with
    | call => exact List.prefix_refl _
    | @op i c o k w r at' ex =>
      cases o with
      | record key eventId payload =>
        obtain ⟨answers, -, rfl⟩ := ex
        have recorded := Q.world.session.recorded answers ⟨key, eventId, payload, false, i⟩
        generalize Q.world.session.record answers ⟨key, eventId, payload, false, i⟩ = out
          at recorded
        obtain ⟨s, r⟩ := out
        cases recorded with
        | refused => exact List.prefix_refl _
        | stranded => exact List.prefix_refl _
        | unsynced => exact List.prefix_append _ _
        | landed => exact List.prefix_append _ _
      | lockAggregate id => obtain ⟨-, rfl, -⟩ | ⟨-, rfl, -⟩ := ex <;> exact List.prefix_refl _
      | unlockAggregate id panicking =>
        obtain ⟨-, rfl⟩ := ex
        exact List.prefix_refl _
      | uuid =>
        obtain ⟨-, -, rfl⟩ := ex
        exact List.prefix_refl _
      | readAll =>
        obtain ⟨_, -, rfl, -⟩ := ex
        exact List.prefix_refl _
      | now =>
        cases ex
        exact List.prefix_refl _
      | ready =>
        obtain ⟨rfl, -⟩ := ex
        exact List.prefix_refl _
      | fetchAdd =>
        obtain ⟨rfl, -⟩ := ex
        exact List.prefix_refl _
    | abandon => exact List.prefix_refl _
    | env none => exact none.elim
  | reopen reopens =>
    obtain ⟨log, -, -, -⟩ := reopens
    exact log

/-- Of two prefixes that end with an entry, the shorter one is a prefix of what precedes the end of
the longer one. -/
lemma concat_within {before before' log : List Entry} {entry entry' : Entry}
    (h : before ++ [entry] <+: log) (h' : before' ++ [entry'] <+: log)
    (lt : before.length < before'.length) : before ++ [entry] <+: before' := by
  refine List.prefix_of_prefix_length_le h ((List.prefix_append _ _).trans h') ?_
  rw [List.length_append, List.length_singleton]
  omega

/-- A position of a stream is filled once. -/
lemma Added.unique {n : Nat} {ctx ctx' : CorrelationContext} {payload' : E}
    {env env' : EventEnvelope E} (h : Added codec i id n ctx payload env w)
    (h' : Added codec j id n ctx' payload' env' w) :
    i = j := by
  obtain ⟨before, entry, after, log, own, at1, here, -⟩ := h.landed
  obtain ⟨before', entry', after', log', own', at2, here', -⟩ := h'.landed
  have pre : before ++ [entry] <+: w.session.log := ⟨after, by simp [log]⟩
  have pre' : before' ++ [entry'] <+: w.session.log := ⟨after', by simp [log']⟩
  have same : before.length = before'.length := by
    rcases Nat.lt_trichotomy before.length before'.length with lt | e | gt
    · have grown : streamOf codec id (before ++ [entry]) <+: streamOf codec id before' :=
        streamOf_mono (concat_within pre pre' lt)
      have := grown.length_le
      rw [here, List.length_append, List.length_singleton] at this
      omega
    · exact e
    · have grown : streamOf codec id (before' ++ [entry']) <+: streamOf codec id before :=
        streamOf_mono (concat_within pre' pre gt)
      have := grown.length_le
      rw [here', List.length_append, List.length_singleton] at this
      omega
  obtain ⟨-, e⟩ := List.append_inj (log.symm.trans log') same
  obtain ⟨rfl, -⟩ := List.cons.inj e
  have mine : entry ∈ ownEntries i w := own ▸ List.mem_singleton_self _
  have mine' : entry ∈ ownEntries j w := own' ▸ List.mem_singleton_self _
  exact (of_decide_eq_true (List.mem_filter.mp mine).2).symm.trans
    (of_decide_eq_true (List.mem_filter.mp mine').2)

lemma WellFormed.sequences {stream : List (EventEnvelope E)}
    (h : EventEnvelope.WellFormed id stream) :
    stream.map (·.sequence.get) = List.range' 1 stream.length := by
  refine List.ext_getElem (by simp) ?_
  intro n hn hn'
  rw [List.getElem_map, List.getElem_range', h.numbered n _ (List.getElem?_eq_getElem _)]
  omega

/-- In every run with fewer than `2^64 - 1` calls of `create`: a read finds the streams, numbered
from 1 on, and `open_pgno` does not find corrupt data; no `load` returns corrupt data or anything
but such numbers; a successful `create` or `append` put its event at the end of the stream and did
nothing else; no two appends succeed at one sequence and no two creates return one id; a call that
fails with a retryable or terminal error has written nothing; and streams only grow at their
ends. -/
theorem gap_free_streams
    (r : Run (SystemStep codec (Performs codec)) (Pool.init .created) tr P)
    (few : (tr.filterMap Label.creator).length < 2 ^ 64 - 1) :
    (∀ id entries, entries.Perm P.world.session.log →
      streamIn codec id entries = .ok (streamOf codec id P.world.session.log) ∧
      (streamOf codec id P.world.session.log).map (·.sequence.get) =
        List.range' 1 (streamOf codec id P.world.session.log).length) ∧
    (∀ file entries, P.world.session.log <+: file → file <+: P.world.issued →
      entries.Perm file → ∃ maximum, maxId codec entries = .ok maximum) ∧
    (∀ i id f, P.slots i = .run (.load id) (.raise f) →
      ∀ source, f ≠ .store (.corruptData source)) ∧
    (∀ i id reply, P.slots i = .run (.load id) (.ret reply) →
      ∃ stream, reply = .loaded stream ∧
        stream.map (·.sequence.get) = List.range' 1 stream.length) ∧
    (∀ i events ctx reply, P.slots i = .run (.create events ctx) (.ret reply) →
      ∃ id payload env, reply = .created id [env] ∧ events = [payload] ∧
        Added codec i id 0 ctx payload env P.world) ∧
    (∀ i id expected events ctx reply,
      P.slots i = .run (.append id expected events ctx) (.ret reply) → events ≠ [] →
      ∃ payload env, reply = .appended [env] ∧ events = [payload] ∧
        Added codec i id expected.get ctx payload env P.world) ∧
    (∀ i j id expected events events' ctx ctx' reply reply', events ≠ [] → events' ≠ [] →
      P.slots i = .run (.append id expected events ctx) (.ret reply) →
      P.slots j = .run (.append id expected events' ctx') (.ret reply') → i = j) ∧
    (∀ i j events events' ctx ctx' id envs envs',
      P.slots i = .run (.create events ctx) (.ret (.created id envs)) →
      P.slots j = .run (.create events' ctx') (.ret (.created id envs')) → i = j) ∧
    (∀ i c e, P.slots i = .run c (.raise (.store e)) →
      e.category = .retryable ∨ e.category = .terminal → ownEntries i P.world = []) ∧
    (∀ tr' P', Run (SystemStep codec (Performs codec)) P tr' P' → ∀ id,
      streamOf codec id P.world.session.log <+: streamOf codec id P'.world.session.log) := by
  have ok := system_ok (run_within r ((allocs_le r).trans_lt few))
  have returned : ∀ {i c x}, P.slots i = .run c (.ofExcept x) → Post codec i c x P.world :=
    ok.returned
  have sound : Sound codec P.world.session.log :=
    ok.inv.sound.of_prefix (List.prefix_append _ _)
  have created : ∀ i events ctx reply, P.slots i = .run (.create events ctx) (.ret reply) →
      ∃ id payload env, reply = .created id [env] ∧ events = [payload] ∧
        Added codec i id 0 ctx payload env P.world := by
    intro i events ctx reply at'
    have post := returned (x := .ok reply) at'
    cases reply with
    | loaded _ => exact post.elim
    | appended _ => exact post.elim
    | created id envs =>
      obtain ⟨payload, env, rfl, rfl, added⟩ := post
      exact ⟨id, payload, env, rfl, rfl, added⟩
  have appended : ∀ i id expected events ctx reply,
      P.slots i = .run (.append id expected events ctx) (.ret reply) → events ≠ [] →
      ∃ payload env, reply = .appended [env] ∧ events = [payload] ∧
        Added codec i id expected.get ctx payload env P.world := by
    intro i id expected events ctx reply at' some'
    have post := returned (x := .ok reply) at'
    cases reply with
    | loaded _ => exact post.elim
    | created _ _ => exact post.elim
    | appended envs =>
      obtain ⟨none', -⟩ | ⟨payload, env, rfl, rfl, added⟩ := post
      · exact absurd none' some'
      · exact ⟨payload, env, rfl, rfl, added⟩
  refine ⟨?_, ?_, ?_, ?_, created, appended, ?_, ?_, ?_, ?_⟩
  · intro id entries perm
    exact ⟨sound.streamIn perm id, WellFormed.sequences (sound.wellFormed id)⟩
  · intro file entries _ part perm
    have legible : Legible codec entries := fun entry mem =>
      ok.inv.sound.legible entry (part.subset (perm.subset mem))
    obtain ⟨m, folds, -⟩ := maxId_eq legible (0 : U64)
    exact ⟨m, folds⟩
  · rintro i id f at' source rfl
    have post := returned (x := .error (.store (.corruptData source))) at'
    exact post.1 source rfl
  · intro i id reply at'
    have post := returned (x := .ok reply) at'
    cases reply with
    | loaded stream => exact ⟨stream, rfl, WellFormed.sequences post.1⟩
    | created _ _ => exact post.elim
    | appended _ => exact post.elim
  · intro i j id expected events events' ctx ctx' reply reply' some1 some2 at1 at2
    obtain ⟨_, _, -, -, added1⟩ := appended i id expected events ctx reply at1 some1
    obtain ⟨_, _, -, -, added2⟩ := appended j id expected events' ctx' reply' at2 some2
    exact added1.unique added2
  · intro i j events events' ctx ctx' id envs envs' at1 at2
    obtain ⟨_, _, _, ⟨⟩, -, added1⟩ := created i events ctx _ at1
    obtain ⟨_, _, _, ⟨⟩, -, added2⟩ := created j events' ctx' _ at2
    exact added1.unique added2
  · intro i c e at' category
    have post := returned (x := .error (.store e)) at'
    have failed : Failed i P.world (.store e) := by cases c <;> exact post
    refine failed.2 fun other => ?_
    rw [other] at category
    rcases category with e | e <;> cases e
  · exact fun tr' P' r' id => streamOf_mono (log_mono r')

/-- A call that runs alone in a new store, as a run of the system. -/
lemma run_first {w : World} {reply : Reply E}
    (ex : Exec (Performs codec) 0 c .created (program codec c) w (.ok reply)) :
    ∃ tr, Run (SystemStep codec (Performs codec)) (Pool.init .created) (.step (.call 0 c) :: tr)
        ⟨w, update (fun _ => .idle) 0 (.run c (.ret reply))⟩ ∧
      tr.filterMap Label.creator = [] := by
  obtain ⟨ops, run⟩ := @Pool.run_call_ops sig (Call E) World Failure (Reply E) (Performs codec)
    (fun _ _ => False) (program codec) (fun _ => True) (Pool.init .created) 0 c w _ rfl trivial ex
  have seen : Run (SystemStep codec (Performs codec)) _ (List.filterMap (fun l => some (.step l))
      (.call 0 c :: ops.map (.op 0))) _ :=
    run.seen id _ fun st => .inl ⟨_, rfl, .step st⟩
  refine ⟨_, seen, ?_⟩
  rw [List.filterMap_filterMap, List.filterMap_map, List.filterMap_eq_nil_iff]
  exact fun _ _ => rfl

/-- A value is kept in a new store. -/
lemma create_alone {d : E} (fits : Fits codec d) (ctx : CorrelationContext) :
    ∃ w entry env, Exec (Performs codec) 0 (.create [d] ctx) World.created
        (program codec (.create [d] ctx)) w (.ok (.created ⟨.min⟩ [env])) ∧
      env.eventId = 1 ∧ env.payload = d ∧ env.sequence = .min ∧ env.aggregateId = ⟨.min⟩ ∧
      Carries codec entry env ∧ w.session = { World.created.session with log := [entry] } := by
  have calm : Calm codec World.created.session := ⟨rfl, rfl, .nil⟩
  have first : NonZeroU64.min.get = World.created.nextId.val + 1 := rfl
  obtain ⟨w, entry, ex, carries, completed, -⟩ := create_exec (u := 1) (t := 0) (i := 0)
    (c := .create [d] ctx) List.Perm.refl calm (fun _ => rfl) first rfl (by decide) rfl
    (fun _ mem => absurd mem List.not_mem_nil) fits ctx
  exact ⟨w, entry, _, (ex.mono And.left).bind .ret, rfl, rfl, rfl, rfl, carries, completed.session⟩

/-- An aggregate is created: its event is the first of its stream. -/
theorem gap_free_streams_created : ∃ tr P env,
    Run (SystemStep unitCodec (Performs unitCodec)) (Pool.init .created) tr P ∧
    P.slots 0 = .run (.create [()] ⟨none, none⟩) (.ret (.created ⟨.min⟩ [env])) ∧
    Added unitCodec 0 ⟨.min⟩ 0 ⟨none, none⟩ () env P.world := by
  obtain ⟨w, entry, env, ex, -⟩ := create_alone (unitCodec_fits ()) ⟨none, none⟩
  obtain ⟨tr, run, none'⟩ := run_first ex
  refine ⟨_, _, _, run, rfl, ?_⟩
  have whole := gap_free_streams run (by
    simp only [List.filterMap_cons, Label.creator, none']
    decide)
  obtain ⟨id, payload, env, ⟨⟩, -, added⟩ := whole.2.2.2.2.1 0 [()] ⟨none, none⟩ _ rfl
  exact added

end CherryPit.Pgno
