import CherryPit.EventStore.PgnoProtocol

/-!
# The calls of the durable event store

Every call meets its postcondition whatever the others do. The rules follow the programs: a section
under the session lock, a scope of an aggregate's lock, and the three calls.
-/

namespace CherryPit.Pgno

open Conc Store
open Projection (U64 u64 nonZero nonZero_u64 nonZero_eq_some)

variable {E α : Type} {codec : Codec E} {i : Nat} {c : Call E} {w w' : World} {id : AggregateId}
  {F : World → Prop} {stream : List (EventEnvelope E)} {ctx : CorrelationContext}
  {env : EventEnvelope E} {payload : E} {expected : NonZeroU64} {events : List E} {u : Uuid}
  {entry : Entry}

/-- A program of caller `i` meets its postcondition under the protocol. -/
abbrev Meets (codec : Codec E) (i : Nat) (c : Call E) (Q : Except Failure α → World → Prop)
    (p : Prog sig Failure α) (w : World) : Prop :=
  wp (Within codec) ((protocol codec).assume i) i c Q p w

/-- What the others do not undo. -/
def Stable (codec : Codec E) (i : Nat) (F : World → Prop) : Prop :=
  ∀ {v v'}, F v → Kept codec i v v' → F v'

lemma Stable.rely (stable : Stable codec i F) (h : F w) (rely : Rely codec i w w')
    (inv : Inv codec w') : F w' :=
  stable h (rely.kept inv.orderly)

lemma stable_clean : Stable codec i fun w => ownEntries i w = [] :=
  fun h kept => kept.own.trans h

lemma failed_clean {f : Failure} (h : ownEntries i w = [])
    (clear : ∀ e, f = .store e → ∀ source, e ≠ .corruptData source) : Failed i w f := by
  cases f with
  | panicked message => trivial
  | store e => exact ⟨clear e rfl, fun _ => h⟩

/-! ## Sections under the session lock -/

/-- Rust `ready` fails only when a session is uncertain. -/
lemma ready_meets (stable : Stable codec i F) (h : F w) :
    Meets codec i c
      (fun r v => F v ∧ ∀ f, r = .error f →
        ∃ e, f = .store e ∧ e.category = .reconciliationRequired) ready w := by
  apply wp_attempt
  rintro w1 rely inv w2 r ⟨⟨rfl, rfl⟩, -⟩
  refine ⟨inv, fun v rely' inv' => ⟨stable.rely (stable.rely h rely inv) rely' inv', ?_⟩⟩
  intro f e
  cases ready : w2.session.ready with
  | ok =>
    rw [ready] at e
    cases e
  | error e' =>
    rw [ready] at e
    cases e
    exact ⟨e', rfl, ready_error ready⟩

/-- A read finds the stream of a moment at which nothing was pending. -/
lemma orderedStream_meets (stable : Stable codec i F) (h : F w) :
    Meets codec i c
      (fun r v => F v ∧ match r with
        | .ok stream => ∃ u, Inv codec u ∧ F u ∧ u.session.log <+: v.session.log ∧
            u.issued = u.session.log ∧ stream = streamOf codec id u.issued
        | .error f => ∃ e, f = .store e ∧ ∀ source, e ≠ .corruptData source)
      (orderedStream codec id) w := by
  apply wp_attempt
  rintro w1 rely inv w2 r ⟨⟨entries, read, rfl, rfl⟩, -⟩
  have here := stable.rely h rely inv
  refine ⟨inv, fun v rely' inv' => ⟨stable.rely here rely' inv', ?_⟩⟩
  have log := (rely'.kept inv'.orderly).log
  unfold Session.readAll
  cases ready : w2.session.ready with
  | error e => exact ⟨e, rfl, not_corrupt_of_reconciliation (ready_error ready)⟩
  | ok =>
    cases entries with
    | error e => exact ⟨_, rfl, by rintro source ⟨⟩⟩
    | ok entries =>
      have issued : w2.issued = w2.session.log := by
        simp [World.issued, Session.issued, inv.settled (ready_eq_ok ready)]
      have found := inv.sound.streamIn (issued ▸ read entries rfl) id
      dsimp only [Except.bind, Except.mapError]
      rw [found]
      exact ⟨w2, inv, here, log, issued, rfl⟩

/-- Caller `i` has the lock of the aggregate, whose stream is `stream`, and has not written. -/
structure Holding (codec : Codec E) (i : Nat) (id : AggregateId)
    (stream : List (EventEnvelope E)) (w : World) : Prop where
  held : w.locks id = .held i
  reads : streamOf codec id w.issued = stream
  clean : ownEntries i w = []

lemma stable_holding : Stable codec i (Holding codec i id stream) := by
  intro v v' h kept
  obtain ⟨held, same⟩ := kept.locks id h.held
  exact ⟨held, same.trans h.reads, kept.own.trans h.clean⟩

/-- Caller `i` moreover has identity `u` for the next envelope. -/
structure Poised (codec : Codec E) (i : Nat) (id : AggregateId) (stream : List (EventEnvelope E))
    (u : Uuid) (w : World) : Prop extends Holding codec i id stream w where
  named : u ≠ 0
  drew : w.drawn u = some i
  unused : Unused codec u w.issued
  starts : stream = [] → w.owner id = some i

lemma stable_poised : Stable codec i (Poised codec i id stream u) := by
  intro v v' h kept
  obtain ⟨drew, unused⟩ := kept.drawn u h.drew
  exact ⟨stable_holding h.toHolding kept, h.named, drew, unused h.unused,
    fun empty => (kept.owner id (h.starts empty)).1⟩

/-- Caller `i` draws an identity. -/
lemma Holding.draw (inv : Inv codec w) (h : Holding codec i id stream w)
    (starts : stream = [] → w.owner id = some i) (named : u ≠ 0) (new : w.drawn u = none) :
    Poised codec i id stream u (w.draw i u) := by
  refine ⟨⟨h.held, h.reads, h.clean⟩, named, World.draw_self .., ?_, starts⟩
  rintro entry mem env carries rfl
  exact inv.drawn entry mem env carries new

/-- The next entry of a caller that is poised is proper. -/
lemma Poised.proper (inv : Inv codec w) (h : Poised codec i env.aggregateId stream env.eventId w)
    (carries : Carries codec entry env) (next : env.sequence.get = stream.length + 1) :
    Proper codec w i entry env := by
  refine ⟨carries, h.held, by rw [h.reads, next], h.drew, h.unused, ?_, ?_⟩
  · rw [h.reads]
    exact h.starts
  · cases stream with
    | nil =>
      refine inv.owners _ ?_
      rw [h.starts rfl]
      rintro ⟨⟩
    | cons old rest =>
      have mem : old ∈ streamOf codec env.aggregateId w.issued := by
        rw [h.reads]
        exact List.mem_cons_self
      obtain ⟨other, mem, carries', same⟩ := mem_streamOf inv.sound.legible mem
      rw [← same]
      exact inv.bounded other mem old carries'

/-- Caller `i` has written `env` and still has the lock. -/
structure Wrote (codec : Codec E) (i : Nat) (id : AggregateId) (stream : List (EventEnvelope E))
    (ctx : CorrelationContext) (payload : E) (env : EventEnvelope E) (w : World) : Prop where
  held : w.locks id = .held i
  reads : streamOf codec id w.issued = stream ++ [env]
  added : Added codec i id stream.length ctx payload env w

lemma stable_wrote : Stable codec i (Wrote codec i id stream ctx payload env) := by
  intro v v' h kept
  obtain ⟨held, same⟩ := kept.locks id h.held
  exact ⟨held, same.trans h.reads, h.added.later kept.later⟩

/-- What a write has done once it has landed. -/
lemma Poised.landed (h : Poised codec i env.aggregateId stream env.eventId w) (inv : Inv codec w)
    (certain : w.session.uncertain = none) (carries : Carries codec entry env)
    (writer : entry.writer = i) (next : env.sequence.get = stream.length + 1)
    (correlationId : env.correlationId = ctx.correlationId)
    (causationId : env.causationId = ctx.causationId)
    (session : w'.session = { w.session with log := w.session.log ++ [entry] })
    (locks : w'.locks = w.locks) :
    Wrote codec i env.aggregateId stream ctx env.payload env w' := by
  have now : w.issued = w.session.log := by
    simp [World.issued, Session.issued, inv.settled certain]
  have issued : w'.issued = w.issued ++ [entry] := by
    simp [World.issued, Session.issued, session, inv.settled certain]
  have grown : streamOf codec env.aggregateId w'.issued = stream ++ [env] := by
    rw [issued, carries.streamOf_concat, h.reads]
  refine ⟨locks ▸ h.held, grown, ?_, rfl, next, correlationId, causationId, rfl⟩
  refine ⟨w.session.log, entry, [], ?_, ?_, ?_, carries.streamOf_concat _, ?_⟩
  · rw [session]
  · have clean := h.clean
    unfold ownEntries at clean ⊢
    rw [issued, List.filter_append, clean, List.filter_singleton]
    simp [writer]
  · rw [← now, h.reads]
  · intro id' ne
    exact carries.streamOf_other _ ne.symm

/-- Rust `record_single` under the lock. -/
lemma recordSingle_meets (sequence : NonZeroU64) (h : Poised codec i id stream u w)
    (next : sequence.get = stream.length + 1) :
    Meets codec i c
      (fun r v => match r with
        | .ok () => ∃ env, env.eventId = u ∧ Wrote codec i id stream ctx payload env v
        | .error f => Failed i v f)
      (recordSingle codec (u64 id.id) u (u64 sequence) ctx.correlationId ctx.causationId payload)
      w := by
  rintro w1 rely inv w2 now ⟨ex, -⟩
  cases ex
  have h := stable_poised.rely h rely inv
  refine ⟨inv, ?_⟩
  dsimp only
  split
  · rename_i e failed
    intro v rely' inv'
    have clean := stable_clean.rely h.clean rely' inv'
    refine failed_clean clean ?_
    rintro _ ⟨⟩ source rfl
    -- encoding fails with an infrastructure error
    unfold encodeRecord at failed
    split at failed
    · cases failed
    split at failed
    · cases failed
    generalize codec.encodeType _ = wire at failed
    cases wire <;> cases failed
  · rename_i bytes encoded
    apply wp_attempt
    rintro w3 rely3 inv3 w4 r ⟨⟨answers, rfl, rfl⟩, -⟩
    have h := stable_poised.rely h rely3 inv3
    let env : EventEnvelope E :=
      ⟨u, id, sequence, (i64OrMax now).val, ctx.correlationId, ctx.causationId, payload⟩
    have carries : Carries codec ⟨toString (u64 id.id).val, u, bytes, false, i⟩ env :=
      ⟨rfl, h.named, i64OrMax now, rfl, decodeRecord_encodeRecord encoded⟩
    have proper : Proper codec w3 i _ env := Poised.proper inv3 h carries next
    refine ⟨inv3.record proper answers, ?_⟩
    intro v rely' inv'
    have recorded := Session.recorded w3.session answers
      ⟨toString (u64 id.id).val, u, bytes, false, i⟩
    generalize w3.session.record answers ⟨toString (u64 id.id).val, u, bytes, false, i⟩ = out
      at recorded rely' ⊢
    obtain ⟨session, r⟩ := out
    dsimp only at recorded rely' ⊢
    cases recorded with
    | refused clear =>
      refine failed_clean ((rely'.kept inv'.orderly).own.trans h.clean) ?_
      rintro _ ⟨⟩
      exact clear
    | stranded => exact .uncertain rfl
    | unsynced => exact .uncertain rfl
    | landed certain =>
      refine ⟨env, rfl, stable_wrote.rely ?_ rely' inv'⟩
      exact Poised.landed h inv3 certain carries rfl next rfl rfl rfl rfl

/-! ## Scopes of an aggregate's lock -/

/-- Rust `with_aggregate` around its body. -/
lemma withAggregate_meets {Q : Except Failure α → World → Prop} {body : Prog sig Failure α}
    (stable : Stable codec i F) (take : ∀ {v}, F v → F (v.setLock id (.held i)))
    (inside : ∀ {v}, Inv codec v → F v → v.locks id = .held i → Meets codec i c Q body v)
    (later : ∀ {x v v'}, Q x v → Later i v v' → Q x v')
    (panics : ∀ {message v}, Q (.error (.panicked message)) v) (h : F w) :
    Meets codec i c Q (withAggregate id body) w := by
  rintro w1 rely inv w2 poisoned ⟨ex, -⟩
  have h := stable.rely h rely inv
  obtain ⟨-, rfl, rfl⟩ | ⟨-, rfl, rfl⟩ := ex
  · have inv2 := inv.setLock id (.held i)
    refine ⟨inv2, ?_⟩
    have locked := inside inv2 (take h) (World.setLock_self ..)
    show Meets codec i c Q (body.result >>= _) _
    refine wp_seq (R := fun r v => ∃ x, r = .ok x ∧ Q x v) inv2 (wp_result ?_) ?_ ?_
    · exact wp_conseq (fun x _ _ post => ⟨x, rfl, post⟩) locked
    · rintro x v inv3 ⟨_, ⟨⟩, post⟩
      rintro w3 rely3 inv3 w4 r ⟨⟨-, rfl⟩, -⟩
      refine ⟨inv3.setLock .., wp_ofExcept ?_⟩
      intro v' rely4 inv4
      have post := later post (rely3.kept inv3.orderly).later
      have unlocked : Later i w3 (w3.setLock id (if panicking x then .poisoned else .free)) :=
        ⟨List.prefix_refl _, List.Sublist.refl _⟩
      exact later (later post unlocked) (rely4.kept inv4.orderly).later
    · rintro f v _ ⟨_, ⟨⟩, _⟩
  · exact ⟨inv, fun v _ _ => panics⟩

/-! ## The calls -/

/-- The read after a write that has landed. -/
lemma reread_meets (h : Wrote codec i id stream ctx payload env w) :
    Meets codec i c
      (fun r v => match r with
        | .ok full => full = stream ++ [env] ∧ Wrote codec i id stream ctx payload env v
        | .error f => Failed i v f)
      ((orderedStream codec id).mapError Failure.afterLanded) w := by
  refine wp_mapError (wp_conseq ?_ (orderedStream_meets stable_wrote h))
  rintro r v _ ⟨wrote, read⟩
  cases r with
  | ok full =>
    obtain ⟨u, -, there, -, -, rfl⟩ := read
    exact ⟨there.reads, wrote⟩
  | error f =>
    obtain ⟨e, rfl, -⟩ := read
    exact .uncertain rfl

/-- Rust `create` under the lock. -/
lemma createLocked_meets (h : Holding codec i id [] w) (mine : w.owner id = some i) :
    Meets codec i c
      (fun r v => match r with
        | .ok (id', envs) => id' = id ∧ ∃ env, envs = [env] ∧ Added codec i id 0 ctx payload env v
        | .error f => Failed i v f)
      (createLocked codec id ctx payload) w := by
  rintro w1 rely inv w2 u ⟨⟨named, new, rfl⟩, -⟩
  have mine := ((rely.kept inv.orderly).owner id mine).1
  have inv2 := inv.draw i u
  have poised := (stable_holding.rely h rely inv).draw inv (fun _ => mine) named new
  refine ⟨inv2, wp_seq inv2 (recordSingle_meets .min poised rfl) ?_ ?_⟩
  · rintro ⟨⟩ v inv3 ⟨env, -, wrote⟩
    refine wp_seq inv3 (reread_meets wrote) ?_ fun f v _ failed => failed
    rintro full v' - ⟨rfl, wrote⟩ v'' rely' inv'
    exact ⟨rfl, env, rfl, wrote.added.later (rely'.kept inv'.orderly).later⟩
  · exact fun f v _ failed => failed

/-- Rust `create`. -/
lemma create_meets (inv : Inv codec w) (clean : ownEntries i w = []) :
    Meets codec i c
      (fun r v => match r with
        | .ok (id, envs) => ∃ payload env, events = [payload] ∧ envs = [env] ∧
            Added codec i id 0 ctx payload env v
        | .error f => Failed i v f)
      (create codec events ctx) w := by
  refine wp_seq inv (ready_meets stable_clean clean) ?_ ?_
  · rintro ⟨⟩ v inv ⟨clean, -⟩
    match events with
    | _ :: _ :: _ =>
      intro v' rely' inv'
      exact failed_clean (stable_clean.rely clean rely' inv') (by rintro _ ⟨⟩ _ ⟨⟩)
    | [] =>
      intro v' rely' inv'
      exact failed_clean (stable_clean.rely clean rely' inv') (by rintro _ ⟨⟩ _ ⟨⟩)
    | [payload] =>
      rintro w1 rely inv w2 old ⟨⟨rfl, rfl⟩, few⟩
      have clean := stable_clean.rely clean rely inv
      have inv2 := inv.allocate few
      have next := inv.nextId_allocate few
      have fits : w1.nextId.val + 1 < 2 ^ 64 := next ▸ (w1.allocate i).nextId.isLt
      refine ⟨inv2, ?_⟩
      let raw : NonZeroU64 := ⟨w1.nextId.val + 1, Nat.succ_pos _, fits⟩
      have rawId : addOne w1.nextId = .ok (u64 raw) := dif_pos fits
      simp only [rawId, Prog.ofExcept_ok_bind, nonZero_u64]
      -- the id is new, so nothing has been written under it
      have empty : streamOf codec ⟨raw⟩ w1.issued = [] := by
        rw [List.eq_nil_iff_forall_not_mem]
        intro env mem
        obtain ⟨entry, mem, carries, same⟩ := mem_streamOf inv.sound.legible mem
        have le := inv.bounded entry mem env carries
        rw [same] at le
        exact absurd le (Nat.not_succ_le_self _)
      refine withAggregate_meets (F := fun v => ownEntries i v = [] ∧ v.owner ⟨raw⟩ = some i ∧
        streamOf codec ⟨raw⟩ v.issued = []) ?_ id ?_ ?_ ?_ ⟨clean, ?_, empty⟩
      · rintro v v' ⟨clean, mine, empty⟩ kept
        obtain ⟨mine, still⟩ := kept.owner _ mine
        exact ⟨kept.own.trans clean, mine, still empty⟩
      · rintro v _ ⟨clean, mine, empty⟩ held
        refine wp_conseq ?_ (createLocked_meets ⟨held, empty, clean⟩ mine)
        intro r v' _ post
        cases r with
        | ok made =>
          obtain ⟨id, envs⟩ := made
          obtain ⟨rfl, env, e, added⟩ := post
          exact ⟨payload, env, rfl, e, added⟩
        | error f => exact post
      · intro x v v' post later
        cases x with
        | ok made =>
          obtain ⟨payload, env, e, e', added⟩ := post
          exact ⟨payload, env, e, e', added.later later⟩
        | error f => exact Failed.later post later
      · exact fun {_ _} => trivial
      · exact World.allocate_owner_self rfl
  · rintro f v _ ⟨-, uncertain⟩
    obtain ⟨e, rfl, category⟩ := uncertain f rfl
    exact .uncertain category

/-- Rust `append` under the lock. -/
lemma appendLocked_meets (inv : Inv codec w) (clean : ownEntries i w = [])
    (held : w.locks id = .held i) :
    Meets codec i c
      (fun r v => match r with
        | .ok envs => ∃ env, envs = [env] ∧ Added codec i id expected.get ctx payload env v
        | .error f => Failed i v f)
      (appendLocked codec id expected ctx payload) w := by
  have h : Holding codec i id (streamOf codec id w.issued) w := ⟨held, rfl, clean⟩
  generalize streamOf codec id w.issued = stream at h
  refine wp_seq inv (orderedStream_meets stable_holding h) ?_ ?_
  · rintro _ v inv ⟨h, u, invu, there, -, -, rfl⟩
    rw [there.reads]
    have wf : EventEnvelope.WellFormed id stream := there.reads ▸ invu.sound.wellFormed id
    split
    · intro v' rely' inv'
      exact failed_clean (stable_clean.rely h.clean rely' inv') (by rintro _ ⟨⟩ _ ⟨⟩)
    rename_i some'
    dsimp only
    split
    · intro v' rely' inv'
      exact failed_clean (stable_clean.rely h.clean rely' inv') (by rintro _ ⟨⟩ _ ⟨⟩)
    rename_i same
    have length : expected.get = stream.length := by
      cases last : stream.getLast? with
      | none => exact absurd (List.getLast?_eq_none_iff.mp last) some'
      | some env =>
        rw [last] at same
        exact (not_not.mp same).symm.trans (wf.getLast? last)
    rintro w1 rely inv w2 eventId ⟨⟨named, new, rfl⟩, -⟩
    have inv2 := inv.draw i eventId
    have poised := (stable_holding.rely h rely inv).draw inv (fun e => absurd e some') named new
    refine ⟨inv2, ?_⟩
    by_cases fits : expected.get + 1 < 2 ^ 64
    · let sequence : NonZeroU64 := ⟨expected.get + 1, Nat.succ_pos _, fits⟩
      have added : addOne (u64 expected) = .ok (u64 sequence) := dif_pos fits
      simp only [added, Prog.ofExcept_ok_bind]
      refine wp_seq inv2 (recordSingle_meets sequence poised
        (congrArg (· + 1) length)) ?_ fun f v _ failed => failed
      rintro ⟨⟩ v inv3 ⟨env, rfl, wrote⟩
      refine wp_seq inv3 (reread_meets wrote) ?_ fun f v _ failed => failed
      rintro full v' inv4 ⟨rfl, wrote⟩
      rw [find?_last (wrote.reads ▸ inv4.sound.wellFormed id)]
      intro v'' rely' inv'
      rw [length]
      exact ⟨env, rfl, wrote.added.later (rely'.kept inv'.orderly).later⟩
    · have overflow : addOne (u64 expected) = .error (.panicked "attempt to add with overflow") :=
        dif_neg fits
      simp only [overflow, Prog.ofExcept_error_bind]
      exact fun v' _ _ => trivial
  · rintro f v _ ⟨h, e, rfl, clear⟩
    exact ⟨clear, fun _ => h.clean⟩

/-- Rust `append`. -/
lemma append_meets (inv : Inv codec w) (clean : ownEntries i w = []) :
    Meets codec i c
      (fun r v => match r with
        | .ok envs => (events = [] ∧ envs = [] ∧ ownEntries i v = []) ∨
            ∃ payload env, events = [payload] ∧ envs = [env] ∧
              Added codec i id expected.get ctx payload env v
        | .error f => Failed i v f)
      (append codec id expected events ctx) w := by
  refine wp_seq inv (ready_meets stable_clean clean) ?_ ?_
  · rintro ⟨⟩ v inv ⟨clean, -⟩
    match events with
    | _ :: _ :: _ =>
      intro v' rely' inv'
      exact failed_clean (stable_clean.rely clean rely' inv') (by rintro _ ⟨⟩ _ ⟨⟩)
    | [] =>
      intro v' rely' inv'
      exact .inl ⟨rfl, rfl, stable_clean.rely clean rely' inv'⟩
    | [payload] =>
      refine withAggregate_meets stable_clean (fun h => h) ?_ ?_ ?_ clean
      · intro v inv clean held
        refine wp_conseq ?_ (appendLocked_meets inv clean held)
        intro r v' _ post
        cases r with
        | ok envs =>
          obtain ⟨env, e, added⟩ := post
          exact .inr ⟨payload, env, rfl, e, added⟩
        | error f => exact post
      · intro x v v' post later
        cases x with
        | ok envs =>
          obtain ⟨⟨⟩, -⟩ | ⟨payload, env, e, e', added⟩ := post
          exact .inr ⟨payload, env, e, e', added.later later⟩
        | error f => exact Failed.later post later
      · exact fun {_ _} => trivial
  · rintro f v _ ⟨-, uncertain⟩
    obtain ⟨e, rfl, category⟩ := uncertain f rfl
    exact .uncertain category

/-- Every call meets its postcondition. -/
theorem program_meets {c : Call E} (inv : Inv codec w) (clean : ownEntries i w = []) :
    Meets codec i c (Post codec i c) (program codec c) w := by
  cases c with
  | load id =>
    refine wp_seq inv (orderedStream_meets stable_clean clean) ?_ ?_
    · rintro _ v - ⟨-, u, inv, -, log, issued, rfl⟩ v' rely' inv'
      refine ⟨inv.sound.wellFormed id, u.issued, ?_, rfl⟩
      rw [issued]
      exact log.trans (rely'.kept inv'.orderly).log
    · rintro f v _ ⟨clean, e, rfl, clear⟩
      exact ⟨clear, fun _ => clean⟩
  | create events ctx =>
    refine wp_seq inv (create_meets inv clean) ?_ fun f v _ failed => failed
    rintro ⟨id, envs⟩ v - ⟨payload, env, e, e', added⟩ v' rely' inv'
    exact ⟨payload, env, e, e', added.later (rely'.kept inv'.orderly).later⟩
  | append id expected events ctx =>
    refine wp_seq inv (append_meets inv clean) ?_ fun f v _ failed => failed
    rintro envs v - post v' rely' inv'
    exact Post.later (c := .append id expected events ctx) (x := .ok (.appended envs)) post
      (rely'.kept inv'.orderly).later

end CherryPit.Pgno
