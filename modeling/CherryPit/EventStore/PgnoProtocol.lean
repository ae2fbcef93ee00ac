import CherryPit.EventStore.PgnoSystem

/-!
# The protocol of the durable event store

What holds of the store between any two operations (`Inv`), what a caller may rely on while others
run (`Kept`), and what it knows once its call has returned (`Post`). The counter is assumed not to
wrap around; `Within` are the operations that leave it there.
-/

namespace CherryPit.Pgno

open Conc Store
open Projection (U64 u64 nonZero nonZero_u64)

variable {E : Type} {codec : Codec E} {i : Nat} {w w' w'' : World} {id : AggregateId}
  {env : EventEnvelope E} {entry : Entry} {c : Call E} {j : Nat}

/-! ## The protocol -/

/-- The entries that caller `i` issued. -/
def ownEntries (i : Nat) (w : World) : List Entry := w.issued.filter (·.writer = i)

/-- What holds between any two operations. -/
structure Inv (codec : Codec E) (w : World) : Prop where
  orderly : w.orderly
  sound : Sound codec w.issued
  bounded : ∀ entry ∈ w.issued, ∀ env, Carries codec entry env →
    env.aggregateId.get ≤ w.nextId.val
  drawn : ∀ entry ∈ w.issued, ∀ env, Carries codec entry env → w.drawn env.eventId ≠ none
  owners : ∀ id, w.owner id ≠ none → id.get ≤ w.nextId.val
  settled : w.session.uncertain = none → w.session.pending = none
  counted : w.nextId.val ≤ w.allocs.length

/-- What caller `i` keeps while others run. -/
structure Kept (codec : Codec E) (i : Nat) (w w' : World) : Prop where
  log : w.session.log <+: w'.session.log
  own : ownEntries i w' = ownEntries i w
  locks : ∀ id, w.locks id = .held i →
    w'.locks id = .held i ∧ streamOf codec id w'.issued = streamOf codec id w.issued
  owner : ∀ id, w.owner id = some i →
    w'.owner id = some i ∧ (streamOf codec id w.issued = [] → streamOf codec id w'.issued = [])
  drawn : ∀ u, w.drawn u = some i →
    w'.drawn u = some i ∧ (Unused codec u w.issued → Unused codec u w'.issued)

lemma Kept.refl (w : World) : Kept codec i w w :=
  ⟨List.prefix_refl _, rfl, fun _ h => ⟨h, rfl⟩, fun _ h => ⟨h, id⟩, fun _ h => ⟨h, id⟩⟩

lemma Kept.trans (h : Kept codec i w w') (h' : Kept codec i w' w'') : Kept codec i w w'' := by
  refine ⟨h.log.trans h'.log, h'.own.trans h.own, ?_, ?_, ?_⟩
  · intro id held
    obtain ⟨held1, same1⟩ := h.locks id held
    obtain ⟨held2, same2⟩ := h'.locks id held1
    exact ⟨held2, same2.trans same1⟩
  · intro id owner
    obtain ⟨owner1, empty1⟩ := h.owner id owner
    obtain ⟨owner2, empty2⟩ := h'.owner id owner1
    exact ⟨owner2, empty2 ∘ empty1⟩
  · intro u drawn
    obtain ⟨drawn1, unused1⟩ := h.drawn u drawn
    obtain ⟨drawn2, unused2⟩ := h'.drawn u drawn1
    exact ⟨drawn2, unused2 ∘ unused1⟩

/-- What caller `i` relies on: as long as writes are proper, it keeps what it has. -/
structure Rely (codec : Codec E) (i : Nat) (w w' : World) : Prop where
  orderly : w'.orderly → w.orderly
  kept : w'.orderly → Kept codec i w w'

lemma Rely.refl (w : World) : Rely codec i w w := ⟨id, fun _ => .refl w⟩

lemma Rely.trans (h : Rely codec i w w') (h' : Rely codec i w' w'') : Rely codec i w w'' :=
  ⟨h.orderly ∘ h'.orderly, fun o => (h.kept (h'.orderly o)).trans (h'.kept o)⟩

/-- The operations that do not use up the ids. -/
def Within (codec : Codec E) : Semantics sig (Call E) World := fun i c w o w' r =>
  Performs codec i c w o w' r ∧ w'.allocs.length < 2 ^ 64 - 1

/-- Operations that leave the session alone. -/
lemma Kept.frame (session : w'.session = w.session)
    (locks : ∀ id, w.locks id = .held i → w'.locks id = .held i)
    (owner : ∀ id, w.owner id = some i → w'.owner id = some i)
    (drawn : ∀ u, w.drawn u = some i → w'.drawn u = some i) : Kept codec i w w' := by
  have issued : w'.issued = w.issued := congrArg Session.issued session
  refine ⟨session ▸ List.prefix_refl _, ?_, ?_, ?_, ?_⟩
  · rw [ownEntries, issued, ownEntries]
  · exact fun id held => ⟨locks id held, by rw [issued]⟩
  · exact fun id mine => ⟨owner id mine, by rw [issued]; exact fun h => h⟩
  · exact fun u mine => ⟨drawn u mine, by rw [issued]; exact fun h => h⟩

/-- The proper writes of another caller. -/
lemma Kept.write (ne : j ≠ i) (proper : Proper codec w j entry env) (writer : entry.writer = j)
    (issued : w'.issued = w.issued ++ [entry]) (log : w.session.log <+: w'.session.log)
    (locks : w'.locks = w.locks) (owner : w'.owner = w.owner) (drawn : w'.drawn = w.drawn) :
    Kept codec i w w' := by
  refine ⟨log, ?_, ?_, ?_, ?_⟩
  · rw [ownEntries, ownEntries, issued, List.filter_append, List.filter_singleton]
    simp [writer, ne]
  · intro id held
    rw [locks, issued]
    refine ⟨held, proper.carries.streamOf_other _ ?_⟩
    rintro rfl
    cases held.symm.trans proper.held
    exact ne rfl
  · intro id mine
    rw [owner, issued]
    refine ⟨mine, fun empty => ?_⟩
    rw [proper.carries.streamOf_other _ ?_, empty]
    rintro rfl
    cases mine.symm.trans (proper.starts empty)
    exact ne rfl
  · intro u mine
    rw [drawn, issued]
    refine ⟨mine, fun unused other mem env' carries' => ?_⟩
    rcases List.mem_append.mp mem with mem | mem
    · exact unused other mem env' carries'
    · rw [List.mem_singleton.mp mem] at carries'
      rintro rfl
      rw [← proper.carries.inj carries', proper.drew] at mine
      exact ne (Option.some.inj mine)

/-- The operations of the others respect what a caller relies on. -/
lemma Performs.rely {i : Nat} {o : Op} {r : o.Res} (inv : Inv codec w)
    (ex : Performs codec i c w o w' r) (ne : i ≠ j) : Rely codec j w w' := by
  cases o with
  | ready =>
    obtain ⟨rfl, -⟩ := ex
    exact .refl _
  | fetchAdd =>
    obtain ⟨rfl, -⟩ := ex
    refine ⟨id, fun _ => .frame rfl (fun _ h => h) ?_ (fun _ h => h)⟩
    intro id mine
    -- the id is new, so it is not one of `j`
    have le := inv.owners id (by rw [mine]; rintro ⟨⟩)
    have other : id.get ≠ w.nextId.val + 1 := by omega
    exact (World.allocate_owner_of_ne other).trans mine
  | lockAggregate id =>
    obtain ⟨free, rfl, -⟩ | ⟨-, rfl, -⟩ := ex
    · refine ⟨fun h => h, fun _ => .frame rfl ?_ (fun _ h => h) (fun _ h => h)⟩
      intro id' held
      have other : id' ≠ id := by
        rintro rfl
        cases free.symm.trans held
      exact (World.setLock_of_ne other).trans held
    · exact .refl _
  | unlockAggregate id panicking =>
    obtain ⟨mine, rfl⟩ := ex
    refine ⟨fun h => h, fun _ => .frame rfl ?_ (fun _ h => h) (fun _ h => h)⟩
    intro id' held
    have other : id' ≠ id := by
      rintro rfl
      cases mine.symm.trans held
      exact ne rfl
    exact (World.setLock_of_ne other).trans held
  | uuid =>
    obtain ⟨-, new, rfl⟩ := ex
    refine ⟨id, fun _ => .frame rfl (fun _ h => h) (fun _ h => h) ?_⟩
    intro u mine
    have other : u ≠ r := by
      rintro rfl
      cases new.symm.trans mine
    exact (World.draw_of_ne other).trans mine
  | now =>
    cases ex
    exact .refl _
  | readAll =>
    obtain ⟨entries, -, rfl, -⟩ := ex
    exact .refl _
  | record key eventId payload =>
    obtain ⟨answers, -, rfl⟩ := ex
    refine ⟨And.left, ?_⟩
    rintro ⟨-, env, proper⟩
    rcases (Session.recorded w.session answers _).issued inv.settled with same | ⟨-, issued, log, -⟩
    · exact .frame same (fun _ h => h) (fun _ h => h) (fun _ h => h)
    · exact .write ne proper rfl issued log rfl rfl rfl

/-- The protocol of the calls. -/
def protocol (codec : Codec E) : Protocol (Within codec) (fun _ _ => False) where
  inv := Inv codec
  rely := Rely codec
  fresh i w := w.orderly → ownEntries i w = []
  refl _ w := .refl w
  trans := .trans
  fresh_rely h r o := (r.kept o).own.trans (h (r.orderly o))
  env_inv := by rintro _ _ _ ⟨⟩
  env_rely := by rintro _ _ _ _ ⟨⟩
  exec_rely inv ex ne := ex.1.rely inv ne

/-! ## What one operation keeps -/

/-- Operations that leave the session and the counter alone. -/
lemma Inv.frame (inv : Inv codec w) (session : w'.session = w.session)
    (nextId : w'.nextId = w.nextId) (owner : w'.owner = w.owner) (allocs : w'.allocs = w.allocs)
    (orderly : w'.orderly = w.orderly) (drawn : ∀ u, w.drawn u ≠ none → w'.drawn u ≠ none) :
    Inv codec w' := by
  have issued : w'.issued = w.issued := congrArg Session.issued session
  refine ⟨orderly ▸ inv.orderly, ?_, ?_, ?_, ?_, ?_, ?_⟩
  · rw [issued]
    exact inv.sound
  · rw [issued, nextId]
    exact inv.bounded
  · rw [issued]
    exact fun entry mem env carries => drawn _ (inv.drawn entry mem env carries)
  · rw [owner, nextId]
    exact inv.owners
  · rw [session]
    exact inv.settled
  · rw [nextId, allocs]
    exact inv.counted

lemma Inv.setLock (inv : Inv codec w) (id : AggregateId) (lock : Lock) :
    Inv codec (w.setLock id lock) :=
  inv.frame rfl rfl rfl rfl rfl fun _ h => h

lemma Inv.draw (inv : Inv codec w) (i : Nat) (u : Uuid) : Inv codec (w.draw i u) := by
  refine inv.frame rfl rfl rfl rfl rfl ?_
  intro v drawn
  rcases eq_or_ne v u with rfl | ne
  · rw [World.draw_self]
    rintro ⟨⟩
  · rwa [World.draw_of_ne ne]

/-- The counter does not wrap around. -/
lemma Inv.nextId_allocate (inv : Inv codec w) (few : (w.allocate i).allocs.length < 2 ^ 64 - 1) :
    (w.allocate i).nextId.val = w.nextId.val + 1 := by
  have counted := inv.counted
  simp only [World.allocate, List.length_append, List.length_singleton] at few
  show (w.nextId + 1).val = _
  rw [Fin.val_add, show ((1 : U64).val) = 1 from rfl]
  omega

lemma Inv.allocate (inv : Inv codec w) (few : (w.allocate i).allocs.length < 2 ^ 64 - 1) :
    Inv codec (w.allocate i) := by
  have next := inv.nextId_allocate few
  refine ⟨inv.orderly, inv.sound, ?_, inv.drawn, ?_, inv.settled, ?_⟩
  · intro entry mem env carries
    have := inv.bounded entry mem env carries
    omega
  · intro id owned
    rw [next]
    by_cases new : id.get = w.nextId.val + 1
    · omega
    · rw [World.allocate_owner_of_ne new] at owned
      have := inv.owners id owned
      omega
  · have := inv.counted
    simp only [World.allocate, List.length_append, List.length_singleton] at next ⊢
    omega

/-- A proper write. -/
lemma Inv.record (inv : Inv codec w) (proper : Proper codec w i entry env) (answers : Answers) :
    Inv codec { w with
      session := (w.session.record answers entry).1
      orderly := w.orderly ∧ ∃ env, Proper codec w i entry env } := by
  rcases (Session.recorded w.session answers entry).issued inv.settled with
    same | ⟨-, issued, log, settled⟩
  · rw [same]
    exact ⟨⟨inv.orderly, env, proper⟩, inv.sound, inv.bounded, inv.drawn, inv.owners, inv.settled,
      inv.counted⟩
  · have entries : ∀ other ∈ w.issued ++ [entry], ∀ env', Carries codec other env' →
        env'.aggregateId.get ≤ w.nextId.val ∧ w.drawn env'.eventId ≠ none := by
      intro other mem env' carries
      rcases List.mem_append.mp mem with mem | mem
      · exact ⟨inv.bounded other mem env' carries, inv.drawn other mem env' carries⟩
      · rw [List.mem_singleton.mp mem] at carries
        rw [← proper.carries.inj carries]
        exact ⟨proper.allocated, by rw [proper.drew]; rintro ⟨⟩⟩
    refine ⟨⟨inv.orderly, env, proper⟩, ?_, ?_, ?_, inv.owners, settled, inv.counted⟩
    · rw [World.issued, issued]
      refine inv.sound.concat proper.carries proper.next ?_
      intro old mem
      obtain ⟨other, mem, carries, -⟩ := mem_streamOf inv.sound.legible mem
      exact (proper.unused other mem old carries).symm
    · rw [World.issued, issued]
      exact fun other mem env' carries => (entries other mem env' carries).1
    · rw [World.issued, issued]
      exact fun other mem env' carries => (entries other mem env' carries).2

/-! ## What a caller knows -/

/-- The end of a session and the calls of others: the log grows, and what caller `i` issued is
there or was never. -/
structure Later (i : Nat) (w w' : World) : Prop where
  log : w.session.log <+: w'.session.log
  own : (ownEntries i w').Sublist (ownEntries i w)

lemma Kept.later (h : Kept codec i w w') : Later i w w' :=
  ⟨h.log, h.own ▸ List.Sublist.refl _⟩

/-- Call `i` put the envelope `env` for `payload` at position `n` of the stream of `id`, where it
ended, and did nothing else. -/
structure Added (codec : Codec E) (i : Nat) (id : AggregateId) (n : Nat)
    (ctx : CorrelationContext) (payload : E) (env : EventEnvelope E) (w : World) : Prop where
  landed : ∃ before entry after, w.session.log = before ++ entry :: after ∧
    ownEntries i w = [entry] ∧ (streamOf codec id before).length = n ∧
    streamOf codec id (before ++ [entry]) = streamOf codec id before ++ [env] ∧
    ∀ id' ≠ id, streamOf codec id' (before ++ [entry]) = streamOf codec id' before
  aggregateId : env.aggregateId = id
  sequence : env.sequence.get = n + 1
  correlationId : env.correlationId = ctx.correlationId
  causationId : env.causationId = ctx.causationId
  payload : env.payload = payload

lemma Added.later {n : Nat} {ctx : CorrelationContext} {payload : E}
    (h : Added codec i id n ctx payload env w) (later : Later i w w') :
    Added codec i id n ctx payload env w' := by
  obtain ⟨before, entry, after, log, own, at', here, others⟩ := h.landed
  refine ⟨?_, h.aggregateId, h.sequence, h.correlationId, h.causationId, h.payload⟩
  obtain ⟨rest, more⟩ := later.log
  rw [log, List.append_assoc, List.cons_append] at more
  refine ⟨before, entry, after ++ rest, more.symm, ?_, at', here, others⟩
  -- the entry is still there, so it is all that is left of what was there
  have mine : entry ∈ ownEntries i w := by
    rw [own]
    exact List.mem_singleton_self _
  have still : entry ∈ ownEntries i w' := by
    refine List.mem_filter.mpr ⟨?_, (List.mem_filter.mp mine).2⟩
    refine List.mem_append_left _ ?_
    rw [← more]
    simp
  have sub := later.own
  rw [own] at sub
  exact sub.antisymm (List.singleton_sublist.mpr still)

/-- What a failed call knows. -/
def Failed (i : Nat) (w : World) : Failure → Prop
  | .panicked _ => True
  | .store e => (∀ source, e ≠ .corruptData source) ∧
    (e.category ≠ .reconciliationRequired → ownEntries i w = [])

lemma Failed.uncertain {e : StoreError} (h : e.category = .reconciliationRequired) :
    Failed i w (.store e) :=
  ⟨not_corrupt_of_reconciliation h, fun other => absurd h other⟩

lemma Failed.later {f : Failure} (h : Failed i w f) (later : Later i w w') : Failed i w' f := by
  cases f with
  | panicked message => trivial
  | store e =>
    refine ⟨h.1, fun other => ?_⟩
    have sub := later.own
    rw [h.2 other] at sub
    exact List.sublist_nil.mp sub

/-- What caller `i` knows once its call has returned. -/
def Post (codec : Codec E) (i : Nat) : Call E → Except Failure (Reply E) → World → Prop
  | _, .error f, w => Failed i w f
  | .load id, .ok (.loaded stream), w =>
    EventEnvelope.WellFormed id stream ∧
      ∃ log, log <+: w.session.log ∧ stream = streamOf codec id log
  | .create events ctx, .ok (.created id envs), w =>
    ∃ payload env, events = [payload] ∧ envs = [env] ∧ Added codec i id 0 ctx payload env w
  | .append id expected events ctx, .ok (.appended envs), w =>
    (events = [] ∧ envs = [] ∧ ownEntries i w = []) ∨
      ∃ payload env, events = [payload] ∧ envs = [env] ∧
        Added codec i id expected.get ctx payload env w
  | _, .ok _, _ => False

/-- What is known of a call that has returned stays known. -/
lemma Post.later {x : Except Failure (Reply E)} (h : Post codec i c x w) (later : Later i w w') :
    Post codec i c x w' := by
  cases x with
  | error f =>
    have failed : Failed i w f := by cases c <;> exact h
    have := failed.later later
    cases c <;> exact this
  | ok reply =>
    cases c with
    | load id =>
      cases reply with
      | loaded stream =>
        obtain ⟨wf, log, pre, e⟩ := h
        exact ⟨wf, log, pre.trans later.log, e⟩
      | created _ _ => exact h.elim
      | appended _ => exact h.elim
    | create events ctx =>
      cases reply with
      | loaded _ => exact h.elim
      | created id envs =>
        obtain ⟨payload, env, e, e', added⟩ := h
        exact ⟨payload, env, e, e', added.later later⟩
      | appended _ => exact h.elim
    | append id expected events ctx =>
      cases reply with
      | loaded _ => exact h.elim
      | created _ _ => exact h.elim
      | appended envs =>
        obtain ⟨e, e', own⟩ | ⟨payload, env, e, e', added⟩ := h
        · have sub := later.own
          rw [own] at sub
          exact .inl ⟨e, e', List.sublist_nil.mp sub⟩
        · exact .inr ⟨payload, env, e, e', added.later later⟩

end CherryPit.Pgno
