import CherryPit.Merger.Merger

/-!
# What a command does

One specification for each program of the merger. A write either leaves everything as it was
(`Same`), is persisted and entered into the index and the tracker (`Wrote`), or is persisted while
the store answers that it does not know (`Landed`); `Grown` is what can be told of the world at any
point in between. `handleOne_meets` puts them together for a whole command.
-/

namespace CherryPit.Merger

open Conc Function

variable {A E Cmd Err : Type}

/-! ## What a write can do -/

/-- Nothing has changed. A call of the store that failed may have used up an id. -/
structure Same (w v : World A E Cmd) : Prop where
  streams : v.store.streams = w.store.streams
  index : v.index = w.index
  nextSeq : v.nextSeq = w.nextSeq
  bus : v.bus = w.bus
  persisted : v.persisted = w.persisted
  seen : v.seen = w.seen
  lost : v.lost = w.lost

lemma Same.refl (w : World A E Cmd) : Same w w :=
  ⟨rfl, rfl, rfl, rfl, rfl, rfl, rfl⟩

/-- The stream that a command writes to: a new one, or the one of its key. -/
def Target (mode : PersistMode) (w : World A E Cmd) (id : AggregateId) : Prop :=
  match mode with
  | .create => w.store.streams id = []
  | .createOrAppend key => w.index key = some id ∨ w.index key = none ∧ w.store.streams id = []
  | .appendStrict key => w.index key = some id

/-- The command starts a stream. -/
def Starts (mode : PersistMode) (w : World A E Cmd) : Prop :=
  match mode with
  | .create => True
  | .createOrAppend key => w.index key = none
  | .appendStrict _ => False

section Targets

variable {mode : PersistMode} {w : World A E Cmd} {id id' : AggregateId} {key : String}

lemma target_indexed (hk : mode.key = some key) (h : w.index key = some id) : Target mode w id := by
  cases mode with
  | create => cases hk
  | createOrAppend => cases hk; exact .inl h
  | appendStrict => cases hk; exact h

lemma Starts.target (start : Starts mode w) (h : w.store.streams id = []) : Target mode w id := by
  cases mode with
  | create => exact h
  | createOrAppend => exact .inr ⟨start, h⟩
  | appendStrict => cases start

lemma Starts.free (start : Starts mode w) (hk : mode.key = some key) : w.index key = none := by
  cases mode with
  | create => cases hk
  | createOrAppend => cases hk; exact start
  | appendStrict => cases start

/-- A target is the stream of the command's key or that of nobody. -/
lemma Target.cases (t : Target mode w id) :
    (∃ key, mode.key = some key ∧ w.index key = some id) ∨
    (Starts mode w ∧ w.store.streams id = []) := by
  cases mode with
  | create => exact .inr ⟨trivial, t⟩
  | createOrAppend key =>
    rcases t with known | ⟨start, none⟩
    · exact .inl ⟨key, rfl, known⟩
    · exact .inr ⟨start, none⟩
  | appendStrict key => exact .inl ⟨key, rfl, t⟩

lemma Target.eq_of_indexed (t : Target mode w id) (hk : mode.key = some key)
    (h : w.index key = some id') : id = id' := by
  rcases t.cases with ⟨key', hk', known⟩ | ⟨start, -⟩
  · cases hk'.symm.trans hk
    exact Option.some.inj (known.symm.trans h)
  · cases (start.free hk).symm.trans h

end Targets

/-- The events of a key. -/
def World.history (w : World A E Cmd) (key : Option String) : List (EventEnvelope E) :=
  match key.bind w.index with
  | some id => w.store.streams id
  | none => []

/-- Envelopes are in the stream they were meant for. -/
structure Stored (mode : PersistMode) (id : AggregateId) (envs : List (EventEnvelope E))
    (w v : World A E Cmd) : Prop where
  target : Target mode w id
  owned : ∀ {env}, env ∈ envs → env.aggregateId = id
  streams : v.store.streams = update w.store.streams id (w.store.streams id ++ envs)
  persisted : v.persisted = w.persisted ++ envs.map (mode.key, ·)
  bus : v.bus = w.bus
  seen : v.seen = w.seen

/-- They are also in the index and the tracker. -/
structure Wrote (mode : PersistMode) (id : AggregateId) (envs : List (EventEnvelope E))
    (w v : World A E Cmd) : Prop extends Stored mode id envs w v where
  index : v.index = fun k => if mode.key = some k then some id else w.index k
  nextSeq : ∃ last, envs.getLast? = some last ∧
    v.nextSeq = update w.nextSeq id (some last.sequence)
  lost : v.lost = w.lost

/-- They are in neither, and the task has not been told that they were stored. -/
structure Landed (mode : PersistMode) (id : AggregateId) (envs : List (EventEnvelope E))
    (w v : World A E Cmd) : Prop extends Stored mode id envs w v where
  index : v.index = w.index
  nextSeq : v.nextSeq = w.nextSeq
  started : ∀ {key}, mode.key = some key → w.index key = none → key ∈ v.lost
  lost : ∀ {key}, key ∈ w.lost → key ∈ v.lost

/-- What was persisted since went to one stream, the one it was meant for. -/
def Grown (mode : PersistMode) (w v : World A E Cmd) : Prop :=
  ∃ envs : List (EventEnvelope E), v.persisted = w.persisted ++ envs.map (mode.key, ·) ∧
    (∀ env ∈ envs, Target mode w env.aggregateId) ∧
    ∀ env ∈ envs, ∀ env' ∈ envs, env.aggregateId = env'.aggregateId

section Grows

variable {mode : PersistMode} {w v v' : World A E Cmd}

lemma grown_of_eq (e : v.persisted = w.persisted) : Grown mode w v := by
  refine ⟨[], ?_, by simp, by simp⟩
  rw [e, List.map_nil, List.append_nil]

lemma Grown.of_eq (g : Grown mode w v) (e : v'.persisted = v.persisted) : Grown mode w v' := by
  obtain ⟨envs, e', rest⟩ := g
  exact ⟨envs, e.trans e', rest⟩

lemma Stored.grown {id envs} (h : Stored mode id envs w v) : Grown mode w v := by
  refine ⟨envs, h.persisted, ?_, ?_⟩
  · intro env mem
    rw [h.owned mem]
    exact h.target
  · intro env mem env' mem'
    rw [h.owned mem, h.owned mem']

end Grows

/-- The outcome of a write. -/
def Persisted (sure : Prop) (mode : PersistMode) (w : World A E Cmd) {ε : Type} :
    Except ε (List (EventEnvelope E)) → World A E Cmd → Prop
  | .ok envs, v => envs = [] ∧ Same w v ∨ ∃ id, Wrote mode id envs w v
  | .error _, v => Same w v ∨ ¬ sure ∧ ∃ id envs, Landed mode id envs w v

/-! ## Programs -/

variable {sure : Prop} {arm : Arm A E Cmd Err} {c : Command Cmd} {mode : PersistMode}
  {I : World A E Cmd → Prop} {ε ε' : Type} {f : ε → ε'}

/-- The envelopes are stored and the maps are as they were. -/
structure Pending (mode : PersistMode) (id : AggregateId) (envs : List (EventEnvelope E))
    (w v : World A E Cmd) : Prop extends Stored mode id envs w v where
  nonempty : envs ≠ []
  index : v.index = w.index
  nextSeq : v.nextSeq = w.nextSeq

/-- What `create` can do. -/
lemma Acts.create {i w v events ctx r} (hm : arm.persistMode c.cmd = mode) (start : Starts mode w)
    (h : Acts arm i c w (.create events ctx) v r) :
    (Same w v ∧ ∃ e, r = .error e) ∨
    ∃ id envs, Pending mode id envs w v ∧ v.lost = w.lost ++ lostKeys mode envs r ∧
      (r = .ok (id, envs) ∨ ∃ text, r = .error (.indeterminate text)) := by
  obtain ⟨store, envs, made, rfl⟩ := h
  rw [hm]
  rcases eq_or_ne envs [] with rfl | ne
  · obtain ⟨same, e, rfl⟩ := made.of_nil
    have lost : lostKeys mode ([] : List (EventEnvelope E))
        (.error e : Except StoreError (AggregateId × List (EventEnvelope E))) = [] := by
      cases mode <;> rfl
    refine .inl ⟨⟨same, rfl, rfl, rfl, List.append_nil _, rfl, ?_⟩, e, rfl⟩
    show w.lost ++ _ = w.lost
    rw [lost, List.append_nil]
  · rcases made.inv with ⟨_, no, _⟩ | ⟨id, next, st, streams, re⟩
    · exact absurd no ne
    · have target := start.target (w.store.unallocated next.ge)
      exact .inr ⟨id, envs, ⟨⟨target, st.owned, streams, rfl, rfl, rfl⟩, ne, rfl, rfl⟩, rfl, re⟩

/-- What `append` to an indexed stream can do. -/
lemma Acts.append {i w v id expected events ctx r key} (hm : arm.persistMode c.cmd = mode)
    (hk : mode.key = some key) (known : w.index key = some id)
    (h : Acts arm i c w (.append id expected events ctx) v r) :
    (Same w v ∧ (r = .ok [] ∨ ∃ e, r = .error e)) ∨
    ∃ envs, Pending mode id envs w v ∧ v.lost = w.lost ∧
      (r = .ok envs ∨ ∃ text, r = .error (.indeterminate text)) := by
  obtain ⟨store, envs, made, rfl⟩ := h
  rw [hm]
  rcases eq_or_ne envs [] with rfl | ne
  · obtain ⟨rfl, re⟩ := made.of_nil
    exact .inl ⟨⟨rfl, rfl, rfl, rfl, List.append_nil _, rfl, rfl⟩, re⟩
  · rcases made.inv with ⟨_, no, _⟩ | ⟨last, _, _, st, streams, re⟩
    · exact absurd no ne
    · have target := target_indexed hk known
      exact .inr ⟨envs, ⟨⟨target, st.owned, streams, rfl, rfl, rfl⟩, ne, rfl, rfl⟩, rfl, re⟩

/-- The maps catch up with what is stored. -/
lemma Pending.wrote {id envs last} {w v : World A E Cmd} (p : Pending mode id envs w v)
    (index : String → Option AggregateId) (lost : v.lost = w.lost) (l : envs.getLast? = some last)
    (hi : index = fun k => if mode.key = some k then some id else w.index k) :
    Wrote mode id envs w
      { v with index := index, nextSeq := update v.nextSeq id (some last.sequence) } where
  target := p.target
  owned := p.owned
  streams := p.streams
  persisted := p.persisted
  bus := p.bus
  seen := p.seen
  index := hi
  nextSeq := ⟨last, l, by rw [p.nextSeq]⟩
  lost := lost

lemma Persisted.mapError {w v : World A E Cmd} {x : Except ε (List (EventEnvelope E))}
    (h : Persisted sure mode w x v) :
    Persisted sure mode w (x.mapError f) v := by
  cases x <;> exact h

lemma exists_getLast? {envs : List (EventEnvelope E)} (h : envs ≠ []) :
    ∃ last, envs.getLast? = some last :=
  ⟨_, List.getLast?_eq_some_getLast h⟩

/-- The tracker holds the last sequence of what was written. -/
lemma wp_trackLast {i id envs last v}
    {Q : Except ε (List (EventEnvelope E)) → World A E Cmd → Prop} (l : envs.getLast? = some last)
    (inv : I { v with nextSeq := update v.nextSeq id (some last.sequence) })
    (q : Q (.ok envs) { v with nextSeq := update v.nextSeq id (some last.sequence) }) :
    wp (Performs sure arm) (.solo I) i c Q (trackLast id envs) v := by
  simp only [trackLast, l]
  rintro v' rfl _ v'' r ⟨rfl, _⟩
  refine ⟨inv, ?_⟩
  rintro _ rfl _
  exact q

/-- `create_fresh` under the key of its command. -/
lemma createFresh_meets {w : World A E Cmd} {events ctx} (hm : arm.persistMode c.cmd = mode)
    (start : Starts mode w) :
    wp (Performs sure arm) (.solo (Grown mode w)) 0 c (Persisted sure mode w)
      (createFresh mode.key events ctx) w := by
  refine wp_seq (R := fun x v => match x with
    | .ok made => Pending mode made.1 made.2 w v ∧ v.lost = w.lost
    | .error e => Persisted sure mode w (.error e : Except StoreError _) v)
    (grown_of_eq rfl) ?_ ?_ fun _ _ _ h => h
  · apply wp_attempt
    rintro w' rfl _ v r ⟨act, known⟩
    rcases act.create hm start with ⟨same, e, rfl⟩ | ⟨id, envs, p, lost, rfl | ⟨text, rfl⟩⟩
    · refine ⟨grown_of_eq same.persisted, ?_⟩
      rintro _ rfl _
      exact .inl same
    · refine ⟨p.grown, ?_⟩
      rintro _ rfl _
      refine ⟨p, lost.trans ?_⟩
      -- an answer that arrived is not lost
      cases mode <;> cases envs <;> exact List.append_nil _
    · refine ⟨p.grown, ?_⟩
      rintro _ rfl _
      refine .inr ⟨fun s => known s text rfl, id, envs, p.toStored, p.index, p.nextSeq, ?_, ?_⟩
      · intro key hk _
        rw [lost]
        apply List.mem_append_right
        cases envs with
        | nil => exact absurd rfl p.nonempty
        | cons env envs =>
          cases mode with
          | create => cases hk
          | createOrAppend => cases hk; exact List.mem_singleton_self key
          | appendStrict => cases start
      · intro key mem
        rw [lost]
        exact List.mem_append_left _ mem
  · intro made v _ h
    obtain ⟨p, lost⟩ := h
    obtain ⟨last, l⟩ := exists_getLast? p.nonempty
    rcases hk : mode.key with _ | key
    · have done := p.wrote v.index lost l (by simp only [hk, reduceCtorEq, if_false, p.index])
      exact wp_trackLast l done.grown (.inr ⟨_, done⟩)
    · rintro _ rfl _ v' r ⟨rfl, _⟩
      have done := p.wrote (update v.index key (some made.1)) lost l ?_
      · rw [p.index, start.free hk, Option.getD_none, ← p.index]
        exact ⟨p.grown.of_eq rfl, wp_trackLast l done.grown (.inr ⟨_, done⟩)⟩
      · funext k
        rw [p.index, hk]
        rcases eq_or_ne k key with rfl | ne
        · rw [update_self, if_pos rfl]
        · rw [update_of_ne ne, if_neg fun e => ne (Option.some.inj e).symm]

/-- `append_and_track` to the stream of the command's key. -/
lemma appendAndTrack_meets {w : World A E Cmd} {key id expected events ctx}
    (hm : arm.persistMode c.cmd = mode) (hk : mode.key = some key) (known : w.index key = some id) :
    wp (Performs sure arm) (.solo (Grown mode w)) 0 c (Persisted sure mode w)
      (appendAndTrack id expected events ctx) w := by
  refine wp_seq (R := fun x v => match x with
    | .ok envs => envs = [] ∧ Same w v ∨ Pending mode id envs w v ∧ v.lost = w.lost
    | .error e => Persisted sure mode w (.error e : Except StoreError _) v)
    (grown_of_eq rfl) ?_ ?_ fun _ _ _ h => h
  · apply wp_attempt
    rintro w' rfl _ v r ⟨act, sureKnown⟩
    rcases act.append hm hk known with ⟨same, re⟩ | ⟨envs, p, lost, rfl | ⟨text, rfl⟩⟩
    · refine ⟨grown_of_eq same.persisted, ?_⟩
      rintro _ rfl _
      rcases re with rfl | ⟨e, rfl⟩
      · exact .inl ⟨rfl, same⟩
      · exact .inl same
    · refine ⟨p.grown, ?_⟩
      rintro _ rfl _
      exact .inr ⟨p, lost⟩
    · refine ⟨p.grown, ?_⟩
      rintro _ rfl _
      refine .inr ⟨fun s => sureKnown s text rfl, id, envs, p.toStored, p.index, p.nextSeq,
        ?_, fun mem => lost ▸ mem⟩
      intro key' hk' none
      cases hk.symm.trans hk'
      cases known.symm.trans none
  · rintro envs v g (⟨rfl, same⟩ | ⟨p, lost⟩)
    · rintro _ rfl _
      exact .inl ⟨rfl, same⟩
    · obtain ⟨last, l⟩ := exists_getLast? p.nonempty
      have done := p.wrote v.index lost l ?_
      · exact wp_trackLast l done.grown (.inr ⟨_, done⟩)
      · funext k
        rw [p.index]
        split_ifs with e
        · cases hk.symm.trans e
          exact known
        · rfl

/-- What `load_envelopes_or_empty` returns for a key. -/
def Loaded (w : World A E Cmd) (key : String) {ε : Type} :
    Except ε (List (EventEnvelope E) × Option NonZeroU64) → World A E Cmd → Prop
  | .ok loaded, v => v = w ∧ loaded.1 = w.history (some key) ∧
      (w.index key = none ∨ ∃ id seq, w.index key = some id ∧ loaded.2 = some seq)
  | .error _, v => v = w

lemma Loaded.mapError {w v : World A E Cmd} {key : String}
    {x : Except ε (List (EventEnvelope E) × Option NonZeroU64)} (h : Loaded w key x v) :
    Loaded w key (x.mapError f) v := by
  cases x <;> exact h

lemma history_of_index {w : World A E Cmd} {key : String} {id} (h : w.index key = some id) :
    w.history (some key) = w.store.streams id := by
  simp only [World.history, Option.bind_some, h]

/-- A load that succeeds returns the stream. -/
lemma load_meets {w id}
    {f : Except StoreError (List (EventEnvelope E)) → Except ε (List (EventEnvelope E))}
    (lift : ∀ {r envs}, f r = .ok envs → r = .ok envs) (hw : I w) :
    wp (Performs sure arm) (.solo I) 0 c
      (fun x v => v = w ∧ ∀ envs, x = .ok envs → envs = w.store.streams id)
      (.attempt (.load id) f) w := by
  apply wp_attempt
  rintro _ rfl _ v r ⟨⟨rfl, load⟩, _⟩
  refine ⟨hw, ?_⟩
  rintro _ rfl _
  refine ⟨rfl, ?_⟩
  intro envs e
  cases lift e
  cases load
  rfl

/-- Rust `load_envelopes_or_empty`. -/
lemma loadEnvelopesOrEmpty_meets {w key} (hw : I w) :
    wp (Performs sure arm) (.solo I) 0 c (Loaded w key) (loadEnvelopesOrEmpty (w.index key)) w := by
  rcases known : w.index key with _ | id
  · rintro _ rfl _
    refine ⟨rfl, ?_, .inl known⟩
    simp only [World.history, Option.bind_some, known]
  · refine wp_seq hw (load_meets (fun e => e) hw) ?_ ?_
    · rintro envs v _ ⟨rfl, e⟩
      cases e envs rfl
      split
      · rintro _ rfl _
        rfl
      · rintro _ rfl _
        exact ⟨rfl, (history_of_index known).symm, .inr ⟨id, _, known, rfl⟩⟩
    · rintro e v _ ⟨rfl, _⟩
      rfl

/-! ## Commands -/

/-- The world after `handle` was called with the state of a key. -/
def World.saw (agg : Aggregate A E) (cmd : Cmd) (key : Option String) (w : World A E Cmd) :
    World A E Cmd :=
  { w with seen := w.seen ++ [(cmd, agg.fold (w.history key), w.persisted)] }

/-- The outcome of a command. `handle` may have been called or not; then there was a write, and
what it persisted has been handed to the bus. -/
def Handled (sure : Prop) (agg : Aggregate A E) (cmd : Cmd) (mode : PersistMode)
    (w : World A E Cmd) (x : Except Err Unit) (v : World A E Cmd) : Prop :=
  ∃ w', (w' = w ∨ w' = w.saw agg cmd mode.key) ∧
    match x with
    | .ok _ => ∃ envs u, Persisted sure mode w' (.ok envs : Except Err _) u ∧
        v = { u with bus := u.bus ++ envs }
    | .error e => Persisted sure mode w' (.error e : Except Err _) v

variable {agg : Aggregate A E}

/-- A command that fails before its write. -/
lemma Handled.refused {w : World A E Cmd} {cmd} {e : Err} :
    Handled sure agg cmd mode w (.error e) w :=
  ⟨w, .inl rfl, .inl (.refl w)⟩

/-- From `handle` on, the commands are alike: a write that does what it should, then the bus. -/
lemma handle_meets {w : World A E Cmd} {state label}
    {write : List E → Prog (sig A E Err) StoreError _} (hs : state = agg.fold (w.history mode.key))
    (meets : ∀ events, wp (Performs sure arm) (.solo (Grown mode w)) 0 c
      (Persisted sure mode (w.saw agg c.cmd mode.key)) (write events)
      (w.saw agg c.cmd mode.key)) :
    wp (Performs sure arm) (.solo (Grown mode w)) 0 c (Handled sure agg c.cmd mode w)
      (do
        let newEvents ← handle state
        let envs ← (write newEvents).mapError arm.fromStore
        publishOrTrace envs label) w := by
  have still : Grown mode w (w.saw agg c.cmd mode.key) := grown_of_eq rfl
  refine wp_seq (R := fun _ v => v = w.saw agg c.cmd mode.key) (grown_of_eq rfl) ?_ ?_ ?_
  · apply wp_attempt
    rintro _ rfl _ v r ⟨⟨rfl, _⟩, _⟩
    refine ⟨still, ?_⟩
    rintro _ rfl _
    rw [hs]
    rfl
  · rintro events v _ rfl
    refine wp_seq still (wp_mapError (wp_conseq (fun x v _ h => h.mapError) (meets events))) ?_ ?_
    · rintro envs v g h _ rfl _ v' r ⟨rfl, _⟩
      refine ⟨g.of_eq rfl, ?_⟩
      rintro _ rfl _
      exact ⟨_, .inr rfl, envs, v, h, rfl⟩
    · intro e v _ h
      exact ⟨_, .inr rfl, h⟩
  · rintro e v _ rfl
    exact ⟨_, .inr rfl, .inl (.refl _)⟩

/-- Rust `run_create`. -/
lemma runCreate_meets {w : World A E Cmd} {label} (hm : arm.persistMode c.cmd = .create) :
    wp (Performs sure arm) (.solo (Grown .create w)) 0 c (Handled sure agg c.cmd .create w)
      (runCreate agg arm c.ctx label) w :=
  handle_meets rfl fun _ => createFresh_meets (w := w.saw agg c.cmd none) hm trivial

/-- Rust `run_create_or_append`. -/
lemma runCreateOrAppend_meets {w : World A E Cmd} {key label}
    (hm : arm.persistMode c.cmd = .createOrAppend key) :
    wp (Performs sure arm) (.solo (Grown (.createOrAppend key) w)) 0 c
      (Handled sure agg c.cmd (.createOrAppend key) w)
      (runCreateOrAppend agg arm key c.ctx label) w := by
  have still : Grown (.createOrAppend key) w w := grown_of_eq rfl
  rintro _ rfl _ v _ ⟨⟨rfl, rfl⟩, _⟩
  refine ⟨still, wp_seq (R := Loaded v key) still
    (wp_mapError (wp_conseq (fun _ _ _ h => h.mapError) (loadEnvelopesOrEmpty_meets still))) ?_ ?_⟩
  · rintro ⟨envs, lastSeq⟩ u _ ⟨rfl, e, known⟩
    dsimp only at e known ⊢
    refine handle_meets (congrArg _ e) fun events => ?_
    rcases known with none | ⟨id, seq, some, rfl⟩
    · -- the first reference of the key
      rw [none]
      exact createFresh_meets (w := u.saw agg c.cmd (.some key)) hm none
    · rw [some]
      exact appendAndTrack_meets (w := u.saw agg c.cmd (.some key)) hm rfl some
  · rintro e u _ rfl
    exact .refused

/-- Rust `run_append_strict`. -/
lemma runAppendStrict_meets {w : World A E Cmd} {key label}
    (hm : arm.persistMode c.cmd = .appendStrict key) :
    wp (Performs sure arm) (.solo (Grown (.appendStrict key) w)) 0 c
      (Handled sure agg c.cmd (.appendStrict key) w)
      (runAppendStrict agg arm key c.ctx label) w := by
  have still : Grown (.appendStrict key) w w := grown_of_eq rfl
  rintro _ rfl _ v _ ⟨⟨rfl, rfl⟩, _⟩
  refine ⟨still, ?_⟩
  rcases known : v.index key with _ | id
  · rintro _ rfl _
    exact .refused
  · refine wp_seq still (load_meets ?_ still) ?_ ?_
    · rintro (_ | _) _ ⟨⟩
      rfl
    · rintro envs u _ ⟨rfl, e⟩
      cases e envs rfl
      split
      · rintro _ rfl _
        exact .refused
      · refine handle_meets (congrArg _ (history_of_index known).symm) fun events => ?_
        exact appendAndTrack_meets (w := u.saw agg c.cmd (some key)) hm rfl known
    · rintro e u _ ⟨rfl, _⟩
      exact .refused

/-- A command, from any world. -/
theorem handleOne_meets (w : World A E Cmd) :
    wp (Performs sure arm) (.solo (Grown (arm.persistMode c.cmd) w)) 0 c
      (Handled sure agg c.cmd (arm.persistMode c.cmd) w) (handleOne agg arm c) w := by
  rcases hm : arm.persistMode c.cmd with _ | key | key
  · simp only [handleOne, hm]
    exact runCreate_meets hm
  · simp only [handleOne, hm]
    exact runCreateOrAppend_meets hm
  · simp only [handleOne, hm]
    exact runAppendStrict_meets hm

/-! ## Whole commands in a run -/

/-- Commands are sent before the task takes one. -/
lemma run_sends (sure : Prop) (agg : Aggregate A E) (arm : Arm A E Cmd Err)
    (cs : List (Command Cmd)) (w : World A E Cmd)
    (room : cs.length ≤ mergerChannelCapacity) :
    Run (SystemStep sure agg arm) (.spawn w) (cs.map .send) ⟨cs, .idle, w⟩ := by
  induction cs using List.reverseRecOn with
  | nil => exact .nil
  | append_singleton cs c ih =>
    rw [List.length_append] at room
    rw [List.map_append]
    exact (ih (by omega)).snoc (.send ⟨nofun, nofun⟩ room)

/-- The task performs the operations of a program one by one. -/
lemma run_work {queue start p x} {w v : World A E Cmd} (ex : Exec (Performs sure arm) 0 c w p v x) :
    ∃ n, Run (SystemStep sure agg arm) ⟨queue, .busy start c p, w⟩ (.replicate n .work)
      ⟨queue, .busy start c (.ofExcept x), v⟩ := by
  induction ex with
  | ret => exact ⟨0, .nil⟩
  | raise => exact ⟨0, .nil⟩
  | op act _ ih =>
    obtain ⟨n, run⟩ := ih
    exact ⟨n + 1, .cons (.work act) run⟩

/-- The task handles a command from the channel. -/
lemma run_command {x} {w v : World A E Cmd} (rest : List (Command Cmd))
    (ex : Exec (Performs sure arm) 0 c w (handleOne agg arm c) v x) :
    ∃ n, Run (SystemStep sure agg arm) ⟨c :: rest, .idle, w⟩
      (.take c :: (.replicate n .work ++ [.reply c x])) ⟨rest, .idle, v⟩ := by
  have work : ∃ n, Run (SystemStep sure agg arm) ⟨rest, .busy w c (handleOne agg arm c), w⟩
      (.replicate n .work) ⟨rest, .busy w c (.ofExcept x), v⟩ := run_work ex
  obtain ⟨n, run⟩ := work
  exact ⟨n, .cons .take (run.snoc .reply)⟩

/-- Answers of a store that does not fail on its own. -/
def answer (arm : Arm A E Cmd Err) (c : Command Cmd) (o : Op A E) (w : World A E Cmd) :
    World A E Cmd × o.Res Err :=
  match o with
  | .lookup key => (w, w.index key)
  | .load id => (w, .ok (w.store.streams id))
  | .handle state =>
    ({ w with seen := w.seen ++ [(c.cmd, state, w.persisted)] }, arm.handle state c.cmd)
  | .create events ctx =>
    let made := w.store.createNow events ctx
    ({ w.persist made.1 (arm.persistMode c.cmd).key made.2.1 with
        lost := w.lost ++ lostKeys (arm.persistMode c.cmd) made.2.1 made.2.2 }, made.2.2)
  | .append id expected events ctx =>
    let made := w.store.appendNow id expected events ctx
    (w.persist made.1 (arm.persistMode c.cmd).key made.2.1, made.2.2)
  | .orInsert key id =>
    ({ w with index := update w.index key (some ((w.index key).getD id)) }, ())
  | .track id sequence =>
    ({ w with nextSeq := update w.nextSeq id (some sequence) }, ())
  | .publish envelopes _ => ({ w with bus := w.bus ++ envelopes }, .ok ())

/-- Such a store is one of the contract, and its outcomes are known. -/
lemma answer_performs {i} (o : Op A E) (w : World A E Cmd) :
    Performs sure arm i c w o (answer arm c o w).1 (answer arm c o w).2 := by
  cases o with
  | lookup key => exact ⟨⟨rfl, rfl⟩, fun _ => trivial⟩
  | load id => exact ⟨⟨rfl, .ok⟩, fun _ => nofun⟩
  | handle state => exact ⟨⟨rfl, rfl⟩, fun _ => trivial⟩
  | create events ctx =>
    have made := w.store.createNow_create events ctx
    exact ⟨⟨_, _, made.mono False.elim, rfl⟩, fun _ _ => made.known⟩
  | append id expected events ctx =>
    have made := w.store.appendNow_append id expected events ctx
    exact ⟨⟨_, _, made.mono False.elim, rfl⟩, fun _ _ => made.known⟩
  | orInsert key id => exact ⟨rfl, fun _ => trivial⟩
  | track id sequence => exact ⟨rfl, fun _ => trivial⟩
  | publish envelopes label => exact ⟨rfl, fun _ => trivial⟩

/-- A command over such a store. -/
lemma exec_after (sure : Prop) (agg : Aggregate A E) (arm : Arm A E Cmd Err) (c : Command Cmd)
    (w : World A E Cmd) :
    Exec (Performs sure arm) 0 c w (handleOne agg arm c)
      ((handleOne agg arm c).interp (answer arm c) w).1
      ((handleOne agg arm c).interp (answer arm c) w).2 :=
  (handleOne agg arm c).interp_exec answer_performs w

end CherryPit.Merger
