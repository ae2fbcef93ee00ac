import CherryPit.Merger.Routing

/-!
# Unknown outcomes

The merger over a store that may answer `Indeterminate`. A `create` that landed without the task
learning of it leaves its key out of the index, so the next command for that key starts a second
stream (`second_stream`). As long as no `CreateOrAppend` command is taken for such a key, everything
that is persisted for a key is in one stream, at every point of every run (`one_stream`).
-/

namespace CherryPit.Merger

open Conc

variable {A E Cmd Err : Type}

/-- What was persisted for a key is in one stream, and in the one that was indexed for it from the
start if there is one. -/
def OneStream (index : String → Option AggregateId) (w : World A E Cmd) : Prop :=
  ∀ key env, (some key, env) ∈ w.persisted →
    (∀ id, index key = some id → env.aggregateId = id) ∧
    ∀ env', (some key, env') ∈ w.persisted → env.aggregateId = env'.aggregateId

/-- The command is not a `CreateOrAppend` for a key that has a stream the index does not know. -/
def Clear (mode : PersistMode) (w : World A E Cmd) : Prop :=
  ∀ key, mode = .createOrAppend key → key ∉ w.lost

/-- The take of a command that may start a second stream is ruled out. -/
def Cautious (arm : Arm A E Cmd Err) (st : System A E Cmd Err) : Label Cmd Err → Prop
  | .take c => Clear (arm.persistMode c.cmd) st.world
  | _ => True

/-- What holds between two commands. -/
structure Single (index : String → Option AggregateId) (w : World A E Cmd) : Prop where
  kept : ∀ {key id}, index key = some id → w.index key = some id
  routed : ∀ {key id env}, w.index key = some id → (some key, env) ∈ w.persisted →
    env.aggregateId = id
  unused : ∀ {key env}, w.index key = none → (some key, env) ∈ w.persisted → key ∈ w.lost
  one : ∀ {key env env'}, (some key, env) ∈ w.persisted → (some key, env') ∈ w.persisted →
    env.aggregateId = env'.aggregateId

section Keeps

variable {index : String → Option AggregateId} {mode : PersistMode} {w v : World A E Cmd}

lemma Single.oneStream (h : Single index w) : OneStream index w :=
  fun _ _ mem => ⟨fun _ known => h.routed (h.kept known) mem, fun _ mem' => h.one mem mem'⟩

/-- What is persisted for a key goes where its earlier entries are. -/
lemma Single.target (h : Single index w) (clear : Clear mode w) {key id env}
    (hk : mode.key = some key) (t : Target mode w id) (mem : (some key, env) ∈ w.persisted) :
    env.aggregateId = id := by
  rcases t.cases with ⟨key', hk', known⟩ | ⟨start, -⟩
  · cases hk'.symm.trans hk
    exact h.routed known mem
  · -- the key is not indexed and not lost, so it has no entries
    have lost := h.unused (start.free hk) mem
    cases mode with
    | create => cases hk
    | createOrAppend => cases hk; exact absurd lost (clear key rfl)
    | appendStrict => cases start

/-- One stream at any point of a command. -/
lemma Single.grown (h : Single index w) (clear : Clear mode w) (g : Grown mode w v) :
    OneStream index v := by
  obtain ⟨envs, persisted, target, same⟩ := g
  intro key env mem
  rw [persisted] at mem ⊢
  refine ⟨fun id known => ?_, fun env' mem' => ?_⟩
  · rcases mem_entries mem with old | ⟨hk, new⟩
    · exact h.routed (h.kept known) old
    · exact (target env new).eq_of_indexed hk.symm (h.kept known)
  · rcases mem_entries mem with old | ⟨hk, new⟩ <;> rcases mem_entries mem' with old' | ⟨hk', new'⟩
    · exact h.one old old'
    · exact h.target clear hk'.symm (target env' new') old
    · exact (h.target clear hk.symm (target env new) old').symm
    · exact same env new env' new'

lemma Single.same (h : Single index w) (s : Same w v) : Single index v := by
  obtain ⟨-, ei, -, -, ep, -, el⟩ := s
  constructor
  all_goals simp only [ei, ep, el]
  exacts [h.kept, h.routed, h.unused, h.one]

lemma Single.wrote {id envs} (h : Single index w) (clear : Clear mode w)
    (wrote : Wrote mode id envs w v) : Single index v where
  kept := fun known => wrote.index_kept (h.kept known)
  routed := by
    intro key id' env known mem
    rw [wrote.persisted] at mem
    rcases wrote.index_cases known with ⟨hk, rfl⟩ | ⟨ne, old⟩
    · rcases mem_entries mem with entry | ⟨-, new⟩
      · exact h.target clear hk wrote.target entry
      · exact wrote.owned new
    · rcases mem_entries mem with entry | ⟨hk, -⟩
      · exact h.routed old entry
      · exact absurd hk.symm ne
  unused := by
    intro key env none mem
    rw [wrote.persisted] at mem
    rcases mem_entries mem with entry | ⟨hk, -⟩
    · rw [wrote.lost]
      rcases old : w.index key with _ | id'
      · exact h.unused old entry
      · cases (wrote.index_kept old).symm.trans none
    · cases (wrote.index_self hk.symm).symm.trans none
  one := fun mem mem' => ((h.grown clear wrote.grown) _ _ mem).2 _ mem'

lemma Single.landed {id envs} (h : Single index w) (clear : Clear mode w)
    (landed : Landed mode id envs w v) : Single index v where
  kept := fun known => landed.index ▸ h.kept known
  routed := by
    intro key id' env known mem
    rw [landed.index] at known
    rw [landed.persisted] at mem
    rcases mem_entries mem with entry | ⟨hk, new⟩
    · exact h.routed known entry
    · exact (landed.owned new).trans (landed.target.eq_of_indexed hk.symm known)
  unused := by
    intro key env none mem
    rw [landed.index] at none
    rw [landed.persisted] at mem
    rcases mem_entries mem with entry | ⟨hk, -⟩
    · exact landed.lost (h.unused none entry)
    · exact landed.started hk.symm none
  one := fun mem mem' => ((h.grown clear landed.grown) _ _ mem).2 _ mem'

/-- A command leaves one stream for each key. -/
lemma Single.handled {agg : Aggregate A E} {cmd : Cmd} {x : Except Err Unit} (h : Single index w)
    (clear : Clear mode w) (done : Handled False agg cmd mode w x v) : Single index v := by
  obtain ⟨w', saw, done⟩ := done
  have ok : Single index w' ∧ Clear mode w' := by
    rcases saw with rfl | rfl
    · exact ⟨h, clear⟩
    · exact ⟨⟨h.kept, h.routed, h.unused, h.one⟩, clear⟩
  obtain ⟨h', clear'⟩ := ok
  cases x with
  | error e =>
    rcases done with same | ⟨-, id, envs, landed⟩
    · exact h'.same same
    · exact h'.landed clear' landed
  | ok =>
    obtain ⟨envs, u, done, rfl⟩ := done
    have ok : Single index u := by
      rcases done with ⟨-, same⟩ | ⟨id, wrote⟩
      · exact h'.same same
      · exact h'.wrote clear' wrote
    exact ⟨ok.kept, ok.routed, ok.unused, ok.one⟩

end Keeps

section Runs

variable {agg : Aggregate A E} {arm : Arm A E Cmd Err} {index : String → Option AggregateId}

/-- The invariant of the system. -/
def Apart (agg : Aggregate A E) (arm : Arm A E Cmd Err) (index : String → Option AggregateId)
    (st : System A E Cmd Err) : Prop :=
  match st.task with
  | .idle => Single index st.world
  | .stopped => Single index st.world
  | .aborted => OneStream index st.world
  | .busy start c p => Single index start ∧ Clear (arm.persistMode c.cmd) start ∧
      Grown (arm.persistMode c.cmd) start st.world ∧
      wp (Performs False arm) (.solo (Grown (arm.persistMode c.cmd) start)) 0 c
        (Handled False agg c.cmd (arm.persistMode c.cmd) start) p st.world

/-- One stream in every state. -/
lemma Apart.oneStream {st} (ok : Apart agg arm index st) : OneStream index st.world := by
  unfold Apart at ok
  split at ok
  · exact ok.oneStream
  · exact ok.oneStream
  · exact ok
  · exact ok.1.grown ok.2.1 ok.2.2.1

lemma Apart.step {st l st'} (ok : Apart agg arm index st) (cautious : Cautious arm st l)
    (h : SystemStep False agg arm st l st') : Apart agg arm index st' := by
  cases h with
  | send => exact ok
  | take => exact ⟨ok, cautious, grown_of_eq rfl, handleOne_meets _⟩
  | work act =>
    obtain ⟨start, clear, grown, meets⟩ := ok
    exact ⟨start, clear, meets _ rfl grown _ _ act⟩
  | reply =>
    obtain ⟨start, clear, grown, meets⟩ := ok
    exact start.handled clear (wp_done grown meets)
  | close => exact ok
  | abort =>
    have one : OneStream index st.world := ok.oneStream
    exact one

/-- In every run in which no `CreateOrAppend` command is taken for a key that has a stream the index
does not know, each key has at most one stream, in every state. -/
theorem one_stream {store : Store E} {nextSeq tr} {st : System A E Cmd Err}
    (run : Run (fun s l s' => SystemStep False agg arm s l s' ∧ Cautious arm s l)
      (.spawn (.opened store index nextSeq)) tr st) : OneStream index st.world := by
  have start : Apart agg arm index (.spawn (.opened store index nextSeq)) :=
    ⟨fun known => known, nofun, nofun, nofun⟩
  have ok : Apart agg arm index st :=
    run.invariant (fun ok step => Apart.step ok step.2 step.1) start
  exact ok.oneStream

end Runs

/-- The run of a command that is not for a lost key. -/
lemma run_cautious {agg : Aggregate A E} {arm : Arm A E Cmd Err} {c : Command Cmd} {x}
    {w v : World A E Cmd} (rest : List (Command Cmd)) (clear : Clear (arm.persistMode c.cmd) w)
    (ex : Exec (Performs False arm) 0 c w (handleOne agg arm c) v x) :
    ∃ n, Run (fun s l s' => SystemStep False agg arm s l s' ∧ Cautious arm s l)
      ⟨c :: rest, .idle, w⟩ (.take c :: (.replicate n .work ++ [.reply c x]))
      ⟨rest, .idle, v⟩ := by
  obtain ⟨n, command⟩ := run_command rest ex
  cases command with
  | @cons _ _ _ _ _ take command =>
    cases take
    refine ⟨n, .cons ⟨.take, clear⟩ (command.restrict fun l mem s => ?_)⟩
    rcases List.mem_append.mp mem with work | reply
    · cases List.eq_of_mem_replicate work
      trivial
    · cases List.mem_singleton.mp reply
      trivial

/-- Two commands for one key. The first `create` is answered `Indeterminate` and has not landed;
the second command creates the stream. -/
theorem one_stream_retried : ∃ tr st,
    Run (fun s l s' => SystemStep False counter keyed s l s' ∧ Cautious keyed s l)
      (.spawn (.opened .empty (fun _ => none) fun _ => none)) tr st ∧
    .reply count (.error ()) ∈ tr ∧ .reply count (.ok ()) ∈ tr ∧
    st.world.persisted.map (·.1) = [some "k"] ∧ OneStream (fun _ => none) st.world := by
  let w : World Nat Unit String := .opened .empty (fun _ => none) fun _ => none
  let v : World Nat Unit String := { w with store := w.store.burn, seen := [("k", 0, [])] }
  have failed : Exec (Performs False keyed) 0 count w (handleOne counter keyed count) v
      (.error ()) :=
    .op ⟨⟨rfl, rfl⟩, nofun⟩ (.op ⟨⟨rfl, rfl⟩, nofun⟩ (.op
      ⟨⟨_, _, .burnt (e := .indeterminate "connection reset") trivial, rfl⟩, nofun⟩ .raise))
  have start := (run_sends False counter keyed [count, count] w (by decide)).restrict
    (P := Cautious keyed) <| by
      intro l mem s
      obtain ⟨c, -, rfl⟩ := List.mem_map.mp mem
      trivial
  obtain ⟨_, first⟩ := run_cautious [count] (fun _ _ => List.not_mem_nil) failed
  obtain ⟨_, second⟩ := run_cautious [] (fun _ _ => List.not_mem_nil)
    (exec_after False counter keyed count v)
  have run := start.append (first.append second)
  refine ⟨_, _, run, by simp, ?_, by decide, one_stream run⟩
  simp only [List.mem_append, List.mem_cons, List.not_mem_nil, or_false]
  exact .inr (.inr (.inr (.inr rfl)))

/-- The envelope of the first stream. -/
def lostEnvelope : EventEnvelope Unit := ⟨1, ⟨.min⟩, .min, 0, none, none, ()⟩

/-- Two commands for one key. The first `create` lands and is answered `Indeterminate`; the second
command finds the key not indexed and creates another stream. -/
theorem second_stream : ∃ tr st,
    Run (SystemStep False counter keyed)
      (.spawn (.opened .empty (fun _ => none) fun _ => none)) tr st ∧
    st.task = .idle ∧ ¬ OneStream (fun _ => none) st.world := by
  have stamped : Stamped ⟨.min⟩ 0 count.ctx [()] [lostEnvelope] := Store.stampFrom_stamped rfl
  have landed : Store.Create True (.empty : Store Unit) [()] count.ctx _ [lostEnvelope]
      (.error (.indeterminate "connection reset")) := .landed stamped rfl trivial (by simp)
  have lost : Exec (Performs False keyed) 0 count (.opened .empty (fun _ => none) fun _ => none)
      (handleOne counter keyed count) _ (.error ()) :=
    .op ⟨⟨rfl, rfl⟩, nofun⟩ (.op ⟨⟨rfl, rfl⟩, nofun⟩ (.op ⟨⟨_, _, landed, rfl⟩, nofun⟩ .raise))
  have start := run_sends False counter keyed [count, count]
    (.opened .empty (fun _ => none) fun _ => none) (by decide)
  obtain ⟨_, first⟩ := run_command [count] lost
  obtain ⟨_, second⟩ := run_command [] (exec_after False counter keyed count _)
  refine ⟨_, _, start.append (first.append second), rfl, fun one => ?_⟩
  have same : (1 : Nat) = 2 :=
    congrArg (fun id : AggregateId => id.get) ((one "k" _ (.head _)).2 _ (.tail _ (.head _)))
  cases same

end CherryPit.Merger
