import CherryPit.Conc.Ledger

/-!
# What threads have done by now

Two more rules that turn facts about single actions into facts about runs. `run_history` is for an
assertion about the shared state, a thread and what the thread has done; in `run_history_of` the
run consists of some of the steps only, so that an assumption about when things happen is one about
which steps there are. `run_conserved` is for an amount that is in the shared state or with the
threads; a `Semaphore` is the case of permits.
-/

namespace CherryPit.Conc.Threads

variable {G P A B : Type} {loc : G → P → A → G → P → Prop} {env : G → B → G → Prop}
  {s s' : Threads G P} {tr : List (Label A B)} {J : G → P → List A → Prop}

/-- An assertion about the shared state, a thread and its actions holds along a run of some of the
steps, if the thread keeps it when it moves, and the others and the environment keep it. -/
lemma run_history_of {step : Threads G P → Label A B → Threads G P → Prop}
    (sub : ∀ {s l s'}, step s l s' → Step loc env s l s')
    (own : ∀ {g p a g' p' as}, loc g p a g' p' → J g p as → J g' p' (as ++ [a]))
    (others : ∀ {g p a g' p' q as}, loc g p a g' p' → J g q as → J g' q as)
    (envs : ∀ {s b g i as}, env s.shared b g → step s (.env b) ⟨g, s.pc⟩ →
      J s.shared (s.pc i) as → J g (s.pc i) as)
    (r : Run step s tr s') (start : ∀ i, J s.shared (s.pc i) []) :
    ∀ i, J s'.shared (s'.pc i) (eventsOf i tr) := by
  refine r.snocInduction (motive := fun tr s' => ∀ i, J s'.shared (s'.pc i) (eventsOf i tr))
    start ?_
  intro tr s l s' _ st ih i
  cases sub st with
  | @act j a g p move =>
    rcases eq_or_ne j i with rfl | ne
    · rw [eventsOf_act_self]
      simpa only [Function.update_self] using own move (ih j)
    · rw [eventsOf_act_of_ne ne]
      simpa only [Function.update_of_ne ne.symm] using others move (ih i)
  | env move =>
    rw [eventsOf_env]
    exact envs (s := s) move st (ih i)

/-- `run_history_of` for all steps. -/
lemma run_history (own : ∀ {g p a g' p' as}, loc g p a g' p' → J g p as → J g' p' (as ++ [a]))
    (others : ∀ {g p a g' p' q as}, loc g p a g' p' → J g q as → J g' q as)
    (envs : ∀ {g b g' q as}, env g b g' → J g q as → J g' q as) (r : Run (Step loc env) s tr s')
    (start : ∀ i, J s.shared (s.pc i) []) :
    ∀ i, J s'.shared (s'.pc i) (eventsOf i tr) :=
  run_history_of (fun st => st) own others (fun move _ h => envs move h) r start

section Conserved

variable {M : Type} [AddCommMonoid M] {amount : G → M} {hold : P → M}

/-- If an action moves an amount between the shared state and its thread, what is there and what the
threads have is what there was. -/
theorem run_conserved {n : Nat}
    (one : ∀ {g p a g' p'}, loc g p a g' p' → amount g' + hold p' = amount g + hold p)
    (envs : ∀ {g b g'}, env g b g' → amount g' = amount g)
    (start : ∀ i, hold (s.pc i) = 0) (r : Run (Step loc env) s tr s')
    (bound : ∀ i a, .act i a ∈ tr → i < n) :
    amount s'.shared + ∑ i ∈ Finset.range n, hold (s'.pc i) = amount s.shared := by
  refine r.snocInduction (motive := fun tr s' => (∀ i a, .act i a ∈ tr → i < n) →
    amount s'.shared + ∑ i ∈ Finset.range n, hold (s'.pc i) = amount s.shared) ?_ ?_ bound
  · intro _
    simp [start]
  · intro tr t l t' _ st ih bound
    have ih := ih fun i a mem => bound i a (List.mem_append_left _ mem)
    cases st with
    | env st => rwa [envs st]
    | @act i a g p st =>
      obtain ⟨rest, moved⟩ := sum_hold_update hold t.pc (bound i a (by simp))
      have before := moved (t.pc i)
      rw [Function.update_eq_self] at before
      calc amount g + ∑ j ∈ Finset.range n, hold (Function.update t.pc i p j)
          = amount g + hold p + rest := by rw [moved p, add_assoc]
        _ = amount t.shared + hold (t.pc i) + rest := by rw [one st]
        _ = amount t.shared + ∑ j ∈ Finset.range n, hold (t.pc j) := by rw [before, add_assoc]
        _ = amount s.shared := ih

end Conserved

section Semaphore

variable {permits : G → Nat} {hold : P → Nat}

/-- The permits of a semaphore are in the shared state or with the threads, at most one with
each. -/
structure Semaphore (loc : G → P → A → G → P → Prop) (env : G → B → G → Prop) (permits : G → Nat)
    (hold : P → Nat) : Prop where
  one : ∀ {g p a g' p'}, loc g p a g' p' → permits g' + hold p' = permits g + hold p
  envs : ∀ {g b g'}, env g b g' → permits g' = permits g
  atMost : ∀ p, hold p ≤ 1

variable (sem : Semaphore loc env permits hold)
include sem

/-- Threads that hold a permit are no more than there are permits. -/
lemma Semaphore.card_le (start : ∀ i, hold (s.pc i) = 0) (r : Run (Step loc env) s tr s')
    (holders : Finset Nat) (held : ∀ i ∈ holders, hold (s'.pc i) = 1) :
    holders.card ≤ permits s.shared := by
  obtain ⟨n, bound⟩ := exists_bound tr
  obtain ⟨m, above⟩ := holders.exists_nat_subset_range
  have conserved := run_conserved (n := max n m) (fun st => sem.one st) (fun st => sem.envs st)
    start r fun i a mem => lt_of_lt_of_le (bound i a mem) (le_max_left n m)
  have part : ∑ i ∈ holders, hold (s'.pc i) ≤ ∑ i ∈ Finset.range (max n m), hold (s'.pc i) :=
    Finset.sum_le_sum_of_subset (above.trans (Finset.range_mono (le_max_right n m)))
  rw [Finset.sum_congr rfl held, Finset.sum_const, smul_eq_mul, mul_one] at part
  omega

/-- Where no permit is left, as many threads hold one as there are permits. -/
lemma Semaphore.exists_holders (start : ∀ i, hold (s.pc i) = 0) (r : Run (Step loc env) s tr s')
    (none : permits s'.shared = 0) :
    ∃ holders : Finset Nat, holders.card = permits s.shared ∧
      ∀ i ∈ holders, hold (s'.pc i) = 1 := by
  obtain ⟨n, bound⟩ := exists_bound tr
  have conserved := run_conserved (fun st => sem.one st) (fun st => sem.envs st) start r bound
  rw [none, Nat.zero_add] at conserved
  refine ⟨(Finset.range n).filter fun i => hold (s'.pc i) = 1, ?_, fun i mem =>
    (Finset.mem_filter.mp mem).2⟩
  rw [← conserved, Finset.card_filter]
  refine Finset.sum_congr rfl fun i _ => ?_
  have := sem.atMost (s'.pc i)
  split <;> omega

/-- Where no thread holds a permit, all are back. -/
lemma Semaphore.back (start : ∀ i, hold (s.pc i) = 0) (r : Run (Step loc env) s tr s')
    (idle : ∀ i, hold (s'.pc i) = 0) : permits s'.shared = permits s.shared := by
  obtain ⟨n, bound⟩ := exists_bound tr
  simpa only [idle, Finset.sum_const_zero, add_zero] using
    run_conserved (fun st => sem.one st) (fun st => sem.envs st) start r bound

end Semaphore

end CherryPit.Conc.Threads
