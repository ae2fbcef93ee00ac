import CherryPit.Conc.Threads

/-!
# Ledgers

What the actions of a run have handed out is what they have taken back and what the threads still
hold. Amounts are elements of a commutative monoid: a number of permits, a multiset of jobs. An
action has to balance for the thread that performs it (`run_ledger`); at the end of a run whose
threads hold nothing the two sides are equal (`run_settled`).
-/

namespace CherryPit.Conc.Threads

variable {G P A B M : Type}

section Total

variable [AddCommMonoid M]

/-- The sum of what `f` sees of the actions of a run. -/
def total (f : A → M) (tr : List (Label A B)) : M :=
  (tr.map fun
    | .act _ a => f a
    | .env _ => 0).sum

@[simp] lemma total_nil (f : A → M) : total f ([] : List (Label A B)) = 0 := rfl

lemma total_append (f : A → M) (tr tr' : List (Label A B)) :
    total f (tr ++ tr') = total f tr + total f tr' := by
  simp [total]

lemma total_act (f : A → M) (tr : List (Label A B)) (i : Nat) (a : A) :
    total f (tr ++ [.act i a]) = total f tr + f a := by
  simp [total]

lemma total_env (f : A → M) (tr : List (Label A B)) (b : B) :
    total f (tr ++ [.env b]) = total f tr := by
  simp [total]

lemma total_add (f f' : A → M) (tr : List (Label A B)) :
    total (fun a => f a + f' a) tr = total f tr + total f' tr := by
  induction tr using List.reverseRecOn with
  | nil => simp
  | append_singleton tr l ih =>
    cases l with
    | act i a =>
      simp only [total_act, ih]
      abel
    | env b => simp only [total_env, ih]

/-- Nothing was seen in a run if nothing was seen of any of its actions. -/
lemma total_eq_zero [PartialOrder M] [IsOrderedAddMonoid M] [CanonicallyOrderedAdd M] {f : A → M}
    {tr : List (Label A B)} : total f tr = 0 ↔ ∀ i a, .act i a ∈ tr → f a = 0 := by
  rw [total, List.sum_eq_zero_iff]
  constructor
  · intro zero i a mem
    exact zero _ (List.mem_map_of_mem mem)
  · intro zero x mem
    obtain ⟨l, here, rfl⟩ := List.mem_map.mp mem
    cases l with
    | act i a => exact zero i a here
    | env b => rfl

end Total

/-- What is collected, as a multiset. -/
lemma total_collect {X : Type} (f : A → Option X) (tr : List (Label A B)) :
    total (fun a => ((f a).toList : Multiset X)) tr = (collect f tr : Multiset X) := by
  induction tr using List.reverseRecOn with
  | nil => rfl
  | append_singleton tr l ih =>
    cases l with
    | act i a => rw [total_act, collect_act, ih, Multiset.coe_add]
    | env b => rw [total_env, collect_env, ih]

/-- The threads that move in a run have indices below some bound. -/
lemma exists_bound (tr : List (Label A B)) : ∃ n, ∀ i a, .act i a ∈ tr → i < n := by
  induction tr with
  | nil => exact ⟨0, fun i a mem => (List.not_mem_nil mem).elim⟩
  | cons l tr ih =>
    obtain ⟨n, bound⟩ := ih
    cases l with
    | act j b =>
      refine ⟨max n (j + 1), fun i a mem => ?_⟩
      rcases List.mem_cons.mp mem with e | mem
      · cases e
        omega
      · have := bound i a mem
        omega
    | env b =>
      refine ⟨n, fun i a mem => ?_⟩
      rcases List.mem_cons.mp mem with e | mem
      · cases e
      · exact bound i a mem

variable {loc : G → P → A → G → P → Prop} {env : G → B → G → Prop} {s s' : Threads G P}
  {tr : List (Label A B)}

section Balance

variable [AddCommMonoid M] {credit debit : A → M} (hold : P → M) {n : Nat}

/-- What the threads below a bound hold is what one of them holds and the rest, which does not
change when that one moves. -/
lemma sum_hold_update (pc : Nat → P) {i : Nat} (lt : i < n) :
    ∃ rest, ∀ p, ∑ j ∈ Finset.range n, hold (Function.update pc i p j) = hold p + rest := by
  have mem : i ∈ Finset.range n := Finset.mem_range.mpr lt
  refine ⟨∑ j ∈ (Finset.range n).erase i, hold (pc j), fun p => ?_⟩
  rw [← Finset.add_sum_erase _ _ mem, Function.update_self]
  congr 1
  refine Finset.sum_congr rfl fun j hj => ?_
  rw [Function.update_of_ne (Finset.ne_of_mem_erase hj)]

/-- If every action balances for its thread, what was handed out in a run is what was taken back
and what the threads hold. -/
theorem run_ledger
    (one : ∀ {g p a g' p'}, loc g p a g' p' → credit a + hold p = debit a + hold p')
    (start : ∀ i, hold (s.pc i) = 0) (r : Run (Step loc env) s tr s')
    (bound : ∀ i a, .act i a ∈ tr → i < n) :
    total credit tr = total debit tr + ∑ j ∈ Finset.range n, hold (s'.pc j) := by
  refine r.snocInduction (motive := fun tr s' => (∀ i a, .act i a ∈ tr → i < n) →
    total credit tr = total debit tr + ∑ j ∈ Finset.range n, hold (s'.pc j)) ?_ ?_ bound
  · intro _
    simp [start]
  · intro tr s1 l s2 _ st ih bound
    have ih := ih fun i a mem => bound i a (List.mem_append_left _ mem)
    cases st with
    | env st => simpa only [total_env] using ih
    | @act i a g p st =>
      have lt : i < n := bound i a (by simp)
      obtain ⟨rest, moved⟩ := sum_hold_update hold s1.pc lt
      have before := moved (s1.pc i)
      rw [Function.update_eq_self] at before
      rw [total_act, total_act, ih, before]
      calc total debit tr + (hold (s1.pc i) + rest) + credit a
          = total debit tr + (credit a + hold (s1.pc i)) + rest := by abel
        _ = total debit tr + (debit a + hold p) + rest := by rw [one st]
        _ = total debit tr + debit a + (hold p + rest) := by abel
        _ = _ := by rw [moved p]

/-- Where no thread holds anything, what was handed out was taken back. -/
theorem run_settled
    (one : ∀ {g p a g' p'}, loc g p a g' p' → credit a + hold p = debit a + hold p')
    (start : ∀ i, hold (s.pc i) = 0) (r : Run (Step loc env) s tr s')
    (done : ∀ i, hold (s'.pc i) = 0) : total credit tr = total debit tr := by
  obtain ⟨n, bound⟩ := exists_bound tr
  have balance := run_ledger hold (fun st => one st) start r bound
  simpa only [done, Finset.sum_const_zero, add_zero] using balance

end Balance

/-- What a thread holds was handed out and not taken back. -/
theorem run_ledger_le [AddCommMonoid M] [PartialOrder M] [IsOrderedAddMonoid M]
    [CanonicallyOrderedAdd M] {credit debit : A → M} (hold : P → M)
    (one : ∀ {g p a g' p'}, loc g p a g' p' → credit a + hold p = debit a + hold p')
    (start : ∀ i, hold (s.pc i) = 0) (r : Run (Step loc env) s tr s') (i : Nat) :
    total debit tr + hold (s'.pc i) ≤ total credit tr := by
  obtain ⟨n, bound⟩ := exists_bound tr
  have balance := run_ledger (n := max n (i + 1)) hold (fun st => one st) start r fun j a mem =>
    lt_of_lt_of_le (bound j a mem) (le_max_left _ _)
  rw [balance]
  gcongr
  exact Finset.single_le_sum (f := fun j => hold (s'.pc j)) (fun _ _ => zero_le)
    (Finset.mem_range.mpr (by omega))

end CherryPit.Conc.Threads
