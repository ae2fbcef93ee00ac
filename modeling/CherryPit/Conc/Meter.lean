import CherryPit.Conc.Run

/-!
# Metering against a supply

A meter counts what has been consumed of a supply `gen`, of which at most `cap` may be held back at
any time: a debit at `x` first gives up what the supply at `x` exceeds the counter by more than
`cap`, then adds its `cost`, and the sum has to be covered by the supply at `x`. The points of
successive debits need not be in order.

`Run.debits_within` is the bound this gives for every window of points at once.
-/

namespace CherryPit.Conc

variable {T : Type*} {gen : T → Nat} {cap cost : Nat}

/-- One debit at `x` moves the counter from `c` to `c'`. -/
def Debit (gen : T → Nat) (cap cost : Nat) (c : Nat) (x : T) (c' : Nat) : Prop :=
  c' = max c (gen x - cap) + cost ∧ c' ≤ gen x

variable [Preorder T] [DecidableLE T]

/-- How many of the points lie in a window. -/
def countWithin (s t : T) (xs : List T) : Nat := xs.countP fun x => s ≤ x ∧ x ≤ t

lemma countWithin_concat (s t x : T) (xs : List T) :
    countWithin s t (xs ++ [x]) = countWithin s t xs + if s ≤ x ∧ x ≤ t then 1 else 0 := by
  simp [countWithin, List.countP_append, List.countP_singleton]

/-- Once there was a debit in the window, the counter has covered the supply at its beginning up to
`cap` and the debits in it; of the counter only what the supply at its end covers is needed. -/
lemma Run.debits_counted {c c' xs} (mono : Monotone gen) (s t : T)
    (r : Run (Debit gen cap cost) c xs c') :
    countWithin s t xs = 0 ∨
      cost * countWithin s t xs + gen s ≤ cap + min c' (gen t) := by
  refine r.snocInduction (motive := fun xs c' => countWithin s t xs = 0 ∨
    cost * countWithin s t xs + gen s ≤ cap + min c' (gen t)) (.inl rfl) ?_
  rintro xs c x _ _ ⟨rfl, covered⟩ ih
  rw [countWithin_concat]
  split_ifs with within
  · -- the counter now holds this debit on top of the earlier ones, or on top of `gen x - cap`
    right
    have after : gen s ≤ gen x := mono within.1
    have before : gen x ≤ gen t := mono within.2
    rw [min_eq_left (covered.trans before), Nat.mul_add_one]
    rcases ih with none | some
    · rw [none]
      omega
    · omega
  · exact ih.imp_right fun some => some.trans (by omega)

/-- In every window the debits cost no more than `cap` and what was supplied in the window. -/
lemma Run.debits_within {c c' xs} {s t : T} (mono : Monotone gen) (le : s ≤ t)
    (r : Run (Debit gen cap cost) c xs c') :
    cost * countWithin s t xs + gen s ≤ cap + gen t := by
  have supplied : gen s ≤ gen t := mono le
  rcases r.debits_counted mono s t with none | some
  · rw [none]
    omega
  · omega

end CherryPit.Conc
