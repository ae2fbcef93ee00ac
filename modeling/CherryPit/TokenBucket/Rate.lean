import CherryPit.Conc.Meter
import CherryPit.TokenBucket.Bucket

/-!
# The rate of a token bucket

The callers of a bucket meter the tokens it generates: seen from the counter, a run of
`Conc.Threads` is a run of `Conc.Debit` over `uncapped_generated_milli_at`, with the debits in the
order of their compare-exchanges and marked with their readings of the clock (`run_debits`). The
readings may be out of order; what a window of them admits is bounded by `debits_le_rate`.
-/

namespace CherryPit.TokenBucket

open Conc Threads

variable {b : TokenBucketRegulator}

/-- A round that decides to debit has the tokens for it. -/
lemma TokenBucketRegulator.debit_of_attempt {now consumed nextConsumed}
    (h : b.attempt now consumed = .debit nextConsumed) :
    Debit b.uncappedGeneratedMilliAt b.capacityMilli.get milliPerToken consumed now
      nextConsumed := by
  simp only [attempt] at h
  split_ifs at h with enough fits
  cases h
  simp only [milliPerToken] at enough ⊢
  exact ⟨rfl, by omega⟩

/-- A compare-exchange stores what was decided on from the value it expects. -/
def Decided (b : TokenBucketRegulator) (_ : Shared) : Pc → Prop
  | .tryDebit now consumed nextConsumed => b.attempt now consumed = .debit nextConsumed
  | _ => True

lemma Decided.own {g p a g' p'} (st : Local b g p a g' p') : Decided b g' p' := by
  cases st with
  | decide h => exact h
  | _ => trivial

/-- The reading of the clock that a debit was decided on. -/
def debitedAt : Label Event Instant → Option Instant
  | .act _ (.debited now) => some now
  | _ => none

/-- The clock readings of the successful debits, in the order of their compare-exchanges. -/
def debits (tr : List (Label Event Instant)) : List Instant := tr.filterMap debitedAt

/-- Only a debit moves the counter, and as it was decided. -/
lemma Local.debits {g p a g' p'} (i : Nat) (st : Local b g p a g' p') (decided : Decided b g p) :
    (∃ now, debitedAt (.act i a) = some now ∧
      Debit b.uncappedGeneratedMilliAt b.capacityMilli.get milliPerToken g.consumedMilli now
        g'.consumedMilli) ∨
    (debitedAt (.act i a) = none ∧ g'.consumedMilli = g.consumedMilli) := by
  cases st with
  | debit e =>
    subst e
    exact .inl ⟨_, rfl, TokenBucketRegulator.debit_of_attempt decided⟩
  | _ => exact .inr ⟨rfl, rfl⟩

/-- A run meters the generated tokens. -/
lemma run_debits {clock tr} {s : Bucket} (r : Run (BucketStep b) (.start clock) tr s) :
    Run (Debit b.uncappedGeneratedMilliAt b.capacityMilli.get milliPerToken) 0 (debits tr)
      s.shared.consumedMilli := by
  have start : ∀ i, Decided b (Bucket.start clock).shared ((Bucket.start clock).pc i) :=
    fun _ => trivial
  obtain ⟨-, decided⟩ := run_all (I := Decided b) (fun st _ => .own st) (fun _ _ h => h)
    (fun _ h => h) start r
  refine decided.seen (fun s => s.shared.consumedMilli) debitedAt ?_
  intro s l s' st
  cases st with
  | @act i a g p st => exact st.1.debits i st.2
  | env st => exact .inr ⟨rfl, by rw [st.2]⟩

/-- Whatever the interleaving, the debits decided on in a window of the clock take no more than a
full bucket and what was generated in the window. -/
theorem debits_le_rate {clock tr} {s : Bucket} {x y : Instant}
    (r : Run (BucketStep b) (.start clock) tr s) (le : x ≤ y) :
    1000 * countWithin x y (debits tr) + b.uncappedGeneratedMilliAt x ≤
      b.capacityMilli.get + b.uncappedGeneratedMilliAt y :=
  (run_debits r).debits_within b.uncappedGeneratedMilliAt_mono le

/-- One token of capacity and one token per second, full at 0. -/
def oneToken : TokenBucketRegulator := ⟨-1000000000, toMilli 1 Nat.one_pos, toMilli 1 Nat.one_pos⟩

/-- Callers 0 and 1 read the clock and caller 0 is admitted; a second later caller 2 is admitted,
and caller 1 finds nothing for its old reading. -/
theorem debits_le_rate_oneToken :
    TokenBucketRegulator.new (-10 ^ 30) 0 1 1 = .ok oneToken ∧
    ∃ tr s, Run (BucketStep oneToken) (.start 0) tr s ∧ debits tr = [0, 10 ^ 9] ∧
      s.pc 1 = .waiting (10 ^ 9) ∧
      1000 * countWithin 0 (10 ^ 9) (debits tr) + oneToken.uncappedGeneratedMilliAt 0 ≤
        oneToken.capacityMilli.get + oneToken.uncappedGeneratedMilliAt (10 ^ 9) := by
  have first : oneToken.attempt 0 0 = .debit 1000 := by decide
  have second : oneToken.attempt (10 ^ 9) 1000 = .debit 2000 := by decide
  have third : oneToken.attempt 0 2000 = .refuse (10 ^ 9) := by decide +kernel
  have r : Run (BucketStep oneToken) (.start 0) _ _ :=
    .cons (.act (i := 0) .call) <| .cons (.act (i := 0) .readClock) <|
    .cons (.act (i := 1) .call) <| .cons (.act (i := 1) .readClock) <|
    .cons (.act (i := 0) (.decide first)) <| .cons (.act (i := 0) (.debit rfl)) <|
    .cons (.env (b := 10 ^ 9) ⟨by decide, rfl⟩) <|
    .cons (.act (i := 2) .call) <| .cons (.act (i := 2) .readClock) <|
    .cons (.act (i := 2) (.decide second)) <| .cons (.act (i := 2) (.debit rfl)) <|
    .cons (.act (i := 1) (.refuse third)) .nil
  exact ⟨by decide +kernel, _, _, r, rfl, rfl, debits_le_rate r (by decide)⟩

end CherryPit.TokenBucket
