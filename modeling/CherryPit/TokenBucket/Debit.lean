import CherryPit.TokenBucket.Rate

/-!
# Debits one after the other

What `try_debit_one` answers a caller who has the bucket to itself (`tryDebitOne`, connected to the
steps of a caller by `run_alone`). With the clock held still the calls take what is available, a
token each (`offersExactly_iff`).

A new bucket is to be full. `new` back-dates its start by the time it takes to fill, rounded down to
nanoseconds, and what has been generated since is rounded down again; the second rounding loses a
thousandth of a token unless the rate divides the capacity in nanoseconds, and then one token is
missing until the clock has moved (`offers_capacity_iff`). The wait that a refused call reports is
rounded up, and this always suffices (`wait_suffices`).
-/

namespace CherryPit.TokenBucket

open Conc Threads

namespace TokenBucketRegulator

variable (b : TokenBucketRegulator)

/-- `try_debit_one` of a caller alone. -/
def tryDebitOne (g : Shared) : Except Duration Unit × Shared :=
  match b.attempt g.clock g.consumedMilli with
  | .debit nextConsumed => (.ok (), { g with consumedMilli := nextConsumed })
  | .refuse wait => (.error wait, g)

/-- Calls of `try_debit_one` one after the other. -/
def tryDebits : Nat → Shared → List (Except Duration Unit) × Shared
  | 0, g => ([], g)
  | n + 1, g =>
    ((b.tryDebitOne g).1 :: (tryDebits n (b.tryDebitOne g).2).1,
      (tryDebits n (b.tryDebitOne g).2).2)

/-- What counts as consumed: also what the bucket could not hold. -/
def effectiveConsumed (now : Instant) (consumed : Nat) : Nat :=
  max consumed (b.uncappedGeneratedMilliAt now - b.capacityMilli.get)

/-- What a call finds in the bucket, in thousandths of a token. -/
def available (now : Instant) (consumed : Nat) : Nat :=
  b.uncappedGeneratedMilliAt now - b.effectiveConsumed now consumed

end TokenBucketRegulator

variable {b : TokenBucketRegulator} {g : Shared}

/-! ## A caller alone -/

/-- The steps of `try_debit_one`; the others are those of `admit` between two calls of it. -/
def Event.inCall : Event → Bool
  | .slept | .cancelled => false
  | _ => true

/-- A step of a caller inside `try_debit_one`, with nobody else at the bucket. -/
def Alone (b : TokenBucketRegulator) (x : Shared × Pc) (a : Event) (y : Shared × Pc) : Prop :=
  Local b x.1 x.2 a y.1 y.2 ∧ a.inCall = true

/-- Where a call is that started at `g`. -/
inductive Underway (b : TokenBucketRegulator) (g : Shared) : Shared × Pc → Prop where
  | readClock : Underway b g (g, .readClock)
  | loadConsumed : Underway b g (g, .loadConsumed g.clock)
  | tryDebit {nextConsumed} :
    b.attempt g.clock g.consumedMilli = .debit nextConsumed →
    Underway b g (g, .tryDebit g.clock g.consumedMilli nextConsumed)
  | admitted {g'} :
    b.tryDebitOne g = (.ok (), g') →
    Underway b g (g', .admitted)
  | waiting {wait} :
    b.tryDebitOne g = (.error wait, g) →
    Underway b g (g, .waiting wait)

lemma Underway.step {g x a y} (h : Underway b g x) (st : Alone b x a y) : Underway b g y := by
  obtain ⟨gy, py⟩ := y
  obtain ⟨st, inCall⟩ := st
  cases h with
  | readClock =>
    cases st
    exact .loadConsumed
  | loadConsumed =>
    cases st with
    | decide eq => exact .tryDebit eq
    | refuse eq => exact .waiting (by rw [TokenBucketRegulator.tryDebitOne, eq])
  | tryDebit eq =>
    cases st with
    | debit _ => exact .admitted (by rw [TokenBucketRegulator.tryDebitOne, eq])
    | casFailed => exact .readClock
  | admitted _ => cases st
  | waiting _ =>
    cases st with
    | slept => cases inCall
    | cancelled => cases inCall

/-- A call of a caller alone that is answered is answered as `tryDebitOne` says, however often its
compare-exchange fails. -/
lemma run_alone {g tr g' p} (r : Run (Alone b) (g, .readClock) tr (g', p)) :
    (p = .admitted → b.tryDebitOne g = (.ok (), g')) ∧
      ∀ wait, p = .waiting wait → b.tryDebitOne g = (.error wait, g') := by
  have underway : Underway b g (g', p) := r.invariant .step .readClock
  cases underway with
  | admitted eq => exact ⟨fun _ => eq, nofun⟩
  | waiting eq => exact ⟨nofun, fun _ same => by cases same; exact eq⟩
  | _ => exact ⟨nofun, nofun⟩

/-- And it is answered if no compare-exchange fails. -/
lemma exists_run_alone (b : TokenBucketRegulator) (g : Shared) :
    ∃ tr p, Run (Alone b) (g, .readClock) tr ((b.tryDebitOne g).2, p) ∧
      (p = .admitted ∨ ∃ wait, p = .waiting wait) := by
  have read : Alone b (g, .readClock) .clockRead (g, .loadConsumed g.clock) :=
    ⟨.readClock, rfl⟩
  cases eq : b.attempt g.clock g.consumedMilli with
  | debit nextConsumed =>
    rw [TokenBucketRegulator.tryDebitOne, eq]
    have debited : Alone b (g, .tryDebit g.clock g.consumedMilli nextConsumed) (.debited g.clock)
        ({ g with consumedMilli := nextConsumed }, .admitted) := ⟨.debit rfl, rfl⟩
    exact ⟨_, _, .cons read <| .cons ⟨.decide eq, rfl⟩ <| .cons debited .nil, .inl rfl⟩
  | refuse wait =>
    rw [TokenBucketRegulator.tryDebitOne, eq]
    exact ⟨_, _, .cons read <| .cons ⟨.refuse eq, rfl⟩ .nil, .inr ⟨wait, rfl⟩⟩

/-! ## What the bucket offers -/

namespace TokenBucketRegulator

/-- A call succeeds if a token is available and the counter has room for it. -/
lemma attempt_debit {now consumed} (enough : milliPerToken ≤ b.available now consumed)
    (room : b.effectiveConsumed now consumed + milliPerToken ≤ u64Max) :
    b.attempt now consumed = .debit (b.effectiveConsumed now consumed + milliPerToken) := by
  rw [available, effectiveConsumed] at enough
  rw [effectiveConsumed] at room ⊢
  simp only [attempt, if_pos enough, if_pos room]

/-- The counter has room for what is covered by the supply. -/
lemma room_of_supply {now consumed} (enough : milliPerToken ≤ b.available now consumed)
    (supply : b.uncappedGeneratedMilliAt now ≤ u64Max) :
    b.effectiveConsumed now consumed + milliPerToken ≤ u64Max := by
  simp only [available, milliPerToken] at enough ⊢
  omega

/-- Otherwise it reports the wait for what is missing. -/
lemma attempt_refuse {now consumed} (short : b.available now consumed < milliPerToken) :
    b.attempt now consumed = .refuse (min (divCeil
      ((milliPerToken - b.available now consumed) * 10 ^ 9) b.refillMilliPerSec.get) u64Max) := by
  have not_le := not_le.mpr short
  rw [available, effectiveConsumed] at not_le ⊢
  simp only [attempt, if_neg not_le]

/-- A debit takes one token of what is available. -/
lemma available_debit {now consumed} :
    b.available now (b.effectiveConsumed now consumed + milliPerToken) =
      b.available now consumed - milliPerToken := by
  simp only [available, effectiveConsumed]
  omega

/-- So many calls in a row succeed, and the next one does not. -/
def OffersExactly (b : TokenBucketRegulator) (g : Shared) (n : Nat) : Prop :=
  ∃ wait, (b.tryDebits (n + 1) g).1 = List.replicate n (.ok ()) ++ [.error wait]

/-- Calls in a row take what is available. -/
lemma offersExactly_iff {n : Nat} (supply : b.uncappedGeneratedMilliAt g.clock ≤ u64Max) :
    b.OffersExactly g n ↔ b.available g.clock g.consumedMilli / milliPerToken = n := by
  induction n generalizing g with
  | zero =>
    rcases Nat.lt_or_ge (b.available g.clock g.consumedMilli) milliPerToken with short | enough
    · refine iff_of_true ?_ (Nat.div_eq_of_lt short)
      have refused := attempt_refuse short
      exact ⟨_, by rw [tryDebits, tryDebitOne, refused]; rfl⟩
    · refine iff_of_false ?_ (Nat.div_pos enough (by decide)).ne'
      rintro ⟨wait, eq⟩
      rw [tryDebits, tryDebitOne, attempt_debit enough (room_of_supply enough supply)] at eq
      cases (List.cons.inj eq).1
  | succ n ih =>
    rcases Nat.lt_or_ge (b.available g.clock g.consumedMilli) milliPerToken with short | enough
    · refine iff_of_false ?_ (by rw [Nat.div_eq_of_lt short]; exact (Nat.succ_ne_zero n).symm)
      rintro ⟨wait, eq⟩
      rw [tryDebits, tryDebitOne, attempt_refuse short] at eq
      cases (List.cons.inj eq).1
    · -- the first call takes a token and leaves the rest to the others
      have rest := @ih { g with
        consumedMilli := b.effectiveConsumed g.clock g.consumedMilli + milliPerToken } supply
      rw [available_debit] at rest
      rw [Nat.div_eq_sub_div (by decide) enough, Nat.add_right_cancel_iff, ← rest]
      unfold OffersExactly
      rw [tryDebits, tryDebitOne, attempt_debit enough (room_of_supply enough supply),
        List.replicate_succ]
      exact exists_congr fun wait => List.cons_inj_right _

/-- Without saturation, what has been generated is the elapsed time at the rate. -/
lemma uncappedGeneratedMilliAt_eq {now : Instant}
    (fits : b.uncappedGeneratedMilliAt now < u128Max / 10 ^ 9) :
    b.uncappedGeneratedMilliAt now =
      (now - b.start).toNat * b.refillMilliPerSec.get / 10 ^ 9 := by
  rw [uncappedGeneratedMilliAt] at fits ⊢
  rcases Nat.le_total ((now - b.start).toNat * b.refillMilliPerSec.get) u128Max with le | ge
  · rw [min_eq_left le]
  · rw [min_eq_right ge] at fits
    exact absurd fits (lt_irrefl _)

end TokenBucketRegulator

/-! ## A new bucket -/

section New

variable {least now : Instant} {capacityTokens refillTokensPerSec : Nat}

/-- What `new` makes of quantities that fit `u64`. -/
lemma new_ok
    (created : TokenBucketRegulator.new least now capacityTokens refillTokensPerSec = .ok b) :
    0 < capacityTokens ∧ 0 < refillTokensPerSec ∧
    b.capacityMilli.get = min (capacityTokens * milliPerToken) u64Max ∧
    b.refillMilliPerSec.get = min (refillTokensPerSec * milliPerToken) u64Max ∧
    b.start =
      backdatedStartForFullBucket least now b.capacityMilli.get b.refillMilliPerSec.get := by
  unfold TokenBucketRegulator.new at created
  split_ifs at created with capacity refill
  cases created
  exact ⟨capacity, refill, rfl, rfl, rfl⟩

/-- The thousandths of a token cancel. -/
lemma milli_le_iff {tokens nanos rate : Nat} :
    tokens * milliPerToken ≤ nanos * (rate * milliPerToken) / 10 ^ 9 ↔
      tokens * 10 ^ 9 ≤ nanos * rate := by
  rw [Nat.le_div_iff_mul_le (Nat.pow_pos (by decide)), ← Nat.mul_assoc]
  generalize nanos * rate = generated
  simp only [milliPerToken]
  omega

/-- The start, if there is such an instant. -/
lemma backdatedStart_eq {capacityMilli refillMilliPerSec : Nat}
    (start : least ≤ now - (min (capacityMilli * 10 ^ 9 / refillMilliPerSec) u64Max : Nat)) :
    backdatedStartForFullBucket least now capacityMilli refillMilliPerSec =
      now - (min (capacityMilli * 10 ^ 9 / refillMilliPerSec) u64Max : Nat) := by
  simp only [backdatedStartForFullBucket, Instant.checkedSub, if_pos start, Option.getD_some]

/-- When a bucket that was filled by back-dating its start is full: if the time to fill it can be
subtracted, at once only if the rate divides it, and after any gap. -/
def FullAfter (capacityTokens refillTokensPerSec gap : Nat) : Prop :=
  if capacityTokens * 10 ^ 9 / refillTokensPerSec ≤ u64Max then
    refillTokensPerSec ∣ capacityTokens * 10 ^ 9 ∨ 0 < gap
  else capacityTokens * 10 ^ 9 ≤ (u64Max + gap) * refillTokensPerSec

/-- The time since the start is enough for the capacity. -/
lemma fullAfter_iff {gap : Nat} (pos : 0 < refillTokensPerSec) :
    FullAfter capacityTokens refillTokensPerSec gap ↔
      capacityTokens * 10 ^ 9 ≤
        (min (capacityTokens * 10 ^ 9 / refillTokensPerSec) u64Max + gap) * refillTokensPerSec := by
  unfold FullAfter
  split_ifs with fits
  · rw [min_eq_left fits, Nat.dvd_iff_mod_eq_zero]
    -- the remainder of the division has to be generated during the gap
    have split := Nat.div_add_mod' (capacityTokens * 10 ^ 9) refillTokensPerSec
    have lt := Nat.mod_lt (capacityTokens * 10 ^ 9) pos
    rw [Nat.add_mul]
    constructor
    · rintro (zero | later)
      · omega
      · have le : refillTokensPerSec ≤ gap * refillTokensPerSec := Nat.le_mul_of_pos_left _ later
        omega
    · intro le
      rcases Nat.eq_zero_or_pos gap with rfl | later
      · left
        omega
      · exact .inr later
  · rw [min_eq_right (Nat.le_of_not_le fits)]

/-- When a new bucket offers exactly its capacity after a gap during which nobody calls. -/
theorem offers_capacity_iff (gap : Nat)
    (created : TokenBucketRegulator.new least now capacityTokens refillTokensPerSec = .ok b)
    (capacity : capacityTokens * milliPerToken ≤ u64Max)
    (refill : refillTokensPerSec * milliPerToken ≤ u64Max)
    (start : least ≤ now - (min (capacityTokens * 10 ^ 9 / refillTokensPerSec) u64Max : Nat))
    (supply : b.uncappedGeneratedMilliAt (now + gap) ≤ u64Max) :
    b.OffersExactly ⟨now + gap, 0⟩ capacityTokens ↔
      FullAfter capacityTokens refillTokensPerSec gap := by
  obtain ⟨-, pos, cap, rate, since⟩ := new_ok created
  rw [min_eq_left capacity] at cap
  rw [min_eq_left refill] at rate
  have thousand : 0 < milliPerToken := by decide
  have fill : b.capacityMilli.get * 10 ^ 9 / b.refillMilliPerSec.get =
      capacityTokens * 10 ^ 9 / refillTokensPerSec := by
    rw [cap, rate, Nat.mul_right_comm, Nat.mul_div_mul_right _ _ thousand]
  have elapsed : (now + gap - b.start).toNat =
      min (capacityTokens * 10 ^ 9 / refillTokensPerSec) u64Max + gap := by
    rw [← fill] at start ⊢
    rw [since, backdatedStart_eq start]
    generalize min _ u64Max = back
    omega
  have generated := TokenBucketRegulator.uncappedGeneratedMilliAt_eq
    (lt_of_le_of_lt supply (by decide))
  rw [elapsed, rate] at generated
  have full : b.capacityMilli.get ≤ b.uncappedGeneratedMilliAt (now + gap) ↔
      FullAfter capacityTokens refillTokensPerSec gap := by
    rw [fullAfter_iff pos, generated, cap, milli_le_iff]
  rw [← full, TokenBucketRegulator.offersExactly_iff (g := ⟨now + gap, 0⟩) supply]
  have available : b.available (now + gap) 0 =
      min (b.uncappedGeneratedMilliAt (now + gap)) b.capacityMilli.get := by
    simp only [TokenBucketRegulator.available, TokenBucketRegulator.effectiveConsumed]
    omega
  rw [available, cap]
  constructor
  · intro eq
    have le := Nat.div_mul_le_self
      (min (b.uncappedGeneratedMilliAt (now + gap)) (capacityTokens * milliPerToken)) milliPerToken
    rw [eq] at le
    exact le.trans (min_le_left _ _)
  · intro le
    rw [min_eq_right le, Nat.mul_div_cancel _ thousand]

end New

/-- Five tokens and one per second, full at 0. -/
def fiveTokens : TokenBucketRegulator :=
  ⟨-5000000000, toMilli 5 (by omega), toMilli 1 Nat.one_pos⟩

/-- An hour later it offers five tokens. -/
theorem offers_capacity_iff_fiveTokens :
    TokenBucketRegulator.new (-10000000000) 0 5 1 = .ok fiveTokens ∧
      fiveTokens.OffersExactly ⟨0 + (3600 * 10 ^ 9 : Nat), 0⟩ 5 := by
  have created : TokenBucketRegulator.new (-10000000000) 0 5 1 = .ok fiveTokens := by decide +kernel
  refine ⟨created, (offers_capacity_iff (3600 * 10 ^ 9) created (by decide) (by decide)
    (by decide +kernel) (by decide +kernel)).mpr ?_⟩
  unfold FullAfter
  rw [if_pos (by decide +kernel)]
  exact .inr (by decide)

/-- One token and three per second. -/
def threePerSecond : TokenBucketRegulator :=
  ⟨-333333333, toMilli 1 Nat.one_pos, toMilli 3 (by omega)⟩

/-- A new bucket that refuses its first call. -/
theorem first_debit_refused :
    TokenBucketRegulator.new (-10000000000) 0 1 3 = .ok threePerSecond ∧
      threePerSecond.tryDebitOne ⟨0, 0⟩ = (.error 333334, ⟨0, 0⟩) ∧
      ¬ threePerSecond.OffersExactly ⟨0, 0⟩ 1 := by
  have refused : threePerSecond.tryDebitOne ⟨0, 0⟩ = (.error 333334, ⟨0, 0⟩) := by decide +kernel
  refine ⟨by decide +kernel, refused, ?_⟩
  rintro ⟨wait, eq⟩
  rw [TokenBucketRegulator.tryDebits, refused] at eq
  cases (List.cons.inj eq).1

/-! ## Waits -/

section Wait

variable {d : Nat}

/-- The counter is covered by what has been generated, and readings of the clock are not from the
future. -/
structure Covered (b : TokenBucketRegulator) (g : Shared) (p : Pc) : Prop where
  since : b.start ≤ g.clock
  covered : g.consumedMilli ≤ b.uncappedGeneratedMilliAt g.clock
  reading : match p with
    | .loadConsumed now => now ≤ g.clock
    | .tryDebit now consumed nextConsumed =>
      now ≤ g.clock ∧ b.attempt now consumed = .debit nextConsumed
    | _ => True

/-- A debit is covered by what had been generated at its reading of the clock. -/
lemma Covered.debit {now consumed nextConsumed}
    (h : Covered b g (.tryDebit now consumed nextConsumed)) :
    nextConsumed ≤ b.uncappedGeneratedMilliAt g.clock :=
  (TokenBucketRegulator.debit_of_attempt h.reading.2).2.trans
    (b.uncappedGeneratedMilliAt_mono h.reading.1)

lemma Covered.own {g p a g' p'} (st : Local b g p a g' p') (h : Covered b g p) :
    Covered b g' p' := by
  cases st with
  | readClock => exact ⟨h.since, h.covered, le_rfl⟩
  | decide eq => exact ⟨h.since, h.covered, h.reading, eq⟩
  | debit _ => exact ⟨h.since, h.debit, trivial⟩
  | _ => exact ⟨h.since, h.covered, trivial⟩

lemma Covered.others {g p a g' p' q} (st : Local b g p a g' p') (h : Covered b g p)
    (other : Covered b g q) : Covered b g' q := by
  cases st with
  | debit _ => exact ⟨other.since, h.debit, other.reading⟩
  | _ => exact other

lemma Covered.tick {g now g' p} (st : Tick g now g') (h : Covered b g p) : Covered b g' p := by
  obtain ⟨le, rfl⟩ := st
  refine ⟨h.since.trans le, h.covered.trans (b.uncappedGeneratedMilliAt_mono le), ?_⟩
  have reading := h.reading
  cases p with
  | loadConsumed _ => exact le_trans reading le
  | tryDebit _ _ _ => exact ⟨reading.1.trans le, reading.2⟩
  | _ => trivial

lemma le_divCeil_mul (n : Nat) (pos : 0 < d) : n ≤ divCeil n d * d := by
  have split := Nat.div_add_mod' n d
  have lt := Nat.mod_lt n pos
  unfold divCeil
  split_ifs with rest
  · rw [Nat.add_mul]
    omega
  · omega

lemma elapsed_add {start now later : Int} {wait : Nat} (since : start ≤ now)
    (le : now + wait ≤ later) : (now - start).toNat + wait ≤ (later - start).toNat := by
  omega

/-- A wait for a deficit, rounded up, generates it. -/
lemma generated_after {now later : Instant} {deficit : Nat} (since : b.start ≤ now)
    (wait : now + (divCeil (deficit * 10 ^ 9) b.refillMilliPerSec.get : Nat) ≤ later)
    (fits : b.uncappedGeneratedMilliAt later < u128Max / 10 ^ 9) :
    b.uncappedGeneratedMilliAt now + deficit ≤ b.uncappedGeneratedMilliAt later := by
  have earlier : now ≤ later := (Int.le_add_of_nonneg_right (Int.natCast_nonneg _)).trans wait
  have fits' := lt_of_le_of_lt (b.uncappedGeneratedMilliAt_mono earlier) fits
  have elapsed := elapsed_add since wait
  have waited := le_divCeil_mul (deficit * 10 ^ 9) b.refillMilliPerSec.pos
  rw [TokenBucketRegulator.uncappedGeneratedMilliAt_eq fits',
    TokenBucketRegulator.uncappedGeneratedMilliAt_eq fits,
    ← Nat.add_mul_div_right _ _ (by decide)]
  refine Nat.div_le_div_right ?_
  calc (now - b.start).toNat * b.refillMilliPerSec.get + deficit * 10 ^ 9
    _ ≤ (now - b.start).toNat * b.refillMilliPerSec.get +
        divCeil (deficit * 10 ^ 9) b.refillMilliPerSec.get * b.refillMilliPerSec.get := by omega
    _ = ((now - b.start).toNat + divCeil (deficit * 10 ^ 9) b.refillMilliPerSec.get) *
        b.refillMilliPerSec.get := (Nat.add_mul ..).symm
    _ ≤ (later - b.start).toNat * b.refillMilliPerSec.get := Nat.mul_le_mul_right _ elapsed

/-- The start of a new bucket is not later than the reading of the clock. -/
lemma start_le {least now : Instant} {capacityTokens refillTokensPerSec : Nat}
    (created : TokenBucketRegulator.new least now capacityTokens refillTokensPerSec = .ok b) :
    b.start ≤ now := by
  obtain ⟨-, -, -, -, since⟩ := new_ok created
  rw [since, backdatedStartForFullBucket, Instant.checkedSub]
  split_ifs
  · exact Int.sub_le_self _ (Int.natCast_nonneg _)
  · exact le_rfl

lemma milliPerToken_le_capacity {least now : Instant} {capacityTokens refillTokensPerSec : Nat}
    (created : TokenBucketRegulator.new least now capacityTokens refillTokensPerSec = .ok b) :
    milliPerToken ≤ b.capacityMilli.get := by
  obtain ⟨pos, -, cap, -, -⟩ := new_ok created
  rw [cap]
  exact le_min (Nat.le_mul_of_pos_left _ pos) (by decide)

/-- The wait for less than a token fits `u64`. -/
lemma divCeil_le (n : Nat) (pos : 0 < d) : divCeil n d ≤ n := by
  have split := Nat.div_add_mod' n d
  have le : n / d ≤ n / d * d := Nat.le_mul_of_pos_right _ pos
  unfold divCeil
  split_ifs with rest
  · omega
  · omega

lemma attempt_of_error {wait} (refused : (b.tryDebitOne g).1 = .error wait) :
    b.attempt g.clock g.consumedMilli = .refuse wait := by
  rw [TokenBucketRegulator.tryDebitOne] at refused
  cases eq : b.attempt g.clock g.consumedMilli with
  | debit _ =>
    rw [eq] at refused
    cases refused
  | refuse _ =>
    rw [eq] at refused
    cases refused
    rfl

/-- A refused call reports the wait for what is missing, or that it is refused for good. -/
lemma refused_wait {now consumed wait} (refused : b.attempt now consumed = .refuse wait)
    (finite : wait ≠ Duration.max) :
    b.available now consumed < milliPerToken ∧
      wait = divCeil ((milliPerToken - b.available now consumed) * 10 ^ 9)
        b.refillMilliPerSec.get := by
  rcases Nat.lt_or_ge (b.available now consumed) milliPerToken with short | enough
  · rw [TokenBucketRegulator.attempt_refuse short] at refused
    have fits : divCeil ((milliPerToken - b.available now consumed) * 10 ^ 9)
        b.refillMilliPerSec.get ≤ u64Max := by
      refine (divCeil_le _ b.refillMilliPerSec.pos).trans ?_
      simp only [milliPerToken, u64Max]
      omega
    rw [min_eq_left fits] at refused
    exact ⟨short, (TokenBucketRegulator.Attempt.refuse.inj refused).symm⟩
  · -- the token was there and only the counter had no room
    rw [TokenBucketRegulator.available, TokenBucketRegulator.effectiveConsumed] at enough
    simp only [TokenBucketRegulator.attempt, if_pos enough] at refused
    split_ifs at refused
    cases refused
    exact absurd rfl finite

namespace TokenBucketRegulator

/-- The decision of a round of `try_debit_one` with the sums, differences and products of `u128` as
the machine has them. The product of the elapsed time saturates in the source, and so do the
differences of `effective_consumed` and `available`. -/
def attemptU128 (b : TokenBucketRegulator) (now : Instant) (consumed : Nat) : Attempt :=
  let generated := b.uncappedGeneratedMilliAt now
  let effectiveConsumed := max consumed (generated - b.capacityMilli.get)
  let available := generated - effectiveConsumed
  if milliPerToken ≤ available then
    let nextConsumed := (effectiveConsumed + milliPerToken) % 2 ^ 128
    if nextConsumed ≤ u64Max then .debit nextConsumed else .refuse Duration.max
  else
    let deficitMilli := (milliPerToken + (2 ^ 128 - available)) % 2 ^ 128
    let deficitNanos := deficitMilli * 10 ^ 9 % 2 ^ 128
    let waitNanos :=
      if 0 < deficitNanos % b.refillMilliPerSec.get then
        (deficitNanos / b.refillMilliPerSec.get + 1) % 2 ^ 128
      else deficitNanos / b.refillMilliPerSec.get
    .refuse (min waitNanos u64Max)

/-- Nothing wraps, whatever the capacity, the rate and the counter. -/
lemma attemptU128_eq (b : TokenBucketRegulator) (now : Instant) {consumed : Nat}
    (fits : consumed ≤ u64Max) : b.attemptU128 now consumed = b.attempt now consumed := by
  have generated : b.uncappedGeneratedMilliAt now ≤ u128Max / 10 ^ 9 :=
    Nat.div_le_div_right (min_le_right _ _)
  have room : max consumed (b.uncappedGeneratedMilliAt now - b.capacityMilli.get) + milliPerToken <
      2 ^ 128 := by
    simp only [u128Max, u64Max, milliPerToken] at generated fits ⊢
    omega
  simp only [attemptU128, attempt, Nat.mod_eq_of_lt room]
  split
  · rfl
  next short =>
    rw [not_le] at short
    generalize b.uncappedGeneratedMilliAt now -
      max consumed (b.uncappedGeneratedMilliAt now - b.capacityMilli.get) = available at short ⊢
    have deficit : (milliPerToken + (2 ^ 128 - available)) % 2 ^ 128 =
        milliPerToken - available := by
      simp only [milliPerToken] at short ⊢
      omega
    have nanos : (milliPerToken - available) * 10 ^ 9 < 2 ^ 127 := by
      simp only [milliPerToken]
      omega
    have quotient :
        (milliPerToken - available) * 10 ^ 9 / b.refillMilliPerSec.get + 1 < 2 ^ 128 := by
      have le := Nat.div_le_self ((milliPerToken - available) * 10 ^ 9) b.refillMilliPerSec.get
      omega
    rw [deficit, Nat.mod_eq_of_lt (nanos.trans (by decide)), Nat.mod_eq_of_lt quotient, divCeil]

end TokenBucketRegulator

/-- The reported wait suffices. Whatever the callers have done, after the wait that a refused
call reports the next one succeeds, if its counter fits; and nothing wraps in a call. -/
theorem wait_suffices {least clock : Instant} {capacityTokens refillTokensPerSec : Nat} {tr}
    {s : Bucket}
    (created : TokenBucketRegulator.new least clock capacityTokens refillTokensPerSec = .ok b)
    (run : Run (BucketStep b) (.start clock) tr s) :
    (∀ now wait later, s.shared.clock ≤ now →
      (b.tryDebitOne { s.shared with clock := now }).1 = .error wait → wait ≠ Duration.max →
      now + (wait : Nat) ≤ later →
      b.effectiveConsumed later s.shared.consumedMilli + milliPerToken ≤ u64Max →
      (b.tryDebitOne { s.shared with clock := later }).1 = .ok ()) ∧
    ∀ (b : TokenBucketRegulator) now consumed, consumed ≤ u64Max →
      b.attemptU128 now consumed = b.attempt now consumed := by
  refine ⟨?_, fun b now _ => b.attemptU128_eq now⟩
  intro now wait later notBefore refused finite waited room
  have start : ∀ i, Covered b (Bucket.start clock).shared ((Bucket.start clock).pc i) :=
    fun _ => ⟨start_le created, Nat.zero_le _, trivial⟩
  obtain ⟨covered, -⟩ := run_all .own .others .tick start run
  have since := (covered 0).since.trans notBefore
  have consumed := (covered 0).covered.trans (b.uncappedGeneratedMilliAt_mono notBefore)
  obtain ⟨short, rfl⟩ := refused_wait (attempt_of_error refused) finite
  have holds := milliPerToken_le_capacity created
  have lt := b.capacityMilli.lt
  have unsaturated : b.uncappedGeneratedMilliAt later < u128Max / 10 ^ 9 := by
    simp only [TokenBucketRegulator.effectiveConsumed, u64Max, u128Max] at room ⊢
    omega
  have grown := generated_after since waited unsaturated
  have enough : milliPerToken ≤ b.available later s.shared.consumedMilli := by
    simp only [TokenBucketRegulator.available, TokenBucketRegulator.effectiveConsumed,
      milliPerToken] at short grown holds ⊢
    omega
  rw [TokenBucketRegulator.tryDebitOne, TokenBucketRegulator.attempt_debit enough room]

/-- A token is taken, the next call is told to wait for a second, and after it there is a token. -/
theorem wait_suffices_oneToken :
    ∃ tr s, Run (BucketStep oneToken) (.start 0) tr s ∧
      (oneToken.tryDebitOne { s.shared with clock := 0 }).1 = .error (10 ^ 9) ∧
      (oneToken.tryDebitOne { s.shared with clock := 10 ^ 9 }).1 = .ok () := by
  have created : TokenBucketRegulator.new (-10000000000) 0 1 1 = .ok oneToken := by decide +kernel
  have first : oneToken.attempt 0 0 = .debit 1000 := by decide
  have run : Run (BucketStep oneToken) (.start 0) _ _ :=
    .cons (.act (i := 0) .call) <| .cons (.act (i := 0) .readClock) <|
    .cons (.act (i := 0) (.decide first)) <| .cons (.act (i := 0) (.debit rfl)) .nil
  have refused : (oneToken.tryDebitOne ⟨0, 1000⟩).1 = .error (10 ^ 9) := by decide +kernel
  exact ⟨_, _, run, refused, (wait_suffices created run).1 0 (10 ^ 9) (10 ^ 9) le_rfl refused
    (by decide) (by decide) (by decide)⟩

end Wait

end CherryPit.TokenBucket
