import CherryPit.Conc.Threads
import CherryPit.Core.Event

/-!
# The token bucket

Port of `cherry-pit-wq/src/token_bucket.rs` (`TokenBucketRegulator::{new, try_debit_one, admit}`).
The reading of the clock, the load of `consumed_milli` and the compare-exchange are three steps of a
caller, as in the source; an interleaving is a run of `Conc.Threads` over the counter and the clock.

Rust → Lean: an `Instant` is a number of nanoseconds from a fixed origin; `checked_sub` fails below
the least instant of the platform, which is a parameter. A `Duration` is its number of nanoseconds;
the distance of two instants always fits one. `u64::try_from(n).unwrap_or(u64::MAX)` is a minimum.
A weak compare-exchange may fail at any time. A caller makes one `admit`; whoever calls
`try_debit_one` by itself and is refused stays at `waiting` for good. `settle` is the trait's no-op.
-/

namespace CherryPit.TokenBucket

open Conc

/-- Rust `Instant`, in nanoseconds. -/
abbrev Instant := Int

/-- Rust `Duration`, in nanoseconds. -/
abbrev Duration := Nat

/-- Rust `Duration::MAX`. -/
def Duration.max : Duration := 2 ^ 64 * 10 ^ 9 - 1

/-- Rust `u64::MAX`. -/
def u64Max : Nat := 2 ^ 64 - 1

/-- Rust `u128::MAX`. -/
def u128Max : Nat := 2 ^ 128 - 1

/-- Rust `div_ceil`. -/
def divCeil (n d : Nat) : Nat := if 0 < n % d then n / d + 1 else n / d

/-- Rust `MILLI_PER_TOKEN`. -/
def milliPerToken : Nat := 1000

/-- Rust `Instant::checked_sub`, on a platform with the given least instant. -/
def Instant.checkedSub (least now : Instant) (d : Duration) : Option Instant :=
  if least ≤ now - d then some (now - d) else none

/-- Rust `backdated_start_for_full_bucket`. -/
def backdatedStartForFullBucket (least now : Instant) (capacityMilli refillMilliPerSec : Nat) :
    Instant :=
  let fillNanos := capacityMilli * 10 ^ 9 / refillMilliPerSec
  (Instant.checkedSub least now (min fillNanos u64Max)).getD now

/-- A whole number of tokens in thousandths (Rust `saturating_mul(MILLI_PER_TOKEN)`). -/
def toMilli (tokens : Nat) (pos : 0 < tokens) : NonZeroU64 where
  get := min (tokens * milliPerToken) u64Max
  pos := by
    simp only [milliPerToken, u64Max]
    omega
  lt := by
    simp only [milliPerToken, u64Max]
    omega

/-- The immutable part of the regulator (Rust `TokenBucketRegulator`). -/
structure TokenBucketRegulator where
  start : Instant
  capacityMilli : NonZeroU64
  refillMilliPerSec : NonZeroU64
  deriving DecidableEq

/-- Rust `TokenBucketRegulator::new`, with the reading of the clock it makes; the errors are the
messages of its panics. -/
def TokenBucketRegulator.new (least now : Instant) (capacityTokens refillTokensPerSec : Nat) :
    Except String TokenBucketRegulator :=
  if hc : 0 < capacityTokens then
    if hr : 0 < refillTokensPerSec then
      let capacityMilli := toMilli capacityTokens hc
      let refillMilliPerSec := toMilli refillTokensPerSec hr
      .ok {
        start := backdatedStartForFullBucket least now capacityMilli.get refillMilliPerSec.get
        capacityMilli := capacityMilli
        refillMilliPerSec := refillMilliPerSec }
    else .error "token bucket refill rate must be > 0"
  else .error "token bucket capacity must be > 0"

variable (b : TokenBucketRegulator)

namespace TokenBucketRegulator

/-- Rust `uncapped_generated_milli_at`. -/
def uncappedGeneratedMilliAt (now : Instant) : Nat :=
  let elapsedNanos := (now - b.start).toNat
  min (elapsedNanos * b.refillMilliPerSec.get) u128Max / 10 ^ 9

/-- The supply grows with the clock. -/
lemma uncappedGeneratedMilliAt_mono : Monotone b.uncappedGeneratedMilliAt := by
  intro x y le
  have elapsed : (x - b.start).toNat ≤ (y - b.start).toNat :=
    Int.toNat_le_toNat (Int.sub_le_sub_right le _)
  exact Nat.div_le_div_right (min_le_min_right _ (Nat.mul_le_mul_right _ elapsed))

/-- What a round of `try_debit_one` decides on: a value to store, or a wait to report. -/
inductive Attempt where
  | debit (nextConsumed : Nat)
  | refuse (wait : Duration)
  deriving DecidableEq

/-- The decision of a round of `try_debit_one`, from its two readings. -/
def attempt (now : Instant) (consumed : Nat) : Attempt :=
  let generated := b.uncappedGeneratedMilliAt now
  -- what the bucket could not hold counts as consumed
  let effectiveConsumed := max consumed (generated - b.capacityMilli.get)
  let available := generated - effectiveConsumed
  if milliPerToken ≤ available then
    -- a counter that would not fit `u64` refuses for good
    let nextConsumed := effectiveConsumed + milliPerToken
    if nextConsumed ≤ u64Max then .debit nextConsumed else .refuse Duration.max
  else
    let deficitMilli := milliPerToken - available
    let waitNanos := divCeil (deficitMilli * 10 ^ 9) b.refillMilliPerSec.get
    .refuse (min waitNanos u64Max)

end TokenBucketRegulator

/-- What the callers share: the reading the clock would give now, and the counter. -/
structure Shared where
  clock : Instant
  consumedMilli : Nat
  deriving DecidableEq

/-- The program points of a call, named after the operation it is about to perform. -/
inductive Pc where
  | idle
  | readClock
  | loadConsumed (now : Instant)
  | tryDebit (now : Instant) (consumed nextConsumed : Nat)
  | waiting (wait : Duration)
  | admitted
  | cancelled
  deriving DecidableEq

/-- What a step of a call does; a debit is marked with the clock reading it was decided on. -/
inductive Event where
  | called
  | clockRead
  | consumedLoaded
  | debited (now : Instant)
  | casFailed
  | slept
  | cancelled
  deriving DecidableEq

/-- One atomic step of one caller of `admit`. -/
inductive Local : Shared → Pc → Event → Shared → Pc → Prop where
  | call {g} :
    Local g .idle .called g .readClock
  | readClock {g} :
    Local g .readClock .clockRead g (.loadConsumed g.clock)
  | decide {g now nextConsumed} :
    b.attempt now g.consumedMilli = .debit nextConsumed →
    Local g (.loadConsumed now) .consumedLoaded g (.tryDebit now g.consumedMilli nextConsumed)
  | refuse {g now wait} :
    b.attempt now g.consumedMilli = .refuse wait →
    Local g (.loadConsumed now) .consumedLoaded g (.waiting wait)
  | debit {g now consumed nextConsumed} :
    g.consumedMilli = consumed →
    Local g (.tryDebit now consumed nextConsumed) (.debited now)
      { g with consumedMilli := nextConsumed } .admitted
  | casFailed {g now consumed nextConsumed} :
    Local g (.tryDebit now consumed nextConsumed) .casFailed g .readClock
  | slept {g wait} :
    Local g (.waiting wait) .slept g .readClock
  | cancelled {g wait} :
    Local g (.waiting wait) .cancelled g .cancelled

/-- The clock moves on to a later reading. -/
def Tick (g : Shared) (now : Instant) (g' : Shared) : Prop :=
  g.clock ≤ now ∧ g' = { g with clock := now }

/-- The bucket with its callers. -/
abbrev Bucket := Threads Shared Pc

/-- Steps of the callers and of the clock. -/
abbrev BucketStep : Bucket → Threads.Label Event Instant → Bucket → Prop :=
  Threads.Step (Local b) Tick

/-- A bucket before its first call. -/
def Bucket.start (clock : Instant) : Bucket := Threads.start ⟨clock, 0⟩ .idle

end CherryPit.TokenBucket
