import CherryPit.Conc.Threads
import CherryPit.Core.Event

/-!
# The budget gate

Port of `cherry-pit-wq/src/budget.rs` (`BudgetGate::acquire`, `BudgetGate::refund`, `ResetGuard`)
and of the adapter in `cherry-pit-wq/src/regulator.rs` (`BudgetRegulator::admit`, `settle`). Every
atomic load, compare-exchange and store of `acquire` and `refund` is one step; an interleaving is a
run of `Conc.Threads` over the gate. `Local` is what one step of one caller does, `next` is the same
as a function.

Rust → Lean: a program point of a call is a `Pc`, named after the operation it is about to perform.
A caller makes one `acquire` and, if it was admitted, at most one `settle`, or it makes one bare
`refund`; a worker that comes back is another caller. `?`-free control flow after the guard is
dropped is `Exit`. A weak compare-exchange may fail at any time.

`epoch_advanced` is the number of `notify_waiters` calls so far: a `Notified` future remembers the
number at its creation and is woken exactly if the number has moved since. An abort drops the call
at one of its three awaits; dropping it inside the elected section runs the guard's two steps, as a
panic of the policy does. Log lines and `pause_notify` are left out: nothing here reads them.
-/

namespace CherryPit.Budget

open Conc

/-- Outcome of consulting a replenish policy (Rust `Replenished`). -/
inductive Replenished where
  | ceiling (c : NonZeroU64)
  | cancelled
  | unavailable
  deriving DecidableEq

/-- What to report about an admitted job (Rust `SettleOutcome`). -/
inductive SettleOutcome where
  | charged
  | free
  deriving DecidableEq

/-- The shared state of the gate (Rust `BudgetGate`). -/
structure BudgetGate where
  calls : Nat
  totalCalls : Nat
  limit : NonZeroU64
  resetting : Bool
  epochAdvanced : Nat
  replenishPolicy : Bool
  deriving DecidableEq

/-- Rust `BudgetGate::new`. -/
def BudgetGate.new (limit : NonZeroU64) : BudgetGate where
  calls := 0
  totalCalls := 0
  limit := limit
  resetting := false
  epochAdvanced := 0
  replenishPolicy := false

/-- Rust `BudgetGate::with_replenish_policy`. -/
def BudgetGate.withReplenishPolicy (g : BudgetGate) : BudgetGate :=
  { g with replenishPolicy := true }

/-- Where a call goes once its guard is dropped: around the loop, out with `false`, or nowhere. -/
inductive Exit where
  | again
  | giveUp
  | unwind
  deriving DecidableEq

/-- The program points of a call. `limit` is the snapshot of the round, `current` the value loaded
before a compare-exchange, `since` the `notify_waiters` count at the creation of a `Notified`. -/
inductive Pc where
  | idle
  | loadLimit
  | loadCalls (limit : NonZeroU64)
  | tryAcquire (limit : NonZeroU64) (current : Nat)
  | countTotal
  | elect (limit : NonZeroU64)
  | recheckElected (limit : NonZeroU64)
  | lockPolicy
  | replenish
  | storeLimit (ceiling : NonZeroU64)
  | storeCalls
  | sleep
  | dropGuard (exit : Exit)
  | notifyWaiters (exit : Exit)
  | register (limit : NonZeroU64)
  | recheckParked (limit : NonZeroU64) (since : Nat)
  | parked (since : Nat)
  | returned (admitted : Bool)
  | loadRefund
  | tryRefund (current : Nat)
  | done
  | unwound
  deriving DecidableEq

/-- What a step of a call does. -/
inductive Event where
  | acquire
  | refund
  | settle (outcome : SettleOutcome)
  | limitLoaded
  | callsLoaded
  | granted
  | casFailed
  | counted
  | elected
  | outvoted
  | rechecked
  | consulted
  | sleeping
  | replenished (r : Replenished)
  | panicked
  | aborted
  | limitStored
  | slept
  | cancelled
  | callsReset
  | guardDropped
  | notified
  | registered
  | woken
  | refundLoaded
  | refunded
  deriving DecidableEq

/-- The point after the guard is dropped. -/
def Exit.pc : Exit → Pc
  | .again => .loadLimit
  | .giveUp => .returned false
  | .unwind => .unwound

/-- The point after the policy has answered. -/
def Replenished.pc : Replenished → Pc
  | .ceiling c => .storeLimit c
  | .cancelled => .dropGuard .giveUp
  | .unavailable => .dropGuard .giveUp

/-- One atomic step of one caller of `acquire`, `refund` or `settle`. -/
inductive Local : BudgetGate → Pc → Event → BudgetGate → Pc → Prop where
  | acquire {g} :
    Local g .idle .acquire g .loadLimit
  | loadLimit {g} :
    Local g .loadLimit .limitLoaded g (.loadCalls g.limit)
  | below {g limit} :
    g.calls < limit.get →
    Local g (.loadCalls limit) .callsLoaded g (.tryAcquire limit g.calls)
  | exhausted {g limit} :
    limit.get ≤ g.calls →
    Local g (.loadCalls limit) .callsLoaded g (.elect limit)
  | grant {g limit current} :
    g.calls = current →
    Local g (.tryAcquire limit current) .granted { g with calls := current + 1 } .countTotal
  -- the counter has moved, or the weak exchange failed for no reason
  | casFailed {g limit current} :
    Local g (.tryAcquire limit current) .casFailed g .loadLimit
  | count {g} :
    Local g .countTotal .counted { g with totalCalls := (g.totalCalls + 1) % 2 ^ 64 }
      (.returned true)
  | elect {g limit} :
    g.resetting = false →
    Local g (.elect limit) .elected { g with resetting := true } (.recheckElected limit)
  | outvoted {g limit} :
    g.resetting = true →
    Local g (.elect limit) .outvoted g (.register limit)
  | reopened {g limit} :
    g.calls < limit.get →
    Local g (.recheckElected limit) .rechecked g (.dropGuard .again)
  | closed {g limit} :
    limit.get ≤ g.calls →
    Local g (.recheckElected limit) .rechecked g .lockPolicy
  | consult {g} :
    g.replenishPolicy = true →
    Local g .lockPolicy .consulted g .replenish
  | startSleep {g} :
    g.replenishPolicy = false →
    Local g .lockPolicy .sleeping g .sleep
  | replenished {g r} :
    Local g .replenish (.replenished r) g r.pc
  | panicked {g} :
    Local g .replenish .panicked g (.dropGuard .unwind)
  | abortReplenish {g} :
    Local g .replenish .aborted g (.dropGuard .unwind)
  | storeLimit {g ceiling} :
    Local g (.storeLimit ceiling) .limitStored { g with limit := ceiling } .storeCalls
  | slept {g} :
    Local g .sleep .slept g .storeCalls
  | cancelSleep {g} :
    Local g .sleep .cancelled g (.dropGuard .giveUp)
  | abortSleep {g} :
    Local g .sleep .aborted g (.dropGuard .unwind)
  | storeCalls {g} :
    Local g .storeCalls .callsReset { g with calls := 0 } (.dropGuard .again)
  | dropGuard {g exit} :
    Local g (.dropGuard exit) .guardDropped { g with resetting := false } (.notifyWaiters exit)
  | notify {g exit} :
    Local g (.notifyWaiters exit) .notified { g with epochAdvanced := g.epochAdvanced + 1 } exit.pc
  | register {g limit} :
    Local g (.register limit) .registered g (.recheckParked limit g.epochAdvanced)
  | retry {g limit since} :
    g.calls < limit.get →
    Local g (.recheckParked limit since) .rechecked g .loadLimit
  | park {g limit since} :
    limit.get ≤ g.calls →
    Local g (.recheckParked limit since) .rechecked g (.parked since)
  -- some `notify_waiters` came after the registration
  | wake {g since} :
    since ≠ g.epochAdvanced →
    Local g (.parked since) .woken g .loadLimit
  | cancelParked {g since} :
    Local g (.parked since) .cancelled g (.returned false)
  | abortParked {g since} :
    Local g (.parked since) .aborted g .unwound
  | settleCharged {g} :
    Local g (.returned true) (.settle .charged) g .done
  | settleFree {g} :
    Local g (.returned true) (.settle .free) g .loadRefund
  | refund {g} :
    Local g .idle .refund g .loadRefund
  -- `refund` saturates at zero
  | refundEmpty {g} :
    g.calls = 0 →
    Local g .loadRefund .refundLoaded g .done
  | loadRefund {g} :
    g.calls ≠ 0 →
    Local g .loadRefund .refundLoaded g (.tryRefund g.calls)
  | refunded {g current} :
    g.calls = current →
    Local g (.tryRefund current) .refunded { g with calls := current - 1 } .done
  | refundFailed {g current} :
    Local g (.tryRefund current) .casFailed g .loadRefund

/-- How a step moves the counter: a grant adds one, a refund takes one, a reset zeroes it, and
nothing else touches it. -/
lemma Local.counter {g p a g' p'} (st : Local g p a g' p') :
    (a = .granted ∧ (∃ limit, p = .tryAcquire limit g.calls) ∧ g'.calls = g.calls + 1) ∨
    (a = .refunded ∧ p = .tryRefund g.calls ∧ g'.calls = g.calls - 1) ∨
    (a = .callsReset ∧ p = .storeCalls ∧ g'.calls = 0) ∨
    (a ≠ .granted ∧ a ≠ .refunded ∧ a ≠ .callsReset ∧ g'.calls = g.calls) := by
  cases st with
  | grant e =>
    subst e
    exact .inl ⟨rfl, ⟨_, rfl⟩, rfl⟩
  | refunded e =>
    subst e
    exact .inr (.inl ⟨rfl, rfl, rfl⟩)
  | storeCalls => exact .inr (.inr (.inl ⟨rfl, rfl, rfl⟩))
  | _ => exact .inr (.inr (.inr ⟨nofun, nofun, nofun, rfl⟩))

/-- How a step moves the limit: only the store of a ceiling touches it. -/
lemma Local.limit {g p a g' p'} (st : Local g p a g' p') :
    (∃ c, p = .storeLimit c ∧ p' = .storeCalls ∧ g'.limit = c) ∨
    ((∀ c, p ≠ .storeLimit c) ∧ g'.limit = g.limit) := by
  cases st with
  | storeLimit => exact .inl ⟨_, rfl, rfl, rfl⟩
  | _ => exact .inr ⟨nofun, rfl⟩

/-- No step attaches or detaches a policy. -/
lemma Local.policy {g p a g' p'} (st : Local g p a g' p') :
    g'.replenishPolicy = g.replenishPolicy := by
  cases st <;> rfl

/-- What others do to the gate: Rust `set_epoch_limit` and `set_replenish_policy`. -/
inductive Resize where
  | setEpochLimit (limit : NonZeroU64)
  | setReplenishPolicy
  deriving DecidableEq

/-- The effect of a resize. -/
def Resize.apply (g : BudgetGate) : Resize → BudgetGate
  | .setEpochLimit limit => { g with limit := limit }
  | .setReplenishPolicy => { g with replenishPolicy := true }

/-- The gate with its callers. -/
abbrev Gate := Threads BudgetGate Pc

/-- Steps of a gate that may be resized at any time. -/
abbrev GateStep : Gate → Threads.Label Event Resize → Gate → Prop :=
  Threads.Step Local fun g b g' => g' = b.apply g

/-- Steps of a gate that nobody resizes. -/
abbrev FixedStep : Gate → Threads.Label Event Empty → Gate → Prop :=
  Threads.Step Local fun _ _ _ => False

/-- A gate before its first call. -/
def Gate.start (g : BudgetGate) : Gate := Threads.start g .idle

/-- `Local` as a function: what an event does at a program point, if it can happen there. -/
def next (g : BudgetGate) (p : Pc) (a : Event) : Option (BudgetGate × Pc) :=
  match p with
  | .idle =>
    match a with
    | .acquire => some (g, .loadLimit)
    | .refund => some (g, .loadRefund)
    | _ => none
  | .loadLimit => if a = .limitLoaded then some (g, .loadCalls g.limit) else none
  | .loadCalls limit =>
    if a = .callsLoaded then
      some (g, if g.calls < limit.get then .tryAcquire limit g.calls else .elect limit)
    else none
  | .tryAcquire _ current =>
    match a with
    | .granted =>
      if g.calls = current then some ({ g with calls := current + 1 }, .countTotal) else none
    | .casFailed => some (g, .loadLimit)
    | _ => none
  | .countTotal =>
    if a = .counted then
      some ({ g with totalCalls := (g.totalCalls + 1) % 2 ^ 64 }, .returned true)
    else none
  | .elect limit =>
    match a with
    | .elected =>
      if g.resetting then none else some ({ g with resetting := true }, .recheckElected limit)
    | .outvoted => if g.resetting then some (g, .register limit) else none
    | _ => none
  | .recheckElected limit =>
    if a = .rechecked then
      some (g, if g.calls < limit.get then .dropGuard .again else .lockPolicy)
    else none
  | .lockPolicy =>
    match a with
    | .consulted => if g.replenishPolicy then some (g, .replenish) else none
    | .sleeping => if g.replenishPolicy then none else some (g, .sleep)
    | _ => none
  | .replenish =>
    match a with
    | .replenished r => some (g, r.pc)
    | .panicked => some (g, .dropGuard .unwind)
    | .aborted => some (g, .dropGuard .unwind)
    | _ => none
  | .storeLimit ceiling =>
    if a = .limitStored then some ({ g with limit := ceiling }, .storeCalls) else none
  | .storeCalls =>
    if a = .callsReset then some ({ g with calls := 0 }, .dropGuard .again) else none
  | .sleep =>
    match a with
    | .slept => some (g, .storeCalls)
    | .cancelled => some (g, .dropGuard .giveUp)
    | .aborted => some (g, .dropGuard .unwind)
    | _ => none
  | .dropGuard exit =>
    if a = .guardDropped then some ({ g with resetting := false }, .notifyWaiters exit) else none
  | .notifyWaiters exit =>
    if a = .notified then
      some ({ g with epochAdvanced := g.epochAdvanced + 1 }, exit.pc)
    else none
  | .register limit =>
    if a = .registered then some (g, .recheckParked limit g.epochAdvanced) else none
  | .recheckParked limit since =>
    if a = .rechecked then
      some (g, if g.calls < limit.get then .loadLimit else .parked since)
    else none
  | .parked since =>
    match a with
    | .woken => if since = g.epochAdvanced then none else some (g, .loadLimit)
    | .cancelled => some (g, .returned false)
    | .aborted => some (g, .unwound)
    | _ => none
  | .returned true =>
    match a with
    | .settle .charged => some (g, .done)
    | .settle .free => some (g, .loadRefund)
    | _ => none
  | .loadRefund =>
    if a = .refundLoaded then
      some (g, if g.calls = 0 then .done else .tryRefund g.calls)
    else none
  | .tryRefund current =>
    match a with
    | .refunded => if g.calls = current then some ({ g with calls := current - 1 }, .done) else none
    | .casFailed => some (g, .loadRefund)
    | _ => none
  | .returned false | .done | .unwound => none

/-- The function and the relation agree. -/
lemma next_eq_some {g p a g' p'} : next g p a = some (g', p') ↔ Local g p a g' p' := by
  constructor
  · intro h
    unfold next at h
    repeat' split at h
    all_goals cases h
    all_goals
      subst_vars
      constructor
    all_goals simp_all
  · intro h
    cases h <;> simp_all [next]

end CherryPit.Budget
