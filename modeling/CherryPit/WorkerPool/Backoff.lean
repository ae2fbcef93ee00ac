import CherryPit.WorkerPool.HeldBack

/-!
# Pauses of a pool

Port of `cherry-pit-wq/src/backoff.rs` (`BackoffRegulator`). A call of `set_backoff` tells a pool to
pause until an instant. `not_before_resumeAt` says what a pool makes of it: whatever the other
regulators of the chain are, a worker that has not asked this one yet executes its next job at that
instant or later, also if other calls ask for a shorter pause.

Rust → Lean: the clock is part of the shared state and goes forward by steps of the environment;
each reading of it is a step of the caller. A sleep is over at its deadline or later, and it may be
cut short while the cancellation token is up. `Regulator.left` and `Regulator.right` put regulators
over different states into one chain.
-/

namespace CherryPit.WorkerPool.Regulated

open Conc Threads WorkQueue
open Budget (BudgetGate SettleOutcome)

variable {b : Backoff}

/-! ## Regulators side by side -/

section Beside

variable {Γ Δ Q P B D E F : Type}

/-- One step on the left of a pair. -/
inductive LeftStep (step : Γ → Q → B → Γ → Q → Prop) :
    Γ × Δ → Q ⊕ P → B ⊕ D → Γ × Δ → Q ⊕ P → Prop where
  | left {g q b g' q' d} :
    step g q b g' q' →
    LeftStep step (g, d) (.inl q) (.inl b) (g', d) (.inl q')

/-- One step on the right of a pair. -/
inductive RightStep (step : Δ → P → D → Δ → P → Prop) :
    Γ × Δ → Q ⊕ P → B ⊕ D → Γ × Δ → Q ⊕ P → Prop where
  | right {g d p b d' p'} :
    step d p b d' p' →
    RightStep step (g, d) (.inr p) (.inr b) (g, d') (.inr p')

/-- A regulator that acts on the left of the shared state. -/
def Regulator.left (reg : Regulator Γ Q B) : Regulator (Γ × Δ) (Q ⊕ P) (B ⊕ D) where
  start := .inl reg.start
  step := LeftStep reg.step
  answer q := q.getLeft?.bind reg.answer
  settle so := .inl (reg.settle so)
  settled q := q.getLeft?.bind reg.settled

/-- A regulator that acts on the right of the shared state. -/
def Regulator.right (reg : Regulator Δ P D) : Regulator (Γ × Δ) (Q ⊕ P) (B ⊕ D) where
  start := .inr reg.start
  step := RightStep reg.step
  answer q := q.getRight?.bind reg.answer
  settle so := .inr (reg.settle so)
  settled q := q.getRight?.bind reg.settled

/-- The others act on the left or on the right. -/
inductive BesideEnv (env : Γ → E → Γ → Prop) (env' : Δ → F → Δ → Prop) :
    Γ × Δ → E ⊕ F → Γ × Δ → Prop where
  | left {g e g' d} :
    env g e g' →
    BesideEnv env env' (g, d) (.inl e) (g', d)
  | right {g d e d'} :
    env' d e d' →
    BesideEnv env env' (g, d) (.inr e) (g, d')

/-- Each regulator acts on the left, but for one on the right. -/
def Beside (reg : Regulator Δ P D) (chain : List (Regulator (Γ × Δ) (Q ⊕ P) (B ⊕ D))) : Prop :=
  ∀ r ∈ chain, r = reg.right ∨ ∃ l : Regulator Γ Q B, r = l.left

variable {reg : Regulator Δ P D} {Moves : Δ → Δ → Prop} {armed after : Δ → Prop}
  {I : Δ → P → Prop}

/-- What a regulator guarantees it guarantees on the right of a pair. -/
lemma HoldsBack.right (h : HoldsBack reg Moves armed after I) :
    HoldsBack (reg.right : Regulator (Γ × Δ) (Q ⊕ P) (B ⊕ D)) (fun g g' => Moves g.2 g'.2)
      (fun g => armed g.2) (fun g => after g.2) (fun g q => ∃ p, q = .inr p ∧ I g.2 p) where
  start arm := ⟨_, rfl, h.start arm⟩
  step {g q b g' q'} arm held st := by
    obtain ⟨p, rfl, held⟩ := held
    cases st with
    | right st => exact ⟨_, rfl, h.step arm held st⟩
  moves {g g' q} arm held moves := by
    obtain ⟨p, rfl, held⟩ := held
    exact ⟨p, rfl, h.moves arm held moves⟩
  admitted {g q} arm held answer := by
    obtain ⟨p, rfl, held⟩ := held
    exact h.admitted arm held answer
  armed_moves arm moves := h.armed_moves arm moves
  after_moves arm done moves := h.after_moves arm done moves

/-- Regulators beside each other move their own states. -/
lemma Beside.bounded {chain : List (Regulator (Γ × Δ) (Q ⊕ P) (B ⊕ D))}
    {env : Γ → E → Γ → Prop} {env' : Δ → F → Δ → Prop} (beside : Beside reg chain)
    (refl : ∀ d, Moves d d) (step : ∀ {d p b d' p'}, reg.step d p b d' p' → Moves d d')
    (act : ∀ {d e d'}, env' d e d' → Moves d d') :
    Bounded chain (BesideEnv env env') fun g g' => Moves g.2 g'.2 where
  step {r g q b g' q'} mem st := by
    rcases beside r mem with rfl | ⟨l, rfl⟩
    · cases st with
      | right st => exact step st
    · cases st with
      | left => exact refl _
  env {g e g'} st := by
    cases st with
    | left => exact refl _
    | right st => exact act st

end Beside

/-! ## The backoff regulator -/

/-- Rust `u64::MAX`. -/
def u64Max : Nat := 2 ^ 64 - 1

/-- Rust `BackoffRegulator`. -/
structure Backoff where
  origin : Instant
  resumeAtNanos : Nat

/-- Rust `BackoffRegulator::new`. -/
def Backoff.new (now : Instant) : Backoff := ⟨now, 0⟩

/-- Rust `BackoffRegulator::set_backoff`. -/
def Backoff.setBackoff (b : Backoff) (resumeAt : Instant) : Backoff :=
  { b with resumeAtNanos := max b.resumeAtNanos (min (resumeAt - b.origin).toNat u64Max) }

/-- Rust `BackoffRegulator::resume_at`. -/
def Backoff.resumeAt (b : Backoff) : Option Instant :=
  if b.resumeAtNanos = 0 then none else some (b.origin + b.resumeAtNanos)

/-- A backoff, the clock and the cancellation token. -/
structure Timed where
  backoff : Backoff
  now : Instant
  cancelled : Bool

/-- The points of a call of `admit`. -/
inductive BackoffPc where
  | load
  | clock (resumeAt : Instant)
  | pause (duration : Duration)
  | sleep (deadline : Instant)
  | returned (admission : Admission)
  | done

/-- What a step of `admit` does. -/
inductive BackoffEvent where
  | loaded (resumeAt : Option Instant)
  | clock (now : Instant)
  | sleeping
  | slept
  | cancelled

/-- One step of `admit`. -/
inductive BackoffStep : Timed → BackoffPc → BackoffEvent → Timed → BackoffPc → Prop where
  | unarmed {t} :
    t.backoff.resumeAt = none →
    BackoffStep t .load (.loaded none) t (.returned .admitted)
  | armed {t resumeAt} :
    t.backoff.resumeAt = some resumeAt →
    BackoffStep t .load (.loaded (some resumeAt)) t (.clock resumeAt)
  | elapsed {t resumeAt} :
    resumeAt ≤ t.now →
    BackoffStep t (.clock resumeAt) (.clock t.now) t (.returned .admitted)
  | ahead {t resumeAt} :
    t.now < resumeAt →
    BackoffStep t (.clock resumeAt) (.clock t.now) t (.pause (resumeAt - t.now).toNat)
  | sleeping {t duration} :
    BackoffStep t (.pause duration) .sleeping t (.sleep (t.now + duration))
  | slept {t deadline} :
    deadline ≤ t.now →
    BackoffStep t (.sleep deadline) .slept t .load
  | cancelled {t deadline} :
    t.cancelled = true →
    BackoffStep t (.sleep deadline) .cancelled t (.returned .cancelled)

/-- Rust `BackoffRegulator`, whose `settle` is the default of the trait. -/
def BackoffRegulator : Regulator Timed BackoffPc BackoffEvent where
  start := .load
  step := BackoffStep
  answer
    | .returned admission => some admission
    | _ => none
  settle _ := .done
  settled
    | .done => some true
    | _ => none

/-- What others do: time passes, someone calls `set_backoff`, the pool is cancelled. -/
inductive TimedEnv where
  | tick (duration : Duration)
  | setBackoff (resumeAt : Instant)
  | cancel

/-- The effect of the others. -/
def TimedEnv.apply (t : Timed) : TimedEnv → Timed
  | .tick duration => { t with now := t.now + duration }
  | .setBackoff resumeAt => { t with backoff := t.backoff.setBackoff resumeAt }
  | .cancel => { t with cancelled := true }

/-- What others do to a backoff. -/
def timedEnv (t : Timed) (e : TimedEnv) (t' : Timed) : Prop := t' = e.apply t

/-- The clock goes on and the pause is not shortened. -/
structure Onward (t t' : Timed) : Prop where
  origin : t'.backoff.origin = t.backoff.origin
  nanos : t.backoff.resumeAtNanos ≤ t'.backoff.resumeAtNanos
  now : t.now ≤ t'.now

lemma Onward.refl (t : Timed) : Onward t t := ⟨rfl, le_rfl, le_rfl⟩

/-- A call of `BackoffRegulator` does not go back. -/
lemma BackoffStep.onward {t t' : Timed} {p p' : BackoffPc} {b : BackoffEvent}
    (st : BackoffStep t p b t' p') : Onward t t' := by
  cases st <;> exact .refl _

/-- Nor do the clock and `set_backoff`. -/
lemma timedEnv.onward {t t' : Timed} {e : TimedEnv} (st : timedEnv t e t') : Onward t t' := by
  cases st
  cases e with
  | tick duration => exact ⟨rfl, le_rfl, Int.le_add_of_nonneg_right (Int.natCast_nonneg _)⟩
  | setBackoff resumeAt => exact ⟨rfl, le_max_left .., le_rfl⟩
  | cancel => exact ⟨rfl, le_rfl, le_rfl⟩

/-- The pause lasts until `instant`, or is over by now. -/
def Paused (instant : Instant) (t : Timed) : Prop :=
  instant ≤ t.backoff.origin + t.backoff.resumeAtNanos ∧ t.backoff.origin ≤ t.now

/-- What is known of a call of `admit` during a pause until `instant`. -/
def BackoffPc.HeldUntil (instant : Instant) (t : Timed) : BackoffPc → Prop
  | .clock resumeAt => instant ≤ resumeAt
  | .returned .admitted => instant ≤ t.now
  | _ => True

lemma Backoff.le_of_resumeAt {instant resumeAt : Instant}
    (le : instant ≤ b.origin + b.resumeAtNanos) (armed : b.resumeAt = some resumeAt) :
    instant ≤ resumeAt := by
  unfold Backoff.resumeAt at armed
  split at armed <;> cases armed
  exact le

lemma Backoff.le_origin_of_unarmed {instant : Instant} (le : instant ≤ b.origin + b.resumeAtNanos)
    (unarmed : b.resumeAt = none) :
    instant ≤ b.origin := by
  unfold Backoff.resumeAt at unarmed
  split at unarmed
  · next zero => simpa [zero] using le
  · cases unarmed

/-- `BackoffRegulator` admits nothing before the pause is over. -/
lemma backoff_holdsBack (instant : Instant) : HoldsBack BackoffRegulator Onward (Paused instant)
    (fun t => instant ≤ t.now) (fun t p => p.HeldUntil instant t) where
  start _ := trivial
  step {t p b t' p'} arm held st := by
    cases st with
    | unarmed unarmed => exact (Backoff.le_origin_of_unarmed arm.1 unarmed).trans arm.2
    | armed armed => exact Backoff.le_of_resumeAt arm.1 armed
    | elapsed elapsed => exact (held : instant ≤ _).trans elapsed
    | _ => trivial
  moves {t t' p} _ held onward := by
    cases p with
    | clock resumeAt => exact held
    | returned admission =>
      cases admission with
      | admitted => exact (held : instant ≤ t.now).trans onward.now
      | _ => trivial
    | _ => trivial
  admitted {t p} _ held answer := by
    cases p with
    | returned admission =>
      cases answer
      exact held
    | _ => cases answer
  armed_moves {t t'} arm onward := by
    obtain ⟨origin, nanos, now⟩ := onward
    obtain ⟨until', started⟩ := arm
    constructor
    · rw [origin]
      exact until'.trans (Int.add_le_add_left (Int.ofNat_le.mpr nanos) _)
    · rw [origin]
      exact started.trans now
  after_moves _ done onward := le_trans done onward.now

/-- A pause that was asked for, as far as `u64` nanoseconds reach. -/
lemma paused_setBackoff {t : Timed} (started : t.backoff.origin ≤ t.now) (resumeAt : Instant) :
    Paused (min resumeAt (t.backoff.origin + u64Max))
      (TimedEnv.apply t (.setBackoff resumeAt)) := by
  refine ⟨?_, started⟩
  have le : min (resumeAt - t.backoff.origin).toNat u64Max ≤
      (t.backoff.setBackoff resumeAt).resumeAtNanos := le_max_right ..
  have asked : min resumeAt (t.backoff.origin + u64Max) ≤
      t.backoff.origin + (min (resumeAt - t.backoff.origin).toNat u64Max : Nat) := by
    rcases le_total (resumeAt - t.backoff.origin).toNat u64Max with short | long
    · rw [min_eq_left short]
      exact (min_le_left ..).trans (Int.le_add_of_sub_left_le (Int.self_le_toNat _))
    · rw [min_eq_right long]
      exact min_le_right ..
  exact asked.trans (Int.add_le_add_left (Int.ofNat_le.mpr le) _)

section Pool

variable {C R Γ Q B E : Type} {chain : List (Regulator (Γ × Timed) (Q ⊕ BackoffPc)
  (B ⊕ BackoffEvent))} {chargeOf : ChargeOf R} {env : Γ → E → Γ → Prop}

/-- Steps of a pool with a backoff regulator in its chain. -/
abbrev PausedStep (chain : List (Regulator (Γ × Timed) (Q ⊕ BackoffPc) (B ⊕ BackoffEvent)))
    (chargeOf : ChargeOf R) (env : Γ → E → Γ → Prop) :=
  PoolStep (C := C) chain chargeOf (BesideEnv env timedEnv)

/-- A pause that is asked for is kept: a worker that has not asked the regulator by then executes
its next job when the pause is over, whatever the other workers, the other regulators and other
calls of `set_backoff` do. -/
theorem not_before_resumeAt {k i : Nat} {s s₁ s₂ : Pool C R (Γ × Timed) (Q ⊕ BackoffPc)}
    {resumeAt : Instant} {tr : Trace C R (B ⊕ BackoffEvent) (E ⊕ TimedEnv)} {m : Message C}
    (beside : Beside BackoffRegulator chain) (at' : chain[k]? = some BackoffRegulator.right)
    (started : s.shared.gates.2.backoff.origin ≤ s.shared.gates.2.now)
    (set : PausedStep chain chargeOf env s (.env (.gates (.inr (.setBackoff resumeAt)))) s₁)
    (unasked : (s₁.pc i).unasked k) (r : Run (PausedStep chain chargeOf env) s₁ tr s₂)
    (call : s₂.pc i = .call m) :
    min resumeAt (s.shared.gates.2.backoff.origin + u64Max) ≤ s₂.shared.gates.2.now := by
  have paused : Paused (min resumeAt (s.shared.gates.2.backoff.origin + u64Max))
      s₁.shared.gates.2 := by
    cases set with
    | env st =>
      cases st with
      | gates st =>
        generalize s.shared.gates = gates at st started
        cases st with
        | right st =>
          cases st
          exact paused_setBackoff started resumeAt
  have bounded : Bounded chain (BesideEnv env timedEnv) fun g g' => Onward g.2 g'.2 :=
    beside.bounded .refl BackoffStep.onward timedEnv.onward
  exact called_after (backoff_holdsBack _).right at' bounded paused unasked.heldBack r call

/-- The backoff regulator after the gates of the legacy pool. -/
def pausedChain : List (Regulator (Gates × Timed) (GatePc ⊕ BackoffPc)
    (GateEvent ⊕ BackoffEvent)) :=
  gateChain.map Regulator.left ++ [BackoffRegulator.right]

lemma pausedChain_beside : Beside BackoffRegulator pausedChain := by
  intro r mem
  rcases List.mem_append.mp mem with mem | mem
  · obtain ⟨l, -, rfl⟩ := List.mem_map.mp mem
    exact .inr ⟨l, rfl⟩
  · exact .inl (List.mem_singleton.mp mem)

/-- The gates after some calls, of which one may be made. -/
def gatesAfter (calls : Nat) : Gates where
  budget := { BudgetGate.new .min with calls := calls, totalCalls := calls }
  rateLimit := .withThresholds 0
  cancelled := false

/-- A pause until 5 was asked for, then one until 3. -/
def pausedAt (now : Instant) : Timed := ⟨((Backoff.new 0).setBackoff 5).setBackoff 3, now, false⟩

lemma step_timedEnv {g : Γ} {t : Timed} {pc : Nat → Pc Unit R (Q ⊕ BackoffPc)} (e : TimedEnv) :
    PausedStep chain chargeOf env ⟨emptied (g, t), pc⟩ (.env (.gates (.inr e)))
      ⟨emptied (g, e.apply t), pc⟩ :=
  .env (.gates (.right rfl))

/-- A pause until 5 is asked for while the worker waits for its budget, then one until 3. The worker
sleeps and executes its job at 5. -/
theorem not_before_resumeAt_five : ∃ (tr : Trace Unit Unit _ (GatesEnv ⊕ TimedEnv))
    (s : Pool Unit Unit (Gates × Timed) _),
    Run (PausedStep pausedChain chargeOfDefault gatesEnv)
      (.start 1 1 Nat.one_pos (gatesAfter 0, ⟨.new 0, 0, false⟩) (.new 1 Nat.one_pos)) tr s ∧
      s.pc 0 = .call job ∧ 5 ≤ s.shared.gates.2.now := by
  obtain ⟨tr, r, -⟩ := run_to_job pausedChain chargeOfDefault (BesideEnv gatesEnv timedEnv)
    (gatesAfter 0, ⟨.new 0, 0, false⟩)
  have set : PausedStep pausedChain chargeOfDefault gatesEnv
      ⟨emptied (gatesAfter 0, ⟨.new 0, 0, false⟩), pcs (askNext pausedChain job 0)⟩
      (.env (.gates (.inr (.setBackoff 5)))) _ := step_timedEnv _
  have sleeps : Run (Solo (Local pausedChain (chargeOfDefault (R := Unit))) 0)
      (emptied (gatesAfter 0, pausedAt 0), .admission job 0 (.inl (.acquire .loadLimit))) _
      (emptied (gatesAfter 1, pausedAt 0), .admission job 2 (.inr (.sleep 5))) :=
    solo_cons (.gate rfl (.left (.acquire (.step .loadLimit rfl (by rintro ⟨⟩))))) <|
    solo_cons (.gate rfl (.left (.acquire (.step (.below Nat.one_pos) rfl
      (by rintro ⟨⟩))))) <|
    solo_cons (.gate rfl (.left (.acquire (.step (.grant rfl) rfl (by rintro ⟨⟩))))) <|
    solo_cons (.gate rfl (.left (.acquire (.step .count rfl (by rintro ⟨⟩))))) <|
    solo_cons (.admitted rfl rfl) <|
    solo_cons (.gate rfl (.left (.check rfl))) <|
    solo_cons (.admitted rfl rfl) <|
    solo_cons (.gate rfl (.right (.armed rfl))) <|
    solo_cons (.gate rfl (.right (.ahead (by decide)))) <|
    solo_cons (.gate rfl (.right .sleeping)) .nil
  have wakes : Run (Solo (Local pausedChain (chargeOfDefault (R := Unit))) 0)
      (emptied (gatesAfter 1, pausedAt 5), .admission job 2 (.inr (.sleep 5))) _
      (emptied (gatesAfter 1, pausedAt 5), .call job) :=
    solo_cons (.gate rfl (.right (.slept (by decide)))) <|
    solo_cons (.gate rfl (.right (.armed rfl))) <|
    solo_cons (.gate rfl (.right (.elapsed (by decide)))) <|
    solo_cons (.admitted rfl rfl) .nil
  have again : PausedStep pausedChain chargeOfDefault gatesEnv
      ⟨emptied (gatesAfter 0, ⟨(Backoff.new 0).setBackoff 5, 0, false⟩),
        pcs (askNext pausedChain job 0)⟩
      (.env (.gates (.inr (.setBackoff 3)))) _ := step_timedEnv _
  have later := (Run.cons again (solo_run sleeps rfl rfl)).snoc (step_timedEnv (.tick 5))
  have called := later.append (solo_run wakes rfl rfl)
  refine ⟨_, _, r.append (.cons set called), rfl, ?_⟩
  refine not_before_resumeAt pausedChain_beside (k := 2) (i := 0) rfl le_rfl set ?_ called rfl
  exact Nat.zero_lt_two

end Pool

end CherryPit.WorkerPool.Regulated
