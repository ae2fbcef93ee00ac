import CherryPit.WorkerPool.Refinement

/-!
# Jobs that are held back

A job is executed once every regulator of the chain has admitted it, so what one of them guarantees
of its admissions holds of every execution, whatever the others are (`called_after`). `HoldsBack` is
what has to be shown of the regulator: an assertion about its calls of `admit` that its own steps
and the moves of the shared state keep.

The first use is `RateLimitRegulator`: while the rate limit is exhausted no job is started but those
that were past the regulator already (`halted_starts_nothing`).
-/

namespace CherryPit.WorkerPool.Regulated

open Conc Threads WorkQueue
open Budget (SettleOutcome)

variable {C R Γ Q B E : Type} {chain : List (Regulator Γ Q B)} {chargeOf : ChargeOf R}
  {env : Γ → E → Γ → Prop} {m : Message C}

/-! ## One regulator of a chain -/

/-- What a regulator guarantees of its admissions. While `armed` holds, a call of `admit` satisfies
`I` at each of its points, and `after` holds once it has come to `Admitted`. `Moves` is what
may happen to the shared state. -/
structure HoldsBack (reg : Regulator Γ Q B) (Moves : Γ → Γ → Prop) (armed after : Γ → Prop)
    (I : Γ → Q → Prop) : Prop where
  start : ∀ {g}, armed g → I g reg.start
  step : ∀ {g q b g' q'}, armed g → I g q → reg.step g q b g' q' → I g' q'
  moves : ∀ {g g' q}, armed g → I g q → Moves g g' → I g' q
  admitted : ∀ {g q}, armed g → I g q → reg.answer q = some .admitted → after g
  armed_moves : ∀ {g g'}, armed g → Moves g g' → armed g'
  after_moves : ∀ {g g'}, armed g → after g → Moves g g' → after g'

/-- All that happens to the shared state is a move. -/
structure Bounded (chain : List (Regulator Γ Q B)) (env : Γ → E → Γ → Prop)
    (Moves : Γ → Γ → Prop) : Prop where
  step : ∀ {reg g q b g' q'}, reg ∈ chain → reg.step g q b g' q' → Moves g g'
  env : ∀ {g e g'}, env g e g' → Moves g g'

/-- The worker has not asked the regulator at this position for the job that it executes next. -/
def Pc.unasked (k : Nat) : Pc C R Q → Prop
  | .admission _ pos _ => pos < k
  | .call _ => False
  | _ => True

/-- What is known of a worker: `I` of its call of the regulator at position `k`, and `after` once it
is past it. -/
def Pc.HeldBack (k : Nat) (I : Γ → Q → Prop) (after : Γ → Prop) (g : Γ) : Pc C R Q → Prop
  | .admission _ pos q => (pos = k → I g q) ∧ (k < pos → after g)
  | .call _ => after g
  | _ => True

section Rule

variable {reg : Regulator Γ Q B} {Moves : Γ → Γ → Prop} {armed after : Γ → Prop}
  {I : Γ → Q → Prop} {k : Nat} {s s' : Shared C Γ} {p p' : Pc C R Q} {a : Event C R B} {c : Nat}
  {g : Γ} {pos : Nat}

/-- A worker that has not asked is held back. -/
lemma Pc.unasked.heldBack (h : p.unasked k) : p.HeldBack k I after g := by
  cases p with
  | admission m pos q =>
    have lt : pos < k := h
    exact ⟨fun e => absurd lt (by omega), fun gt => absurd lt (by omega)⟩
  | call m => exact h.elim
  | _ => trivial

/-- The next regulator is asked, up to the one at position `k`. -/
lemma heldBack_askNext (h : HoldsBack reg Moves armed after I) (at' : chain[k]? = some reg)
    (le : pos ≤ k) (arm : armed g) :
    (askNext chain m pos : Pc C R Q).HeldBack k I after g := by
  have lt : pos < chain.length := le.trans_lt (lt_of_some at')
  unfold askNext
  rw [List.getElem?_eq_getElem lt]
  refine ⟨?_, fun lt => absurd le (by omega)⟩
  rintro rfl
  rw [List.getElem?_eq_getElem lt] at at'
  cases at'
  exact h.start arm

/-- A regulator past position `k` is asked, or the job is executed. -/
lemma heldBack_past (lt : k < pos) (h : after g) :
    (askNext chain m pos : Pc C R Q).HeldBack k I after g := by
  unfold askNext
  split
  · exact ⟨fun e => absurd lt (by omega), fun _ => h⟩
  · exact h

lemma heldBack_settleNext {outcome : JobOutcome R} {so : SettleOutcome} :
    (settleNext chain m outcome so pos).HeldBack k I after g := by
  unfold settleNext
  split <;> trivial

/-- A worker stays held back while the state moves. -/
lemma HoldsBack.keeps (h : HoldsBack reg Moves armed after I) {g' : Γ} (arm : armed g)
    (moves : Moves g g') (held : p.HeldBack k I after g) : p.HeldBack k I after g' := by
  cases p with
  | admission m pos q =>
    exact ⟨fun e => h.moves arm (held.1 e) moves, fun lt => h.after_moves arm (held.2 lt) moves⟩
  | call m => exact h.after_moves arm held moves
  | _ => trivial

/-- Every step of a thread is a move, or it leaves the state of the regulators alone. -/
lemma Local.moves (bounded : Bounded chain env Moves) (st : Local chain chargeOf c s p a s' p') :
    s'.gates = s.gates ∨ Moves s.gates s'.gates := by
  cases st with
  | gate at' st => exact .inr (bounded.step (List.mem_of_getElem? at') st)
  | settleStep at' st => exact .inr (bounded.step (List.mem_of_getElem? at') st)
  | _ => exact .inl rfl

/-- What a step of a worker does to what is known of it. -/
lemma Local.heldBack (h : HoldsBack reg Moves armed after I) (at' : chain[k]? = some reg)
    (bounded : Bounded chain env Moves) (arm : armed s.gates) (held : p.HeldBack k I after s.gates)
    (st : Local chain chargeOf c s p a s' p') : p'.HeldBack k I after s'.gates := by
  cases st with
  | dequeued st => exact heldBack_askNext h at' (Nat.zero_le k) arm
  | @gate _ pos q b g q' reg' at2 st =>
    refine ⟨?_, fun lt => ?_⟩
    · rintro rfl
      cases at'.symm.trans at2
      exact h.step arm (held.1 rfl) st
    · exact h.after_moves arm (held.2 lt) (bounded.step (List.mem_of_getElem? at2) st)
  | @admitted m pos q reg' at2 answer =>
    rcases Nat.lt_trichotomy pos k with lt | rfl | gt
    · exact heldBack_askNext h at' lt arm
    · cases at'.symm.trans at2
      exact heldBack_past (Nat.lt_succ_self _) (h.admitted arm (held.1 rfl) answer)
    · exact heldBack_past (gt.trans (Nat.lt_succ_self _)) (held.2 gt)
  | charged | chargedFailure | settled => exact heldBack_settleNext
  | _ => trivial

end Rule

/-- Whatever the other regulators and the other workers do: a worker of which `HeldBack` is known
executes its next job when what the regulator guarantees holds. -/
theorem called_after {reg : Regulator Γ Q B} {Moves : Γ → Γ → Prop} {armed after : Γ → Prop}
    {I : Γ → Q → Prop} {k i : Nat} {s s' : Pool C R Γ Q} {tr : Trace C R B E}
    (h : HoldsBack reg Moves armed after I) (at' : chain[k]? = some reg)
    (bounded : Bounded chain env Moves) (arm : armed s.shared.gates)
    (held : (s.pc i).HeldBack k I after s.shared.gates)
    (r : Run (PoolStep chain chargeOf env) s tr s') (call : s'.pc i = .call m) :
    after s'.shared.gates := by
  suffices known : armed s'.shared.gates ∧ (s'.pc i).HeldBack k I after s'.shared.gates by
    rw [call] at known
    exact known.2
  refine r.invariant (I := fun t => armed t.shared.gates ∧
    (t.pc i).HeldBack k I after t.shared.gates) ?_ ⟨arm, held⟩
  rintro t l t' ⟨arm, held⟩ st
  cases st with
  | @act j a g p st =>
    have armed' : armed g.gates := by
      rcases st.moves bounded with same | moves
      · rwa [same]
      · exact h.armed_moves arm moves
    refine ⟨armed', ?_⟩
    rcases eq_or_ne i j with rfl | ne
    · simp only [Function.update_self]
      exact st.heldBack h at' bounded arm held
    · simp only [Function.update_of_ne ne]
      rcases st.moves bounded with same | moves
      · rwa [same]
      · exact h.keeps arm moves held
  | env st =>
    cases st with
    | gates e => exact ⟨h.armed_moves arm (bounded.env e), h.keeps arm (bounded.env e) held⟩
    | takeOutcome | dropOutcomes => exact ⟨arm, held⟩

/-! ## The rate limit -/

/-- `should_halt` answers `true`: there is a threshold, the window has not rolled, and the remaining
requests are known and below it. -/
def Halting (s : RateLimitState) : Prop :=
  s.haltThreshold ≠ 0 ∧ s.windowRolled = false ∧ s.remaining ≠ remainingUnknown ∧
    s.remaining < s.haltThreshold

instance (s : RateLimitState) : Decidable (Halting s) :=
  inferInstanceAs (Decidable (_ ∧ _))

/-- The others do what they do, but leave an exhausted rate limit exhausted. -/
def exhaustedEnv (g : Gates) (e : GatesEnv) (g' : Gates) : Prop :=
  gatesEnv g e g' ∧ (Halting g.rateLimit → Halting g'.rateLimit)

/-- A call of `should_halt` has not answered that there is no need to halt. -/
def HaltPc.Unclear : HaltPc → Prop
  | .returned false => False
  | _ => True

/-- A call of `RateLimitRegulator::admit` has not come to `Admitted` and is not about to. -/
def GatePc.Unclear : GatePc → Prop
  | .check h => HaltPc.Unclear h
  | .wait (.check _ h) => HaltPc.Unclear h
  | .wait (.returned reset) => reset = false
  | _ => True

/-- An exhausted limit is never found clear (Rust `should_halt`). -/
lemma Halting.shouldHalt {s : RateLimitState} (h : Halting s) {p p' : HaltPc}
    (st : s.shouldHalt p = some p') : HaltPc.Unclear p' := by
  obtain ⟨threshold, unrolled, known, below⟩ := h
  cases p with
  | loadRolled =>
    unfold RateLimitState.shouldHalt at st
    simp only [threshold, unrolled, if_false, Bool.false_eq_true] at st
    cases st
    trivial
  | loadRemaining =>
    unfold RateLimitState.shouldHalt RateLimitState.loadRemaining at st
    simp only [known, if_false, below, decide_true] at st
    cases st
    trivial
  | returned halt => cases st

/-- `RateLimitRegulator` admits nothing while the rate limit is exhausted. -/
lemma rateLimit_holdsBack : HoldsBack RateLimitRegulator
    (fun g g' => Halting g.rateLimit → Halting g'.rateLimit) (fun g => Halting g.rateLimit)
    (fun _ => False) (fun _ q => q.Unclear) where
  start _ := trivial
  step {g q b g' q'} arm held st := by
    cases st with
    | check st => exact arm.shouldHalt st
    | halted => trivial
    | wait st =>
      cases st with
      | check st => exact arm.shouldHalt st
      | cleared => exact (held : False).elim
      | cancelled => rfl
      | _ => trivial
  moves _ held _ := held
  admitted {g q} _ held answer := by
    cases q with
    | check h =>
      obtain ⟨rfl, -⟩ := answer_check answer
      exact held
    | wait w =>
      rcases answer_wait answer with ⟨rfl, -⟩ | ⟨-, h⟩
      · cases held
      · cases h
    | _ => cases answer
  armed_moves arm moves := moves arm
  after_moves _ none _ := none

lemma gateChain_bounded : Bounded gateChain exhaustedEnv
    (fun g g' => Halting g.rateLimit → Halting g'.rateLimit) where
  step {reg g q b g' q'} mem st := by
    obtain ⟨pos, at'⟩ := List.mem_iff_getElem?.mp mem
    rcases gateChain_cases at' with ⟨-, rfl⟩ | ⟨-, rfl⟩
    · cases st with
      | acquire st =>
        cases st
        exact id
      | refund => exact id
    · cases st <;> exact id
  env e := e.2

/-- The worker has not passed the rate-limit check for the job that it executes next: it has not
asked the regulator, or the regulator has not seen that there is no need to halt. -/
def Pc.Unchecked (p : Pc C R GatePc) (g : Gates) : Prop :=
  p.HeldBack 1 (fun _ q => q.Unclear) (fun _ => False) g

/-- While the rate limit is exhausted, a worker starts no job but one that had passed the rate-limit
check before. -/
theorem halted_starts_nothing {s s' : Pool C R Gates GatePc} {i : Nat}
    {tr : Trace C R GateEvent GatesEnv} {m : Message C} (halting : Halting s.shared.gates.rateLimit)
    (unchecked : (s.pc i).Unchecked s.shared.gates)
    (r : Run (PoolStep gateChain chargeOf exhaustedEnv) s tr s') : s'.pc i ≠ .call m :=
  called_after rateLimit_holdsBack rfl gateChain_bounded halting unchecked r

section Concrete

/-- One request remains and the pool is to halt below two. -/
def exhausted : Gates := ⟨.new .min, { RateLimitState.withThresholds 2 with remaining := 1 }, false⟩

/-- The worker pays for its job and is held back by the rate limit. -/
theorem halted_starts_nothing_exhausted : ∃ (tr : Trace Unit Unit GateEvent GatesEnv)
    (s : Pool Unit Unit Gates GatePc),
    Run (PoolStep gateChain chargeOfDefault exhaustedEnv)
      (.start 1 1 Nat.one_pos exhausted (.new 1 Nat.one_pos)) tr s ∧
      s.pc 0 = .admission job 1 (.wait .start) ∧
      ∀ tr' s', Run (PoolStep gateChain chargeOfDefault exhaustedEnv) s tr' s' →
        s'.pc 0 ≠ .call job := by
  obtain ⟨tr, r, -⟩ := run_to_job gateChain chargeOfDefault exhaustedEnv exhausted
  have pays : Run (Solo (Local gateChain (chargeOfDefault (R := Unit))) 0)
      (emptied exhausted, .admission job 0 (.acquire .loadLimit)) _
      (_, .admission job 1 (.wait .start)) :=
    solo_cons (.gate rfl (.acquire (.step .loadLimit rfl (by rintro ⟨⟩)))) <|
    solo_cons (.gate rfl (.acquire (.step (.below Nat.one_pos) rfl (by rintro ⟨⟩)))) <|
    solo_cons (.gate rfl (.acquire (.step (.grant rfl) rfl (by rintro ⟨⟩)))) <|
    solo_cons (.gate rfl (.acquire (.step .count rfl (by rintro ⟨⟩)))) <|
    solo_cons (.admitted rfl rfl) <|
    solo_cons (.gate rfl (.check rfl)) <|
    solo_cons (.gate rfl (.check rfl)) <|
    solo_cons (.gate rfl .halted) .nil
  have all := r.append (solo_run pays rfl rfl)
  refine ⟨_, _, all, rfl, fun tr' s' r' => ?_⟩
  have halting : Halting exhausted.rateLimit := by decide
  refine halted_starts_nothing halting ?_ r'
  exact ⟨fun _ => trivial, fun lt => absurd lt (Nat.lt_irrefl 1)⟩

end Concrete

end CherryPit.WorkerPool.Regulated
