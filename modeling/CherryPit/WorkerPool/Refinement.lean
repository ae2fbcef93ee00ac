import CherryPit.Conc.Simulation
import CherryPit.WorkerPool.Permits
import CherryPit.WorkerPool.Return

/-!
# The regulated pool refines the legacy pool

Port of the adapters of `cherry-pit-wq/src/regulator.rs` (`BudgetRegulator`, `RateLimitRegulator`).
With the chain of these two and the default `charge_of`, the regulated worker does what the worker
of `run_worker_pool` does, and settles both regulators, which does nothing, before it sends the
outcome. `Mirrors` relates the points of the two loops. It matches both ways (`Mirrors.legacy`,
`Mirrors.regulated`), so that the two pools have the same runs up to the settling
(`regulated_refines_legacy`).
-/

namespace CherryPit.WorkerPool

open Conc Threads WorkQueue
open Budget (SettleOutcome)

namespace Regulated

section Adapters

/-- The points of a call of one of the two adapters. -/
inductive GatePc where
  | acquire (p : Budget.Pc)
  | refund (p : Budget.Pc)
  | check (h : HaltPc)
  | wait (w : WaitPc)
  | done

/-- One step of a call of `BudgetGate::acquire` or `BudgetGate::refund`. -/
inductive BudgetStep : Gates → GatePc → GateEvent → Gates → GatePc → Prop where
  | acquire {g p a g' p'} :
    AcquireLocal g p a g' p' →
    BudgetStep g (.acquire p) (.budget a) g' (.acquire p')
  | refund {g p a b p'} :
    Budget.Local g.budget p a b p' →
    BudgetStep g (.refund p) (.budget a) { g with budget := b } (.refund p')

/-- Rust `BudgetRegulator`. -/
def BudgetRegulator : Regulator Gates GatePc GateEvent where
  start := .acquire .loadLimit
  step := BudgetStep
  answer
    | .acquire (.returned true) => some .admitted
    | .acquire (.returned false) => some .cancelled
    | .acquire .unwound => some .panicked
    | _ => none
  settle
    | .charged => .done
    | .free => .refund .loadRefund
  settled
    | .done | .refund .done => some true
    | _ => none

/-- One step of `RateLimitRegulator::admit`. -/
inductive RateStep : Gates → GatePc → GateEvent → Gates → GatePc → Prop where
  | check {g h h'} :
    g.rateLimit.shouldHalt h = some h' →
    RateStep g (.check h) (.rate .checked) g (.check h')
  | halted {g} :
    RateStep g (.check (.returned true)) (.rate .halted) g (.wait .start)
  | wait {g w a w'} :
    WaitLocal g.rateLimit g.cancelled w a w' →
    RateStep g (.wait w) (.rate a) g (.wait w')

/-- Rust `RateLimitRegulator`, whose `settle` is the default of the trait. -/
def RateLimitRegulator : Regulator Gates GatePc GateEvent where
  start := .check .loadRolled
  step := RateStep
  answer
    | .check (.returned false) | .wait (.returned true) => some .admitted
    | .wait (.returned false) => some .cancelled
    | _ => none
  settle _ := .done
  settled
    | .done => some true
    | _ => none

/-- The chain that stands for the gates of the legacy pool. -/
def gateChain : List (Regulator Gates GatePc GateEvent) := [BudgetRegulator, RateLimitRegulator]

/-- The default of `JobExecutor::charge_of`. -/
def chargeOfDefault {R : Type} : ChargeOf R := fun _ _ answer => answer = some .charged

end Adapters

section Mirror

variable {C R : Type} {reg : Regulator Gates GatePc GateEvent} {r : Admission} {o : JobOutcome R}
  {pos : Nat}

/-- What the legacy pool has for an event of the regulated one; the settling is not seen. -/
def Event.legacy : Event C R GateEvent → Option (Legacy.Event C R)
  | .queue a => some (.queue a)
  | .gate b => some (.gate b)
  | .admitted m 0 => some (.acquired m true)
  | .admitted m _ => some (.rateChecked m true)
  | .cancelled m 0 => some (.acquired m false)
  | .cancelled m _ => some (.rateChecked m false)
  | .admissionPanicked m _ => some (.acquirePanicked m)
  | .work w => some (.work w)
  | _ => none

/-- A point of the regulated worker and the point of the legacy worker that it stands for. -/
inductive Mirrors : Pc C R GatePc → Legacy.Pc C R → Prop where
  | client {p} : Mirrors (.client p) (.client p)
  | dequeue {p} : Mirrors (.dequeue p) (.dequeue p)
  | acquire {m p} : Mirrors (.admission m 0 (.acquire p)) (.acquire m p)
  | checkHalt {m h} : Mirrors (.admission m 1 (.check h)) (.checkHalt m h)
  | waitReset {m w} : Mirrors (.admission m 1 (.wait w)) (.waitReset m w)
  | call {m} : Mirrors (.call m) (.call m)
  | poll {m} : Mirrors (.poll m) (.poll m)
  | charge {m o} : Mirrors (.charge m o) (.send m o)
  | settle {m o pos} : pos < gateChain.length → Mirrors (.settle m o .charged pos) (.send m o)
  | settling {m o pos} : pos < gateChain.length →
    Mirrors (.settling m o .charged pos .done) (.send m o)
  | send {m o} : Mirrors (.send m o) (.send m o)
  | leave : Mirrors .leave .leave
  | exited : Mirrors .exited .exited
  | dead : Mirrors .dead .dead

/-- The legacy worker sends while the other one settles. -/
lemma Mirrors.at_settleNext {m : Message C} :
    Mirrors (settleNext gateChain m o .charged pos) (.send m o) := by
  unfold settleNext
  split
  · next lt => exact .settle lt
  · exact .send

/-- The two adapters of the chain. -/
lemma gateChain_cases (at' : gateChain[pos]? = some reg) :
    (pos = 0 ∧ reg = BudgetRegulator) ∨ (pos = 1 ∧ reg = RateLimitRegulator) := by
  match pos with
  | 0 =>
    cases at'
    exact .inl ⟨rfl, rfl⟩
  | 1 =>
    cases at'
    exact .inr ⟨rfl, rfl⟩
  | pos + 2 => cases at'

/-- Settling either adapter as charged does nothing. -/
lemma settle_charged (at' : gateChain[pos]? = some reg) :
    reg.settle .charged = .done ∧ reg.settled .done = some true ∧
      ∀ g b g' q, ¬ reg.step g .done b g' q := by
  rcases gateChain_cases at' with ⟨-, rfl⟩ | ⟨-, rfl⟩
  · exact ⟨rfl, rfl, fun g b g' q st => by cases st⟩
  · exact ⟨rfl, rfl, fun g b g' q st => by cases st⟩

/-- What `BudgetRegulator::admit` answers. -/
lemma answer_acquire {p : Budget.Pc} (answer : BudgetRegulator.answer (.acquire p) = some r) :
    (p = .returned true ∧ r = .admitted) ∨ (p = .returned false ∧ r = .cancelled) ∨
      (p = .unwound ∧ r = .panicked) := by
  unfold BudgetRegulator at answer
  dsimp only at answer
  split at answer <;> cases answer <;> simp_all

/-- What `RateLimitRegulator::admit` answers without a wait. -/
lemma answer_check {h : HaltPc} (answer : RateLimitRegulator.answer (.check h) = some r) :
    h = .returned false ∧ r = .admitted := by
  unfold RateLimitRegulator at answer
  dsimp only at answer
  split at answer <;> cases answer <;> simp_all

/-- What `RateLimitRegulator::admit` answers after a wait. -/
lemma answer_wait {w : WaitPc} (answer : RateLimitRegulator.answer (.wait w) = some r) :
    (w = .returned true ∧ r = .admitted) ∨ (w = .returned false ∧ r = .cancelled) := by
  unfold RateLimitRegulator at answer
  dsimp only at answer
  split at answer <;> cases answer <;> simp_all

/-- A step of the regulated worker is a step of the legacy worker, or not seen there. -/
lemma Mirrors.legacy : LocalMatches (Local gateChain chargeOfDefault)
    (Legacy.Local (C := C) (R := R)) Event.legacy some Mirrors := by
  intro c s p q a s' p' mirrors st
  cases st with
  | client st mem =>
    cases mirrors
    exact ⟨_, _, solo_cons (.client st mem) .nil, rfl, .client⟩
  | dequeue st mem =>
    cases mirrors
    exact ⟨_, _, solo_cons (.dequeue st mem) .nil, rfl, .dequeue⟩
  | dequeued st =>
    cases mirrors
    exact ⟨_, _, solo_cons (.dequeued st) .nil, rfl, .acquire⟩
  | drained st =>
    cases mirrors
    exact ⟨_, _, solo_cons (.drained st) .nil, rfl, .leave⟩
  | gate at' st =>
    cases mirrors with
    | acquire =>
      cases at'
      cases st with
      | acquire st => exact ⟨_, _, solo_cons (.acquire st) .nil, rfl, .acquire⟩
    | checkHalt =>
      cases at'
      cases st with
      | check st => exact ⟨_, _, solo_cons (.checkHalt st) .nil, rfl, .checkHalt⟩
      | halted => exact ⟨_, _, solo_cons .halted .nil, rfl, .waitReset⟩
    | waitReset =>
      cases at'
      cases st with
      | wait st => exact ⟨_, _, solo_cons (.waitReset st) .nil, rfl, .waitReset⟩
  | admitted at' answer =>
    cases mirrors with
    | acquire =>
      cases at'
      rcases answer_acquire answer with ⟨rfl, -⟩ | ⟨-, e⟩ | ⟨-, e⟩
      · exact ⟨_, _, solo_cons .acquired .nil, rfl, .checkHalt⟩
      · cases e
      · cases e
    | checkHalt =>
      cases at'
      obtain ⟨rfl, -⟩ := answer_check answer
      exact ⟨_, _, solo_cons .notHalted .nil, rfl, .call⟩
    | waitReset =>
      cases at'
      rcases answer_wait answer with ⟨rfl, -⟩ | ⟨-, e⟩
      · exact ⟨_, _, solo_cons .reset .nil, rfl, .call⟩
      · cases e
  | cancelled at' answer =>
    cases mirrors with
    | acquire =>
      cases at'
      rcases answer_acquire answer with ⟨-, e⟩ | ⟨rfl, -⟩ | ⟨-, e⟩
      · cases e
      · exact ⟨_, _, solo_cons .refused .nil, rfl, .leave⟩
      · cases e
    | checkHalt =>
      cases at'
      cases (answer_check answer).2
    | waitReset =>
      cases at'
      rcases answer_wait answer with ⟨-, e⟩ | ⟨rfl, -⟩
      · cases e
      · exact ⟨_, _, solo_cons .waitCancelled .nil, rfl, .leave⟩
  | admissionPanicked at' answer =>
    cases mirrors with
    | acquire =>
      cases at'
      rcases answer_acquire answer with ⟨-, e⟩ | ⟨-, e⟩ | ⟨rfl, -⟩
      · cases e
      · cases e
      · exact ⟨_, _, solo_cons .acquirePanicked .nil, rfl, .dead⟩
    | checkHalt =>
      cases at'
      cases (answer_check answer).2
    | waitReset =>
      cases at'
      rcases answer_wait answer with ⟨-, e⟩ | ⟨-, e⟩ <;> cases e
  | called =>
    cases mirrors
    exact ⟨_, _, solo_cons .called .nil, rfl, .poll⟩
  | callPanicked duration =>
    cases mirrors
    exact ⟨_, _, solo_cons (.callPanicked duration) .nil, rfl, .charge⟩
  | resolved duration result =>
    cases mirrors
    exact ⟨_, _, solo_cons (.resolved duration result) .nil, rfl, .charge⟩
  | pollPanicked =>
    cases mirrors
    exact ⟨_, _, solo_cons .pollPanicked .nil, rfl, .dead⟩
  | charged answer =>
    cases mirrors
    cases answer
    exact ⟨[], _, .nil, rfl, .at_settleNext⟩
  | chargePanicked answer => cases answer
  | chargedFailure =>
    cases mirrors
    exact ⟨[], _, .nil, rfl, .at_settleNext⟩
  | settle at' =>
    cases mirrors with
    | settle lt =>
      rw [(settle_charged at').1]
      exact ⟨[], _, .nil, rfl, .settling lt⟩
  | settleStep at' st =>
    cases mirrors
    exact ((settle_charged at').2.2 _ _ _ _ st).elim
  | settled =>
    cases mirrors
    exact ⟨[], _, .nil, rfl, .at_settleNext⟩
  | settlePanicked at' answer =>
    cases mirrors
    rw [(settle_charged at').2.1] at answer
    cases answer
  | outcomeSent room up =>
    cases mirrors
    exact ⟨_, _, solo_cons (.outcomeSent room up) .nil, rfl, .dequeue⟩
  | outcomeRefused down =>
    cases mirrors
    exact ⟨_, _, solo_cons (.outcomeRefused down) .nil, rfl, .leave⟩
  | exited =>
    cases mirrors
    exact ⟨_, _, solo_cons .exited .nil, rfl, .exited⟩

/-- The regulators that are left can be settled, and it is not seen. -/
lemma run_settleNext (c : Nat) (s : Shared C Gates) (m : Message C) (o : JobOutcome R) (pos : Nat) :
    ∃ as, Run (Solo (Local gateChain chargeOfDefault) c)
      (s, settleNext gateChain m o .charged pos) as (s, .send m o) ∧
      as.filterMap Event.legacy = [] := by
  induction left : gateChain.length - pos generalizing pos with
  | zero =>
    rw [settleNext, if_neg (by omega)]
    exact ⟨[], .nil, rfl⟩
  | succ n ih =>
    have lt : pos < gateChain.length := by omega
    have at' := List.getElem?_eq_getElem lt
    obtain ⟨starts, ends, -⟩ := settle_charged at'
    obtain ⟨as, r, hidden⟩ := ih (pos + 1) (by omega)
    rw [settleNext, if_pos lt]
    refine ⟨_, solo_cons (.settle at') (solo_cons (.settled at' ?_) r), hidden⟩
    rw [starts, ends]

/-- A worker that stands for one about to send can get there, and it is not seen. -/
lemma Mirrors.to_send {p : Pc C R GatePc} {m : Message C} (mirrors : Mirrors p (.send m o))
    (c : Nat) (s : Shared C Gates) :
    ∃ as, Run (Solo (Local gateChain chargeOfDefault) c) (s, p) as (s, .send m o) ∧
      as.filterMap Event.legacy = [] := by
  cases mirrors with
  | charge =>
    obtain ⟨as, r, hidden⟩ := run_settleNext c s m o 0
    cases o with
    | success => exact ⟨_, solo_cons (.charged rfl) r, hidden⟩
    | failure => exact ⟨_, solo_cons .chargedFailure r, hidden⟩
  | @settle m o pos lt =>
    obtain ⟨as, r, hidden⟩ := run_settleNext c s m o pos
    rw [settleNext, if_pos lt] at r
    exact ⟨as, r, hidden⟩
  | @settling m o pos lt =>
    obtain ⟨as, r, hidden⟩ := run_settleNext c s m o (pos + 1)
    have at' := List.getElem?_eq_getElem lt
    exact ⟨_, solo_cons (.settled at' (settle_charged at').2.1) r, hidden⟩
  | send => exact ⟨[], .nil, rfl⟩

/-- A step of the legacy worker is one of the regulated worker, after the rest of its settling. -/
lemma Mirrors.regulated : LocalMatches (Legacy.Local (C := C) (R := R))
    (Local gateChain chargeOfDefault) some Event.legacy fun q p => Mirrors p q := by
  intro c s q p a s' q' mirrors st
  cases st with
  | client st mem =>
    cases mirrors
    exact ⟨_, _, solo_cons (.client st mem) .nil, rfl, .client⟩
  | dequeue st mem =>
    cases mirrors
    exact ⟨_, _, solo_cons (.dequeue st mem) .nil, rfl, .dequeue⟩
  | dequeued st =>
    cases mirrors
    exact ⟨_, _, solo_cons (.dequeued st) .nil, rfl, .acquire⟩
  | drained st =>
    cases mirrors
    exact ⟨_, _, solo_cons (.drained st) .nil, rfl, .leave⟩
  | acquire st =>
    cases mirrors
    exact ⟨_, _, solo_cons (.gate rfl (.acquire st)) .nil, rfl, .acquire⟩
  | acquired =>
    cases mirrors
    exact ⟨_, _, solo_cons (.admitted rfl rfl) .nil, rfl, .checkHalt⟩
  | refused =>
    cases mirrors
    exact ⟨_, _, solo_cons (.cancelled rfl rfl) .nil, rfl, .leave⟩
  | acquirePanicked =>
    cases mirrors
    exact ⟨_, _, solo_cons (.admissionPanicked rfl rfl) .nil, rfl, .dead⟩
  | checkHalt st =>
    cases mirrors
    exact ⟨_, _, solo_cons (.gate rfl (.check st)) .nil, rfl, .checkHalt⟩
  | notHalted =>
    cases mirrors
    exact ⟨_, _, solo_cons (.admitted rfl rfl) .nil, rfl, .call⟩
  | halted =>
    cases mirrors
    exact ⟨_, _, solo_cons (.gate rfl .halted) .nil, rfl, .waitReset⟩
  | waitReset st =>
    cases mirrors
    exact ⟨_, _, solo_cons (.gate rfl (.wait st)) .nil, rfl, .waitReset⟩
  | reset =>
    cases mirrors
    exact ⟨_, _, solo_cons (.admitted rfl rfl) .nil, rfl, .call⟩
  | waitCancelled =>
    cases mirrors
    exact ⟨_, _, solo_cons (.cancelled rfl rfl) .nil, rfl, .leave⟩
  | called =>
    cases mirrors
    exact ⟨_, _, solo_cons .called .nil, rfl, .poll⟩
  | callPanicked duration =>
    cases mirrors
    exact ⟨_, _, solo_cons (.callPanicked duration) .nil, rfl, .charge⟩
  | resolved duration result =>
    cases mirrors
    exact ⟨_, _, solo_cons (.resolved duration result) .nil, rfl, .charge⟩
  | pollPanicked =>
    cases mirrors
    exact ⟨_, _, solo_cons .pollPanicked .nil, rfl, .dead⟩
  | outcomeSent room up =>
    obtain ⟨as, r, hidden⟩ := mirrors.to_send c s
    refine ⟨_, _, r.append (solo_cons (.outcomeSent room up) .nil), ?_, .dequeue⟩
    rw [List.filterMap_append, hidden]
    rfl
  | outcomeRefused down =>
    obtain ⟨as, r, hidden⟩ := mirrors.to_send c s
    refine ⟨_, _, r.append (solo_cons (.outcomeRefused down) .nil), ?_, .leave⟩
    rw [List.filterMap_append, hidden]
    rfl
  | exited =>
    cases mirrors
    exact ⟨_, _, solo_cons .exited .nil, rfl, .exited⟩

end Mirror

section Pools

variable {C R : Type} {s : Pool C R Gates GatePc} {t : Legacy.Pool C R}

/-- A legacy pool of `workerCount` workers that starts with a given queue and given gates. -/
def legacyOn (workerCount : Nat) (shared : Shared C Gates) : Legacy.Pool C R where
  shared := shared
  pc i := if i < workerCount then .dequeue .idle else .client .idle

/-- A regulated pool of `workerCount` workers that starts with a given queue and given gates. -/
def regulatedOn (workerCount : Nat) (shared : Shared C Gates) : Pool C R Gates GatePc where
  shared := shared
  pc i := if i < workerCount then .dequeue .idle else .client .idle

/-- Steps of the regulated pool with the adapters. -/
abbrev GatedStep : Pool C R Gates GatePc → Label (Event C R GateEvent) (PoolEnv GatesEnv) →
    Pool C R Gates GatePc → Prop :=
  PoolStep gateChain chargeOfDefault gatesEnv

/-- What is seen of a run of the regulated pool. -/
def observed (tr : Trace C R GateEvent GatesEnv) : Legacy.Trace C R :=
  tr.filterMap (Label.view Event.legacy some)

/-- The pools stand in the same shared state, with their threads at corresponding points. -/
abbrev SamePool (s : Pool C R Gates GatePc) (t : Legacy.Pool C R) : Prop :=
  Alike Mirrors s t

/-- The pools start alike. -/
lemma SamePool.start (workerCount : Nat) (shared : Shared C Gates) :
    SamePool (regulatedOn workerCount shared : Pool C R Gates GatePc)
      (legacyOn workerCount shared) where
  shared := rfl
  pc i := by
    simp only [regulatedOn, legacyOn]
    split
    · exact .dequeue
    · exact .client

/-- What the regulated pool does, the legacy pool does. -/
lemma SamePool.legacy {s' : Pool C R Gates GatePc} {tr} (same : SamePool s t)
    (r : Run GatedStep s tr s') :
    ∃ t', Run Legacy.PoolStep t (observed tr) t' ∧ SamePool s' t' := by
  have sim : Matches GatedStep Legacy.PoolStep
      (Label.view Event.legacy some)
      (Label.view some some) (SamePool (C := C) (R := R)) :=
    Mirrors.legacy.matches fun _ _ _ st => ⟨_, rfl, st⟩
  obtain ⟨tr', t', r', seen, same'⟩ := sim.run same r
  rw [filterMap_view_some] at seen
  subst seen
  exact ⟨t', r', same'⟩

/-- What the legacy pool does, the regulated pool does. -/
lemma SamePool.regulated {t' : Legacy.Pool C R} {tr} (same : SamePool s t)
    (r : Run Legacy.PoolStep t tr t') :
    ∃ tr' s', Run GatedStep s tr' s' ∧ observed tr' = tr ∧ SamePool s' t' := by
  have sim : Matches Legacy.PoolStep GatedStep (Label.view some some)
      (Label.view Event.legacy some)
      (Alike fun q p => Mirrors (C := C) (R := R) p q) :=
    Mirrors.regulated.matches fun _ _ _ st => ⟨_, rfl, st⟩
  obtain ⟨tr', s', r', seen, same'⟩ := sim.run ⟨same.shared.symm, same.pc⟩ r
  rw [filterMap_view_some] at seen
  exact ⟨tr', s', r', seen, ⟨same'.shared.symm, same'.pc⟩⟩

/-- With the adapters for the gates of the legacy pool and the default `charge_of`, the regulated
pool has the observable runs of the legacy pool: each run of one is a run of the other to the same
shared state and corresponding points, and at every moment the regulated pool can do what the legacy
pool can do. -/
theorem regulated_refines_legacy (workerCount : Nat) (shared : Shared C Gates) :
    (∀ tr s, Run GatedStep (regulatedOn workerCount shared : Pool C R Gates GatePc) tr s →
      ∃ t, Run Legacy.PoolStep (legacyOn workerCount shared) (observed tr) t ∧ SamePool s t) ∧
    (∀ tr t, Run Legacy.PoolStep (legacyOn workerCount shared : Legacy.Pool C R) tr t →
      ∃ tr' s, Run GatedStep (regulatedOn workerCount shared) tr' s ∧ observed tr' = tr ∧
        SamePool s t) ∧
    (∀ tr s t, Run GatedStep (regulatedOn workerCount shared : Pool C R Gates GatePc) tr s →
      SamePool s t → ∀ tr' t', Run Legacy.PoolStep t tr' t' →
        ∃ tr'' s', Run GatedStep s tr'' s' ∧ observed tr'' = tr' ∧ SamePool s' t') := by
  refine ⟨?_, ?_, ?_⟩
  · intro tr s r
    exact (SamePool.start workerCount shared).legacy r
  · intro tr t r
    exact (SamePool.start workerCount shared).regulated r
  · intro tr s t _ same tr' t' r
    exact same.regulated r

/-- The legacy pool takes a job to its executor, and so does the regulated pool: the same gates are
passed and the same queue is left. -/
theorem regulated_reaches_call :
    ∃ (tr : Trace Unit Unit GateEvent GatesEnv) (s : Pool Unit Unit _ _),
    Run GatedStep
      (regulatedOn 1 ⟨.new Unit 1 Nat.one_pos, Legacy.oneCall, .new 1 Nat.one_pos⟩) tr s ∧
    s.shared = Legacy.paid ∧ s.pc 0 = .call Legacy.refreshed ∧
    Legacy.acceptedIn (observed tr) = [Legacy.refreshed] := by
  obtain ⟨tr, r, -, -, -, accepted⟩ := Legacy.run_to_call
  obtain ⟨tr', s, r', seen, same⟩ := (regulated_refines_legacy 1 _).2.1 tr _ r
  refine ⟨tr', s, r', same.shared, ?_, seen ▸ accepted⟩
  have at' := same.pc 0
  generalize s.pc 0 = p at at'
  cases at'
  rfl

end Pools

end Regulated

end CherryPit.WorkerPool
