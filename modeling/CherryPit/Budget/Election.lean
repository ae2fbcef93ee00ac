import CherryPit.Budget.Gate

/-!
# Election and counter

A gate with a fixed limit and no replenish policy. The counter never passes the limit, although
callers compare it with values they loaded earlier; the flag `resetting` admits one caller to the
epoch transition, from the compare-exchange that elects it to the store of its guard; and only that
caller zeroes the counter, after its timer.
-/

namespace CherryPit.Budget

open Conc Threads

/-- The points between winning the election and the guard's store to `resetting`. -/
def Pc.elected : Pc → Bool
  | .recheckElected _ | .lockPolicy | .replenish | .storeLimit _ | .storeCalls | .sleep
  | .dropGuard _ => true
  | _ => false

/-- Every step respects the election flag. -/
lemma Local.respects {g p a g' p'} (st : Local g p a g' p') :
    Respects BudgetGate.resetting (fun p => p.elected = true) g p g' p' := by
  cases st with
  | elect down => exact .inr (.inl ⟨by simp [Pc.elected], rfl, down, rfl⟩)
  | dropGuard => exact .inr (.inr ⟨rfl, by simp [Pc.elected], rfl⟩)
  | @replenished r => cases r <;> exact .inl ⟨Iff.rfl, rfl⟩
  | @notify exit => cases exit <;> exact .inl ⟨Iff.rfl, rfl⟩
  | _ => exact .inl ⟨Iff.rfl, rfl⟩

/-- One caller is elected exactly while the flag is up. -/
abbrev Election : Gate → Prop :=
  Mutex BudgetGate.resetting fun p => p.elected = true

/-- At the start nobody is elected (Rust `resetting`). -/
lemma Election.start {g : BudgetGate} (down : g.resetting = false) : Election (.start g) :=
  Mutex.start down (by simp [Pc.elected])

/-- What a caller may hold in a gate with fixed limit and no policy. -/
def Pc.Within (L : NonZeroU64) : Pc → Prop
  | .loadCalls limit => limit = L
  | .tryAcquire _ current => current < L.get
  | .replenish | .storeLimit _ => False
  | .tryRefund current => 0 < current
  | _ => True

/-- The counter of a gate with fixed limit and no policy stays within the limit. -/
structure FixedInv (L : NonZeroU64) (g : BudgetGate) (p : Pc) : Prop where
  limit : g.limit = L
  policy : g.replenishPolicy = false
  calls : g.calls ≤ L.get
  within : p.Within L

/-- The caller's own step, with a fixed limit. -/
lemma FixedInv.own {L g p a g' p'} (st : Local g p a g' p') (h : FixedInv L g p) :
    FixedInv L g' p' := by
  obtain ⟨hl, hp, hc, hw⟩ := h
  cases st with
  | loadLimit => exact ⟨hl, hp, hc, hl⟩
  | below lt => exact ⟨hl, hp, hc, by rw [hw] at lt; exact lt⟩
  -- the value loaded was below the limit and is still the counter
  | grant e => exact ⟨hl, hp, hw, trivial⟩
  | consult on => exact absurd on (by simp [hp])
  | replenished => exact hw.elim
  | storeLimit => exact hw.elim
  | storeCalls => exact ⟨hl, hp, Nat.zero_le _, trivial⟩
  | @notify exit => exact ⟨hl, hp, hc, by cases exit <;> trivial⟩
  | loadRefund ne => exact ⟨hl, hp, hc, Nat.pos_of_ne_zero ne⟩
  | refunded e => exact ⟨hl, hp, by dsimp only; omega, trivial⟩
  | _ => exact ⟨hl, hp, hc, trivial⟩

/-- Steps of the others, with a fixed limit. -/
lemma FixedInv.others {L g p a g' p' q} (st : Local g p a g' p') (h : FixedInv L g p)
    (hq : FixedInv L g q) : FixedInv L g' q :=
  have h' := h.own st
  ⟨h'.limit, h'.policy, h'.calls, hq.within⟩

/-- There is something to take back when a refund's compare-exchange succeeds. -/
lemma FixedInv.refund_pos {L g p} (h : FixedInv L g p) (at' : p = .tryRefund g.calls) :
    0 < g.calls := by
  have within := h.within
  rw [at'] at within
  exact within

lemma FixedInv.start (L : NonZeroU64) : FixedInv L (.new L) .idle :=
  ⟨rfl, rfl, Nat.zero_le _, trivial⟩

lemma FixedInv.run {L tr} {s : Gate} (r : Run FixedStep (.start (.new L)) tr s) :
    (∀ i, FixedInv L s.shared (s.pc i)) ∧
      Run (Step (fun g p a g' p' => Local g p a g' p' ∧ FixedInv L g p)
        fun _ (_ : Empty) _ => False) (Gate.start (.new L)) tr s :=
  run_all (fun st h => h.own st) (fun st h hq => h.others st hq) (fun no _ => no.elim)
    (fun _ => .start L) r

/-- Without a policy the counter is about to be zeroed only when the timer has just fired. -/
def ResetAfterTimer (p : Pc) (as : List Event) : Prop :=
  p = .storeCalls → as.getLast? = some .slept

lemma ResetAfterTimer.idle : ResetAfterTimer .idle [] := nofun

/-- Only a caller whose timer has run out stores 0 in `calls`. -/
lemma ResetAfterTimer.keep {L g p a g' p' as} (st : Local g p a g' p') (h : FixedInv L g p) :
    ResetAfterTimer p' (as ++ [a]) := by
  cases st with
  | slept => exact fun _ => by simp
  | replenished => exact h.within.elim
  | storeLimit => exact h.within.elim
  | @notify exit => cases exit <;> exact nofun
  | _ => exact nofun

/-- Election and counter invariant. In every state a gate with fixed limit and no policy can reach,
`calls` is within the limit; at most one caller is between winning the election and its guard's
store; `resetting` is up exactly while there is one; a step that zeroes the counter is one of that
caller, and its last event was its timer; and any other step leaves the counter alone, adds one for
a grant or takes one for a refund. -/
theorem election_and_counter {L : NonZeroU64} {tr} {s : Gate}
    (r : Run FixedStep (.start (.new L)) tr s) :
    s.shared.calls ≤ L.get ∧
    (∀ i j, (s.pc i).elected = true → (s.pc j).elected = true → i = j) ∧
    (s.shared.resetting = true ↔ ∃ i, (s.pc i).elected = true) ∧
    ∀ i a s', FixedStep s (.act i a) s' →
      (a = .callsReset → s'.shared.calls = 0 ∧ (s.pc i).elected = true ∧
        (eventsOf i tr).getLast? = some .slept) ∧
      (a ≠ .callsReset → s'.shared.calls = s.shared.calls ∨
        (a = .granted ∧ s'.shared.calls = s.shared.calls + 1) ∨
        (a = .refunded ∧ s.shared.calls = s'.shared.calls + 1)) := by
  have elected : Election s := (Election.start rfl).run Local.respects False.elim r
  obtain ⟨inv, r'⟩ := FixedInv.run r
  have start : ∀ i, ResetAfterTimer ((Gate.start (.new L)).pc i) [] := fun _ => .idle
  have timer := run_thread (fun st _ => .keep st.1 st.2) start r'
  refine ⟨(inv 0).calls, fun i j => elected.unique, elected.held, ?_⟩
  rintro i a s' ⟨st⟩
  rcases st.counter with ⟨rfl, _, up⟩ | ⟨rfl, at', down⟩ | ⟨rfl, at', zero⟩ | ⟨_, _, ne, same⟩
  · exact ⟨nofun, fun _ => .inr (.inl ⟨rfl, up⟩)⟩
  · have pos := (inv i).refund_pos at'
    exact ⟨nofun, fun _ => .inr (.inr ⟨rfl, by dsimp only; omega⟩)⟩
  · exact ⟨fun _ => ⟨zero, by rw [at']; rfl, timer i at'⟩, fun ne => (ne rfl).elim⟩
  · exact ⟨fun e => (ne e).elim, fun _ => .inl same⟩

/-- The limit of the concrete runs: one call per epoch. -/
def one : NonZeroU64 := .min

/-- A caller is granted the only permit, another is elected and its timer fires. -/
theorem election_and_counter_timer :
    ∃ tr s, Run FixedStep (.start (.new one)) tr s ∧ s.pc 1 = .storeCalls ∧
      s.shared.calls = 1 ∧ s.shared.calls ≤ 1 ∧
      (eventsOf 1 tr).getLast? = some .slept := by
  have r : Run FixedStep (.start (.new one)) _ _ := play_run next_eq_some.mp
    [(0, .acquire), (0, .limitLoaded), (0, .callsLoaded), (0, .granted), (1, .acquire),
      (1, .limitLoaded), (1, .callsLoaded), (1, .elected), (1, .rechecked), (1, .sleeping),
      (1, .slept)] rfl
  have inv := election_and_counter r
  exact ⟨_, _, r, rfl, rfl, inv.1, ((inv.2.2.2 1 .callsReset _ (.act .storeCalls)).1 rfl).2.2⟩

end CherryPit.Budget
