import CherryPit.Budget.Election

/-!
# Wake-ups

A caller that loses the election registers on `epoch_advanced`, looks at the counter once more and
parks. `Watched` says that a parked caller nobody has notified has someone to notify it: a caller
that has won the election and has not completed `notify_waiters`.

The second look is meant to catch a transition that completed between the lost election and the
registration. It sees a counter that was reset, and nothing else: if the elected caller gave up, or
if the new epoch is used up already, the caller parks with nobody to wake it (`lost_wakeup`).
Without such a latecomer no wake-up is lost (`watched_of_registeredInTime`).
-/

namespace CherryPit.Budget

open Conc Threads Function

variable {g g' : BudgetGate} {p : Pc}

/-- The points between winning the election and completing the guard's `notify_waiters`. -/
def Pc.holding : Pc → Bool
  | .notifyWaiters _ => true
  | p => p.elected

/-- Every parked caller that has not been notified has a caller that will notify it. -/
def Watched (s : Gate) : Prop :=
  ∀ i since, s.pc i = .parked since → since = s.shared.epochAdvanced →
    ∃ j, (s.pc j).holding = true

/-- `notify_waiters` completes only while no caller is between its lost election and the creation of
its `Notified`. -/
def RegisteredInTime (s : Gate) : Label Event Resize → Prop
  | .act _ .notified => ∀ j limit, s.pc j ≠ .register limit
  | _ => True

/-- The caller is to be notified: it lost the election, and no `notify_waiters` has come since it
registered. -/
def Pc.Awaits (g : BudgetGate) : Pc → Prop
  | .register _ => True
  | .recheckParked _ since | .parked since => since = g.epochAdvanced
  | _ => False

/-- A registration is not from the future. -/
def Registered (g : BudgetGate) : Pc → Prop
  | .recheckParked _ since | .parked since => since ≤ g.epochAdvanced
  | _ => True

/-- The count of `notify_waiters` only grows. -/
lemma Local.epochAdvanced_le {g p a g' p'} (st : Local g p a g' p') :
    g.epochAdvanced ≤ g'.epochAdvanced := by
  cases st with
  | notify => exact Nat.le_succ _
  | _ => exact le_rfl

/-- A registration stays in the past. -/
lemma Registered.mono {p} (h : Registered g p) (le : g.epochAdvanced ≤ g'.epochAdvanced) :
    Registered g' p := by
  cases p with
  | recheckParked limit since => exact Nat.le_trans h le
  | parked since => exact Nat.le_trans h le
  | _ => trivial

/-- Rust `notified` registers at the current count. -/
lemma Registered.own {g p a g' p'} (st : Local g p a g' p') (h : Registered g p) :
    Registered g' p' := by
  cases st with
  | register => exact Nat.le_refl _
  | park => exact h
  | @replenished r => cases r <;> trivial
  | @notify exit => cases exit <;> trivial
  | _ => trivial

/-- A caller that holds the election keeps it until it has notified. -/
lemma Local.holding {g p a g' p'} (st : Local g p a g' p') (h : p.holding = true)
    (ne : a ≠ .notified) : p'.holding = true := by
  cases st with
  | notify => exact (ne rfl).elim
  | @replenished r => cases r <;> rfl
  | reopened | closed | consult | startSleep | panicked | abortReplenish | storeLimit | slept
  | cancelSleep | abortSleep | storeCalls | dropGuard => rfl
  | _ => cases h

/-- Only `notify_waiters` moves the count. -/
lemma Local.epochAdvanced_eq {g p a g' p'} (st : Local g p a g' p') (ne : a ≠ .notified) :
    g'.epochAdvanced = g.epochAdvanced := by
  cases st with
  | notify => exact (ne rfl).elim
  | _ => rfl

/-- A caller that is elected holds the election. -/
lemma Pc.elected.holding (h : p.elected = true) : p.holding = true := by
  cases p with
  | notifyWaiters => rfl
  | _ => exact h

/-- Only `notify_waiters` changes who awaits a notification. -/
lemma Pc.Awaits.of_eq (same : g'.epochAdvanced = g.epochAdvanced) (h : p.Awaits g') :
    p.Awaits g := by
  cases p with
  | recheckParked limit since => exact h.trans same
  | parked since => exact h.trans same
  | _ => exact h

/-- A caller that comes to await a notification has lost the election just now. -/
lemma Local.awaits {g p a g' p'} (st : Local g p a g' p') (h : p'.Awaits g') :
    p.Awaits g ∨ g.resetting = true := by
  cases st with
  | outvoted up => exact .inr up
  | register => exact .inl trivial
  | park => exact .inl h
  | @replenished r => cases r <;> exact h.elim
  | @notify exit => cases exit <;> exact h.elim
  | _ => exact h.elim

/-- `notify_waiters` reaches everyone who is registered. -/
lemma Registered.notified (h : Registered g p) (inTime : ∀ limit, p ≠ .register limit)
    (lt : g.epochAdvanced < g'.epochAdvanced) :
    ¬ p.Awaits g' := by
  intro awaits
  cases p with
  | register limit => exact inTime limit rfl
  | recheckParked limit since => exact absurd awaits (Nat.lt_of_le_of_lt h lt).ne
  | parked since => exact absurd awaits (Nat.lt_of_le_of_lt h lt).ne
  | _ => exact awaits

variable {s s' : Gate} {l : Label Event Resize}

/-- Someone still holds the election after a step that does not notify. -/
lemma holding_step {i k : Nat} {a g p} (st : Local s.shared (s.pc i) a g p) (ne : a ≠ .notified)
    (h : (s.pc k).holding = true) : ∃ j, (update s.pc i p j).holding = true := by
  rcases eq_or_ne k i with rfl | other
  · exact ⟨k, by simpa only [update_self] using st.holding h ne⟩
  · exact ⟨k, by rwa [update_of_ne other]⟩

/-- Whoever awaits a notification has a caller that will give it. -/
structure Attended (s : Gate) : Prop where
  election : Election s
  registered : ∀ i, Registered s.shared (s.pc i)
  holder : ∀ i, (s.pc i).Awaits s.shared → ∃ j, (s.pc j).holding = true

/-- At the start nobody waits. -/
lemma Attended.start (down : g.resetting = false) : Attended (.start g) :=
  ⟨.start down, fun _ => trivial, fun _ => False.elim⟩

/-- A step at which nobody is late keeps everyone attended. -/
lemma Attended.step (h : Attended s) (st : GateStep s l s') (ok : RegisteredInTime s l) :
    Attended s' := by
  have resize : ∀ (b : Resize) (g : BudgetGate),
      (b.apply g).epochAdvanced = g.epochAdvanced ∧ (b.apply g).resetting = g.resetting := by
    intro b g
    cases b <;> exact ⟨rfl, rfl⟩
  refine ⟨h.election.step Local.respects ?_ st, st.all (I := Registered) .own
    (fun st _ h => h.mono st.epochAdvanced_le) ?_ h.registered, ?_⟩
  · rintro g b _ rfl
    exact (resize b g).2
  · rintro g b _ p rfl h
    exact h.mono (resize b g).1.ge
  intro j awaits
  cases st with
  | env e =>
    subst e
    exact h.holder j (awaits.of_eq (resize _ _).1)
  | @act i a g p st =>
    by_cases notified : a = .notified
    · -- nobody awaits anything after `notify_waiters`
      subst notified
      exfalso
      rcases eq_or_ne j i with rfl | ne
      · simp only [update_self] at awaits
        generalize s.pc j = q at st
        cases st with
        | @notify exit => cases exit <;> exact awaits
      · simp only [update_of_ne ne] at awaits
        refine (h.registered j).notified (ok j) ?_ awaits
        generalize s.pc i = q at st
        cases st with
        | notify => exact Nat.lt_succ_self _
    · obtain ⟨k, holds⟩ : ∃ k, (s.pc k).holding = true := by
        rcases eq_or_ne j i with rfl | ne
        · simp only [update_self] at awaits
          rcases st.awaits awaits with before | up
          · exact h.holder j before
          · exact (h.election.held.mp up).imp fun _ elected => Pc.elected.holding elected
        · simp only [update_of_ne ne] at awaits
          exact h.holder j (awaits.of_eq (st.epochAdvanced_eq notified))
      exact holding_step st notified holds

/-- No wake-up is lost if nobody registers late. In every run of a gate in which no `notify_waiters`
completes while a caller is between its lost election and its registration, every parked caller that
has not been notified has a caller that will notify it, whatever becomes of the transitions. -/
theorem watched_of_registeredInTime {g : BudgetGate} {tr} (down : g.resetting = false)
    (r : Run (fun s l s' => GateStep s l s' ∧ RegisteredInTime s l) (.start g) tr s) :
    Watched s := by
  have attended := r.invariant (I := Attended) (fun h st => h.step st.1 st.2) (.start down)
  intro i since parked unnotified
  refine attended.holder i ?_
  rw [parked]
  exact unnotified

/-- A run without `notify_waiters` meets the condition. -/
lemma run_unnotified {tr} (r : Run GateStep s tr s') (quiet : ∀ i, .act i .notified ∉ tr) :
    Run (fun s l s' => GateStep s l s' ∧ RegisteredInTime s l) s tr s' := by
  induction r with
  | nil => exact .nil
  | @cons s l s' tr s'' st _ ih =>
    refine .cons ⟨st, ?_⟩ (ih fun i mem => quiet i (.tail _ mem))
    cases l with
    | env => trivial
    | act i a =>
      cases a with
      | notified => exact (quiet i (.head _)).elim
      | _ => trivial

/-- Caller 1 is elected and aborted, and caller 2 registers before caller 1 notifies. -/
def registeredFirst : List (Nat × Event) :=
  [(0, .acquire), (0, .limitLoaded), (0, .callsLoaded), (0, .granted),
    (1, .acquire), (1, .limitLoaded), (1, .callsLoaded), (1, .elected), (1, .rechecked),
    (1, .sleeping),
    (2, .acquire), (2, .limitLoaded), (2, .callsLoaded), (2, .outvoted), (2, .registered),
    (2, .rechecked), (1, .aborted), (1, .guardDropped)]

/-- Caller 2 is woken and elected, and caller 3 parks. -/
def successor : List (Nat × Event) :=
  [(2, .woken), (2, .limitLoaded), (2, .callsLoaded), (2, .elected), (2, .rechecked),
    (2, .sleeping),
    (3, .acquire), (3, .limitLoaded), (3, .callsLoaded), (3, .outvoted), (3, .registered),
    (3, .rechecked)]

/-- A transition is aborted, the waiter is woken and becomes the successor, and it will notify the
caller that parks next. -/
theorem watched_of_registeredInTime_successor :
    ∃ tr s, Run (fun s l s' => GateStep s l s' ∧ RegisteredInTime s l) (.start (.new one)) tr s ∧
      s.pc 3 = .parked 1 ∧ s.shared.epochAdvanced = 1 ∧ Watched s := by
  have first : Run GateStep (.start (.new one)) _ _ :=
    play_run next_eq_some.mp registeredFirst rfl
  have inTime := (run_unnotified first (by simp [registeredFirst])).snoc
    ⟨.act (i := 1) .notify, (fun | 0 | 1 | 2 | _ + 3 => nofun)⟩
  have r := inTime.append
    (run_unnotified (play_run next_eq_some.mp successor rfl) (by simp [successor]))
  exact ⟨_, _, r, rfl, rfl, watched_of_registeredInTime rfl r⟩

/-- Caller 1 is elected; caller 2 loses the election; caller 1 is aborted, drops its guard and
notifies; only then caller 2 registers and looks at the counter again. -/
def abortedElection : List (Nat × Event) :=
  [(0, .acquire), (0, .limitLoaded), (0, .callsLoaded), (0, .granted),
    (1, .acquire), (1, .limitLoaded), (1, .callsLoaded), (1, .elected), (1, .rechecked),
    (1, .sleeping),
    (2, .acquire), (2, .limitLoaded), (2, .callsLoaded), (2, .outvoted),
    (1, .aborted), (1, .guardDropped), (1, .notified), (2, .registered), (2, .rechecked)]

/-- A wake-up is lost: the epoch is still exhausted, so caller 2 parks, and nobody is left to
notify it. -/
theorem lost_wakeup :
    ∃ tr s, Run GateStep (.start (.new one)) tr s ∧ s.pc 2 = .parked 1 ∧
      s.shared.epochAdvanced = 1 ∧ (∀ j, (s.pc j).holding = false) ∧ ¬ Watched s := by
  obtain ⟨s, played, parked, count, nobody⟩ : ∃ s, play next abortedElection
      (Gate.start (.new one)) = some s ∧ s.pc 2 = .parked 1 ∧ s.shared.epochAdvanced = 1 ∧
      ∀ j, (s.pc j).holding = false :=
    ⟨_, rfl, rfl, rfl, fun | 0 | 1 | 2 | _ + 3 => rfl⟩
  refine ⟨_, s, play_run next_eq_some.mp _ played, parked, count, nobody, fun w => ?_⟩
  obtain ⟨j, hj⟩ := w 2 1 parked count.symm
  rw [nobody j] at hj
  cases hj

end CherryPit.Budget
