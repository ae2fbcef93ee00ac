import CherryPit.Budget.Election

/-!
# Replenished epochs

A gate with a replenish policy. When the policy answers with a ceiling, the elected caller stores
the ceiling and then zeroes the counter. The two stores are separate steps, and other callers hold
snapshots of the limit from before: a permit granted between the two stores is forgotten by the
second one, and a permit granted on a snapshot above the ceiling passes it. In both ways an epoch
admits more than its ceiling (`ceiling_overrun`); `granted_le_ceiling` bounds the epoch when
neither happens.
-/

namespace CherryPit.Budget

open Conc Threads Function

/-- The points between the policy's answer and the reset of the counter. -/
def Pc.applying : Pc → Bool
  | .storeLimit _ | .storeCalls => true
  | _ => false

/-- A permit is granted only when no ceiling is being applied, and on a snapshot of the limit that
is not above the limit in force. -/
def GrantsApplied (s : Gate) : Label Event Empty → Prop
  | .act i .granted => (∀ k, (s.pc k).applying = false) ∧
      ∀ limit current, s.pc i = .tryAcquire limit current → limit.get ≤ s.shared.limit.get
  | _ => True

/-- What a caller may hold in a gate with a policy. -/
structure PolicyInv (g : BudgetGate) (p : Pc) : Prop where
  policy : g.replenishPolicy = true
  awake : p ≠ .sleep
  below : ∀ limit current, p = .tryAcquire limit current → current < limit.get

/-- The caller's own step, with a policy. -/
lemma PolicyInv.own {g p a g' p'} (st : Local g p a g' p') (h : PolicyInv g p) :
    PolicyInv g' p' := by
  refine ⟨st.policy.trans h.policy, ?_, ?_⟩
  · cases st with
    | startSleep off => exact absurd h.policy (by simp [off])
    | @replenished r => cases r <;> nofun
    | @notify exit => cases exit <;> nofun
    | _ => nofun
  · rintro limit current rfl
    generalize e : Pc.tryAcquire limit current = p' at st
    cases st with
    | below lt =>
      cases e
      exact lt
    | @replenished r => cases r <;> cases e
    | @notify exit => cases exit <;> cases e
    | _ => cases e

/-- Steps of the others, with a policy. -/
lemma PolicyInv.others {g p a g' p' q} (st : Local g p a g' p') (hq : PolicyInv g q) :
    PolicyInv g' q :=
  ⟨st.policy.trans hq.policy, hq.awake, hq.below⟩

/-- The points at which a transition is under way. -/
def Pc.transit : Pc → Bool
  | .replenish | .storeLimit _ | .storeCalls | .sleep => true
  | _ => false

lemma Pc.elected_of_transit {p : Pc} (h : p.transit = true) : p.elected = true := by
  cases p <;> first | rfl | cases h

/-- With a policy attached a transition starts by consulting it. -/
lemma Local.transit {g p a g' p'} (st : Local g p a g' p') (h : PolicyInv g p)
    (out : p.transit = false) (ne : a ≠ .consulted) : p'.transit = false := by
  cases st with
  | consult => exact (ne rfl).elim
  | startSleep off => exact absurd h.policy (by simp [off])
  | replenished | storeLimit | slept => cases out
  | @notify exit => cases exit <;> rfl
  | _ => rfl

/-- The window from a ceiling `c` that caller `i` was given: first the ceiling is being applied and
nothing is granted, then the counter accounts for what was granted and stays below the ceiling. -/
inductive Window (i : Nat) (c : NonZeroU64) (s : Gate) (seg : List (Label Event Empty)) : Prop where
  | applying :
    (s.pc i = .storeLimit c ∨ s.pc i = .storeCalls ∧ s.shared.limit = c) →
    (actorsOf .granted seg).length = 0 →
    Window i c s seg
  | applied :
    s.shared.limit = c →
    (∀ k, (s.pc k).transit = false) →
    s.shared.calls ≤ c.get →
    (actorsOf .granted seg).length ≤ s.shared.calls + (actorsOf .refunded seg).length →
    Window i c s seg

/-- Grants within a window (Rust `ReplenishPolicy`). -/
lemma Window.bound {i c s seg} (h : Window i c s seg) :
    (actorsOf .granted seg).length ≤ c.get + (actorsOf .refunded seg).length := by
  cases h with
  | applying _ none => omega
  | applied _ _ le acc => omega

variable {s s' : Gate} {i j : Nat} {c : NonZeroU64} {seg : List (Label Event Empty)} {a : Event}

/-- The window opens when the policy answers. -/
lemma Window.start (st : FixedStep s (.act i (.replenished (.ceiling c))) s') :
    Window i c s' [] := by
  cases st with
  | @act _ _ g p st =>
    generalize s.pc i = q at st
    cases st
    exact .applying (.inl (update_self ..)) rfl

/-- A step while the ceiling is being applied. -/
lemma Window.step_applying
    (at' : s.pc i = .storeLimit c ∨ s.pc i = .storeCalls ∧ s.shared.limit = c)
    (none : (actorsOf .granted seg).length = 0) (el : Election s) (st : FixedStep s (.act j a) s')
    (ok : GrantsApplied s (.act j a)) : Window i c s' (seg ++ [.act j a]) := by
  have applying : (s.pc i).applying = true := by
    rcases at' with e | ⟨e, _⟩ <;> rw [e] <;> rfl
  have elected : (s.pc i).elected = true := by
    rcases at' with e | ⟨e, _⟩ <;> rw [e] <;> rfl
  have ungranted : a ≠ .granted := by
    rintro rfl
    rw [ok.1 i] at applying
    cases applying
  have none' : (actorsOf .granted (seg ++ [.act j a])).length = 0 := by
    rw [length_actorsOf_concat, none, if_neg ungranted]
  cases st with
  | @act _ _ g p st =>
    rcases eq_or_ne j i with rfl | ne
    · rcases at' with e | ⟨e, el'⟩
      · rw [e] at st
        cases st
        exact .applying (.inr ⟨update_self .., rfl⟩) none'
      · rw [e] at st
        cases st
        refine .applied el' ?_ (Nat.zero_le _) (by omega)
        intro k
        rcases eq_or_ne k j with rfl | ne
        · simp only [update_self, Pc.transit]
        · simp only [update_of_ne ne]
          by_contra inn
          exact el.outside elected ne (Pc.elected_of_transit (by simpa using inn))
    · -- another caller is not elected, so it leaves the limit alone
      refine .applying ?_ none'
      simp only [update_of_ne ne.symm]
      refine at'.imp_right (And.imp_right fun el' => ?_)
      rcases st.limit with ⟨c', e, _⟩ | ⟨_, same⟩
      · exact (el.outside elected ne (by rw [e]; rfl)).elim
      · exact same.trans el'

/-- A step once the ceiling is applied, up to the next consultation. -/
lemma Window.step_applied (lim : s.shared.limit = c) (quiet : ∀ k, (s.pc k).transit = false)
    (le : s.shared.calls ≤ c.get)
    (acc : (actorsOf .granted seg).length ≤ s.shared.calls + (actorsOf .refunded seg).length)
    (inv : ∀ k, PolicyInv s.shared (s.pc k)) (st : FixedStep s (.act j a) s')
    (ok : GrantsApplied s (.act j a)) (ne : a ≠ .consulted) :
    Window i c s' (seg ++ [.act j a]) := by
  cases st with
  | @act _ _ g p st =>
    have same : g.limit = c := by
      rcases st.limit with ⟨c', e, _⟩ | ⟨_, same⟩
      · have inn := quiet j
        rw [e] at inn
        cases inn
      · exact same.trans lim
    have quiet' : ∀ k, (update s.pc j p k).transit = false := by
      intro k
      rcases eq_or_ne k j with rfl | ne'
      · rw [update_self]
        exact st.transit (inv k) (quiet k) ne
      · rw [update_of_ne ne']
        exact quiet k
    refine .applied same quiet' ?_ ?_
    · show g.calls ≤ c.get
      rcases st.counter with ⟨rfl, ⟨limit, e⟩, up⟩ | ⟨_, _, down⟩ | ⟨_, _, zero⟩ | ⟨_, _, _, same⟩
      · -- a grant needs a counter below the snapshot, which is not above the ceiling
        have lt := (inv j).below limit _ e
        have le' := ok.2 limit _ e
        rw [lim] at le'
        omega
      all_goals omega
    · simp only [length_actorsOf_concat]
      show _ ≤ g.calls + _
      rcases st.counter with ⟨rfl, _, up⟩ | ⟨rfl, _, down⟩ | ⟨_, e, _⟩ | ⟨n1, n2, _, same⟩
      · simp only [reduceCtorEq, if_true, if_false]
        omega
      · simp only [reduceCtorEq, if_true, if_false]
        omega
      · have inn := quiet j
        rw [e] at inn
        cases inn
      · simp only [n1, n2, if_false]
        omega

/-- What holds of a gate with a policy. -/
structure Replenishing (s : Gate) : Prop where
  election : Election s
  policy : ∀ k, PolicyInv s.shared (s.pc k)

/-- One step of a gate with a policy. -/
lemma Replenishing.step {l} (h : Replenishing s) (st : FixedStep s l s') : Replenishing s' where
  election := h.election.step Local.respects False.elim st
  policy := st.all (I := PolicyInv) .own (fun st _ hq => hq.others st) False.elim h.policy

lemma Replenishing.start (L : NonZeroU64) :
    Replenishing (.start (BudgetGate.new L).withReplenishPolicy) :=
  ⟨.start rfl, fun _ => ⟨rfl, nofun, nofun⟩⟩

/-- A replenished epoch never over-admits if permits are granted only while no ceiling is being
applied, on snapshots that are not above the limit in force: from the moment the policy returns a
ceiling until it is consulted again, the permits granted are at most the ceiling and the refunds. -/
theorem granted_le_ceiling {L : NonZeroU64} {tr}
    (r : Run (fun s l s' => FixedStep s l s' ∧ GrantsApplied s l)
      (.start (BudgetGate.new L).withReplenishPolicy) tr s) (pre seg post)
    (split : tr = pre ++ .act i (.replenished (.ceiling c)) :: seg ++ post)
    (unconsulted : ∀ j, .act j .consulted ∉ seg) :
    (actorsOf .granted seg).length ≤ c.get + (actorsOf .refunded seg).length := by
  subst split
  obtain ⟨s1, r1, _⟩ := r.split
  obtain ⟨s0, r0, r1⟩ := r1.split
  have start : Replenishing s0 := r0.invariant (fun h st => h.step st.1) (.start L)
  cases r1 with
  | @cons _ _ s0' _ _ st r1 =>
    -- the induction is on the run through the window
    have go : Replenishing s1 ∧ ((∀ j, .act j .consulted ∉ seg) → Window i c s1 seg) := by
      refine r1.snocInduction (motive := fun seg s => Replenishing s ∧
        ((∀ j, .act j .consulted ∉ seg) → Window i c s seg))
        ⟨start.step st.1, fun _ => .start st.1⟩ ?_
      rintro seg s l s' _ ⟨st, ok⟩ ⟨inv, ih⟩
      refine ⟨inv.step st, fun none => ?_⟩
      have ih := ih fun j mem => none j (List.mem_append_left _ mem)
      cases l with
      | env b => exact b.elim
      | act j a =>
        cases ih with
        | applying at' ungranted =>
          exact Window.step_applying at' ungranted inv.election st ok
        | applied lim quiet le acc =>
          refine Window.step_applied lim quiet le acc inv.policy st ok ?_
          rintro rfl
          exact none j (by simp)
    exact (go.2 unconsulted).bound

/-- The ceiling of the concrete runs. -/
def two : NonZeroU64 := ⟨2, by decide, by decide⟩

/-- A permit is granted after a transition. -/
theorem granted_le_ceiling_after_reset :
    ∃ pre seg s, Run (fun s l s' => FixedStep s l s' ∧ GrantsApplied s l)
        (.start (BudgetGate.new one).withReplenishPolicy)
        (pre ++ .act 1 (.replenished (.ceiling two)) :: seg ++ []) s ∧
      actorsOf .granted seg = [2] ∧
      (actorsOf .granted seg).length ≤ two.get + (actorsOf .refunded seg).length := by
  have r : Run (fun s l s' => FixedStep s l s' ∧ GrantsApplied s l)
      (.start (BudgetGate.new one).withReplenishPolicy) _ _ :=
    .cons ⟨.act (i := 0) .acquire, trivial⟩ <| .cons ⟨.act (i := 0) .loadLimit, trivial⟩ <|
    .cons ⟨.act (i := 0) (.below (by decide)), trivial⟩ <|
    .cons ⟨.act (i := 0) (.grant rfl), fun | 0 | _ + 1 => rfl, by rintro _ _ ⟨⟩; rfl⟩ <|
    .cons ⟨.act (i := 1) .acquire, trivial⟩ <| .cons ⟨.act (i := 1) .loadLimit, trivial⟩ <|
    .cons ⟨.act (i := 1) (.exhausted (by decide)), trivial⟩ <|
    .cons ⟨.act (i := 1) (.elect rfl), trivial⟩ <|
    .cons ⟨.act (i := 1) (.closed (by decide)), trivial⟩ <|
    .cons ⟨.act (i := 1) (.consult rfl), trivial⟩ <|
    .cons ⟨.act (i := 1) (.replenished (r := .ceiling two)), trivial⟩ <|
    .cons ⟨.act (i := 1) .storeLimit, trivial⟩ <| .cons ⟨.act (i := 1) .storeCalls, trivial⟩ <|
    .cons ⟨.act (i := 2) .acquire, trivial⟩ <| .cons ⟨.act (i := 2) .loadLimit, trivial⟩ <|
    .cons ⟨.act (i := 2) (.below (by decide)), trivial⟩ <|
    .cons ⟨.act (i := 2) (.grant rfl), fun | 0 | 1 | 2 | _ + 3 => rfl, by rintro _ _ ⟨⟩; rfl⟩ .nil
  let pre : List (Label Event Empty) :=
    [.act 0 .acquire, .act 0 .limitLoaded, .act 0 .callsLoaded, .act 0 .granted, .act 1 .acquire,
      .act 1 .limitLoaded, .act 1 .callsLoaded, .act 1 .elected, .act 1 .rechecked,
      .act 1 .consulted]
  let seg : List (Label Event Empty) :=
    [.act 1 .limitStored, .act 1 .callsReset, .act 2 .acquire, .act 2 .limitLoaded,
      .act 2 .callsLoaded, .act 2 .granted]
  exact ⟨pre, seg, _, r, rfl, granted_le_ceiling r pre seg [] rfl (by simp [seg])⟩

/-- Up to the answer of the policy: caller 0 has used up the epoch, caller 1 is elected. -/
def untilCeiling : List (Nat × Event) :=
  [(0, .acquire), (0, .limitLoaded), (0, .callsLoaded), (0, .granted),
    (1, .acquire), (1, .limitLoaded), (1, .callsLoaded), (1, .elected), (1, .rechecked),
    (1, .consulted)]

/-- From the answer on: caller 2 is admitted between the two stores, callers 3 and 4 after them. -/
def sinceCeiling : List (Nat × Event) :=
  [(1, .limitStored), (2, .acquire), (2, .limitLoaded), (2, .callsLoaded), (2, .granted),
    (1, .callsReset), (3, .acquire), (3, .limitLoaded), (3, .callsLoaded), (3, .granted),
    (4, .acquire), (4, .limitLoaded), (4, .callsLoaded), (4, .granted)]

/-- An epoch with ceiling 2 admits three calls: the ceiling is in force before the counter is
zeroed, and the permit granted in between is not counted. -/
theorem ceiling_overrun :
    ∃ pre seg s, Run FixedStep (.start (BudgetGate.new one).withReplenishPolicy)
        (pre ++ .act 1 (.replenished (.ceiling two)) :: seg) s ∧
      (∀ j, .act j .consulted ∉ seg) ∧ actorsOf .granted seg = [2, 3, 4] ∧
      actorsOf .refunded seg = [] ∧ two.get = 2 := by
  obtain ⟨s, played⟩ : ∃ s, play next
      (untilCeiling ++ (1, .replenished (.ceiling two)) :: sinceCeiling)
      (Gate.start (BudgetGate.new one).withReplenishPolicy) = some s := ⟨_, rfl⟩
  have r : Run FixedStep _ _ s := play_run next_eq_some.mp _ played
  rw [List.map_append, List.map_cons] at r
  exact ⟨_, _, s, r, by simp [sinceCeiling], rfl, rfl, rfl⟩

end CherryPit.Budget
