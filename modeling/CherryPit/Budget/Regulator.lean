import CherryPit.Budget.Election

/-!
# Charged calls per epoch

The adapter `BudgetRegulator` of `cherry-pit-wq/src/regulator.rs`: `admit` acquires a permit,
`settle` with `Free` refunds it and with `Charged` leaves it. An epoch is the interval between two
resets of the counter.

`refund` takes one from the counter of whatever epoch is current. If the permit was granted in that
epoch, the counter still bounds the charged calls (`charged_le_limit`); if the counter was reset in
between, the refund makes room for a call too many (`stale_refund_overrun`).
-/

namespace CherryPit.Budget

open Conc Threads

/-- The labels since the last reset of the counter. -/
def epoch (tr : List (Label Event Empty)) : List (Label Event Empty) :=
  tr.foldl (fun acc l =>
    match l with
    | .act _ .callsReset => []
    | _ => acc ++ [l]) []

/-- A reset starts an epoch. -/
lemma epoch_reset (tr : List (Label Event Empty)) (i : Nat) :
    epoch (tr ++ [.act i .callsReset]) = [] := by
  simp [epoch]

/-- Other events belong to the current epoch. -/
lemma epoch_concat {a : Event} (ne : a ≠ .callsReset) (tr : List (Label Event Empty)) (i : Nat) :
    epoch (tr ++ [.act i a]) = epoch tr ++ [.act i a] := by
  rw [epoch, List.foldl_append]
  cases a <;> first | rfl | exact (ne rfl).elim

/-- A stretch without a reset belongs to one epoch. -/
lemma suffix_epoch (tr : List (Label Event Empty)) {seg : List (Label Event Empty)}
    (none : ∀ i, .act i .callsReset ∉ seg) : seg <:+ epoch (tr ++ seg) := by
  induction seg using List.reverseRecOn with
  | nil => exact List.nil_suffix
  | append_singleton seg l ih =>
    have ih := ih fun i mem => none i (List.mem_append_left _ mem)
    cases l with
    | env b => exact b.elim
    | act i a =>
      have ne : a ≠ .callsReset := by
        rintro rfl
        exact none i (by simp)
      obtain ⟨t, e⟩ := ih
      rw [← List.append_assoc, epoch_concat ne, ← e]
      exact ⟨t, by simp⟩

lemma epoch_sublist (tr : List (Label Event Empty)) : (epoch tr).Sublist tr := by
  induction tr using List.reverseRecOn with
  | nil => exact .refl _
  | append_singleton tr l ih =>
    cases l with
    | env b => exact b.elim
    | act i a =>
      by_cases e : a = .callsReset
      · rw [e, epoch_reset]
        exact List.nil_sublist _
      · rw [epoch_concat e]
        exact ih.append (.refl _)

/-- Every refund is of a permit that was granted in the epoch in which it is refunded. -/
def RefundsOwnEpoch (tr : List (Label Event Empty)) : Prop :=
  ∀ n i, tr[n]? = some (.act i .refunded) → i ∈ actorsOf .granted (epoch (tr.take n))

lemma RefundsOwnEpoch.of_append {tr tr' : List (Label Event Empty)}
    (h : RefundsOwnEpoch (tr ++ tr')) : RefundsOwnEpoch tr := by
  intro n i at'
  have lt : n < tr.length := (List.getElem?_eq_some_iff.mp at').1
  have granted := h n i (by rw [List.getElem?_append_left lt, at'])
  rwa [List.take_append_of_le_length lt.le] at granted

/-- Then whoever refunds in an epoch was granted a permit in it. -/
lemma RefundsOwnEpoch.subset {tr : List (Label Event Empty)} (h : RefundsOwnEpoch tr) :
    actorsOf .refunded (epoch tr) ⊆ actorsOf .granted (epoch tr) := by
  induction tr using List.reverseRecOn with
  | nil => exact List.nil_subset _
  | append_singleton tr l ih =>
    have ih := ih h.of_append
    cases l with
    | env b => exact b.elim
    | act i a =>
      by_cases e : a = .callsReset
      · rw [e, epoch_reset]
        exact List.nil_subset _
      · rw [epoch_concat e]
        intro j mem
        rw [mem_actorsOf, List.mem_append] at mem ⊢
        left
        rcases mem with mem | mem
        · exact mem_actorsOf.mp (ih (mem_actorsOf.mpr mem))
        · obtain ⟨rfl, rfl⟩ : j = i ∧ .refunded = a := by simpa using mem
          have granted := h tr.length j (by simp)
          rw [List.take_left] at granted
          exact mem_actorsOf.mp granted

/-- What a caller has done by the time it is at a program point: it was granted a permit at most
once, and then settled it at most once. A bare refund is excluded. -/
def Settles (p : Pc) (as : List Event) : Prop :=
  .refund ∉ as →
    match p with
    | .countTotal | .returned true | .loadRefund | .tryRefund _ =>
      as.count .granted = 1 ∧ as.count (.settle .charged) = 0 ∧ as.count .refunded = 0
    | .done =>
      as.count .granted = 1 ∧ as.count (.settle .charged) + as.count .refunded ≤ 1
    | _ => as.count .granted = 0 ∧ as.count (.settle .charged) = 0 ∧ as.count .refunded = 0

/-- Rust `settle` is called at most once. -/
lemma Settles.keep {g p a g' p' as} (st : Local g p a g' p') (h : Settles p as) :
    Settles p' (as ++ [a]) := by
  intro no
  have h := h fun mem => no (List.mem_append_left _ mem)
  cases st with
  | refund => exact absurd (by simp) no
  | @replenished r => cases r <;> simpa [List.count_append, Replenished.pc] using h
  | @notify exit => cases exit <;> simpa [List.count_append, Exit.pc] using h
  | _ => simp_all [List.count_append]

/-- A permit is granted once, and charged or refunded once. -/
lemma Settles.once {p as} (h : Settles p as) (no : .refund ∉ as) :
    as.count .granted ≤ 1 ∧ as.count (.settle .charged) + as.count .refunded ≤ 1 := by
  have h := h no
  split at h <;> omega

variable {L : NonZeroU64} {tr : List (Label Event Empty)} {s : Gate}

/-- The counter accounts for the epoch: what was granted in it and not refunded in it. -/
lemma epoch_accounts (r : Run FixedStep (.start (.new L)) tr s) :
    (actorsOf .granted (epoch tr)).length =
      s.shared.calls + (actorsOf .refunded (epoch tr)).length := by
  obtain ⟨_, r'⟩ := FixedInv.run r
  refine r'.snocInduction (motive := fun tr s => (actorsOf .granted (epoch tr)).length =
    s.shared.calls + (actorsOf .refunded (epoch tr)).length) rfl ?_
  intro tr s l s' _ st ih
  cases st with
  | env no => exact no.elim
  | @act i a g p st =>
    obtain ⟨st, inv⟩ := st
    rcases st.counter with ⟨rfl, _, up⟩ | ⟨rfl, at', down⟩ | ⟨rfl, _, zero⟩ | ⟨n1, n2, n3, same⟩
    · rw [epoch_concat (a := .granted) nofun]
      simp only [length_actorsOf_concat, reduceCtorEq, if_true, if_false]
      omega
    · have pos := inv.refund_pos at'
      rw [epoch_concat (a := .refunded) nofun]
      simp only [length_actorsOf_concat, reduceCtorEq, if_true, if_false]
      omega
    · rw [epoch_reset]
      exact (congrArg (· + 0) zero).symm
    · rw [epoch_concat n3]
      simp only [length_actorsOf_concat, n1, n2, if_false]
      omega

/-- Along a run every caller settles what it was granted at most once. -/
lemma settles_once (r : Run FixedStep (.start (.new L)) tr s) (bare : ∀ i, .act i .refund ∉ tr)
    (i : Nat) :
    (actorsOf .granted tr).count i ≤ 1 ∧
      (actorsOf (.settle .charged) tr).count i + (actorsOf .refunded tr).count i ≤ 1 := by
  have start : ∀ i, Settles ((Gate.start (.new L)).pc i) [] := fun _ _ => ⟨rfl, rfl, rfl⟩
  have settles := run_thread (fun st h => .keep st h) start r i
  simp only [count_actorsOf]
  exact settles.once fun mem => bare i (mem_eventsOf.mp mem)

/-- The budget bounds charged calls per epoch, if every refund is of a permit granted in the epoch
it is refunded in: of the permits granted in a stretch of a run without a reset of the counter, at
most the limit are settled as charged. -/
theorem charged_le_limit (r : Run FixedStep (.start (.new L)) tr s)
    (bare : ∀ i, .act i .refund ∉ tr) (refunds : RefundsOwnEpoch tr) (pre seg post)
    (split : tr = pre ++ seg ++ post) (unreset : ∀ i, .act i .callsReset ∉ seg) :
    ((actorsOf .granted seg).filter fun i => .act i (.settle .charged) ∈ tr).length ≤ L.get := by
  have once := settles_once r bare
  subst split
  obtain ⟨s1, r1, _⟩ := r.split
  obtain ⟨inv, _⟩ := FixedInv.run r1
  have accounts := epoch_accounts r1
  have inEpoch : seg.Sublist (epoch (pre ++ seg)) := (suffix_epoch pre unreset).sublist
  have inRun : (epoch (pre ++ seg)).Sublist (pre ++ seg ++ post) :=
    (epoch_sublist _).trans (List.sublist_append_left _ _)
  have granted : (actorsOf .granted (epoch (pre ++ seg))).Nodup := by
    refine List.Nodup.sublist (actorsOf_sublist _ inRun) ?_
    exact List.nodup_iff_count_le_one.mpr fun i => (once i).1
  have refunded : (actorsOf .refunded (epoch (pre ++ seg))).Nodup := by
    refine List.Nodup.sublist (actorsOf_sublist _ inRun) ?_
    exact List.nodup_iff_count_le_one.mpr fun i => Nat.le_of_add_left_le (once i).2
  -- the charged permits of the stretch and the refunded ones of its epoch are different permits
  have charged : (((actorsOf .granted seg).filter fun i =>
      .act i (.settle .charged) ∈ pre ++ seg ++ post) ++
      actorsOf .refunded (epoch (pre ++ seg))).Subperm
        (actorsOf .granted (epoch (pre ++ seg))) := by
    refine List.subperm_of_subset ?_ ?_
    · refine List.nodup_append'.mpr ⟨?_, refunded, ?_⟩
      · exact (List.filter_sublist.trans (actorsOf_sublist _ inEpoch)).nodup granted
      · intro i mem mem'
        have charged := (List.mem_filter.mp mem).2
        rw [decide_eq_true_eq, ← mem_actorsOf, ← List.count_pos_iff] at charged
        have refunded := List.count_pos_iff.mpr ((actorsOf_sublist _ inRun).subset mem')
        have := (once i).2
        omega
    · refine List.append_subset.mpr ⟨?_, refunds.of_append.subset⟩
      exact (List.filter_sublist.trans (actorsOf_sublist _ inEpoch)).subset
  have count := charged.length_le
  rw [List.length_append] at count
  have bound := (inv 0).calls
  omega

/-- Caller 0 refunds its permit in the epoch it was granted in, and caller 1 is charged. -/
def ownRefund : List (Nat × Event) :=
  [(0, .acquire), (0, .limitLoaded), (0, .callsLoaded), (0, .granted), (0, .counted),
    (0, .settle .free), (0, .refundLoaded), (0, .refunded),
    (1, .acquire), (1, .limitLoaded), (1, .callsLoaded), (1, .granted), (1, .counted),
    (1, .settle .charged)]

/-- Two permits are granted in one epoch and one of them is charged. -/
theorem charged_le_limit_refunded :
    ∃ tr s, Run FixedStep (.start (.new one)) tr s ∧ actorsOf .granted tr = [0, 1] ∧
      ((actorsOf .granted tr).filter fun i => .act i (.settle .charged) ∈ tr).length ≤ one.get := by
  obtain ⟨s, played⟩ : ∃ s, play next ownRefund (Gate.start (.new one)) = some s := ⟨_, rfl⟩
  have r : Run FixedStep (.start (.new one)) (ownRefund.map fun x => .act x.1 x.2) s :=
    play_run next_eq_some.mp _ played
  have refunds : RefundsOwnEpoch (ownRefund.map fun x => .act x.1 x.2) := by
    intro n i at'
    have lt : n < 14 := (List.getElem?_eq_some_iff.mp at').1
    interval_cases n <;> simp [ownRefund] at at'
    subst at'
    decide
  refine ⟨_, s, r, rfl, ?_⟩
  exact charged_le_limit r (by simp [ownRefund]) refunds [] _ [] (by simp) (by simp [ownRefund])

/-- Caller 0 is admitted in the first epoch, caller 1 resets the counter. -/
def firstEpoch : List (Nat × Event) :=
  [(0, .acquire), (0, .limitLoaded), (0, .callsLoaded), (0, .granted), (0, .counted),
    (1, .acquire), (1, .limitLoaded), (1, .callsLoaded), (1, .elected), (1, .rechecked),
    (1, .sleeping), (1, .slept), (1, .callsReset)]

/-- Caller 1 is admitted in the second epoch, caller 0 refunds its permit of the first one, caller 2
is admitted, and callers 1 and 2 are charged. -/
def secondEpoch : List (Nat × Event) :=
  [(1, .guardDropped), (1, .notified), (1, .limitLoaded), (1, .callsLoaded), (1, .granted),
    (1, .counted), (0, .settle .free), (0, .refundLoaded), (0, .refunded),
    (2, .acquire), (2, .limitLoaded), (2, .callsLoaded), (2, .granted), (2, .counted),
    (1, .settle .charged), (2, .settle .charged)]

/-- Two calls are charged in an epoch with limit 1. -/
theorem stale_refund_overrun :
    ∃ pre seg s, Run FixedStep (.start (.new one)) (pre ++ seg) s ∧
      (∀ i, .act i .refund ∉ pre ++ seg) ∧ (∀ i, .act i .callsReset ∉ seg) ∧
      ((actorsOf .granted seg).filter fun i => .act i (.settle .charged) ∈ pre ++ seg) = [1, 2] ∧
      one.get = 1 := by
  obtain ⟨s, played⟩ : ∃ s, play next (firstEpoch ++ secondEpoch)
      (Gate.start (.new one)) = some s := ⟨_, rfl⟩
  have r : Run FixedStep _ _ s := play_run next_eq_some.mp _ played
  rw [List.map_append] at r
  exact ⟨_, _, s, r, by simp [firstEpoch, secondEpoch], by simp [secondEpoch], rfl, rfl⟩

end CherryPit.Budget
