import CherryPit.Conc.Ledger

/-!
# The batch tracker

Port of `BatchTracker` (`cherry-pit-wq/src/work_queue.rs`): a counter of the jobs of a batch,
counted down by `complete_one` and `retire` (`drain` is `retire(usize::MAX)`), and a `Notify` for
the callers of `wait`. Every access to the counter and to the `Notify` is one step; an interleaving
is a run of `Conc.Threads`.

Rust → Lean: a `usize` has 64 bits and `fetch_sub` wraps. `try_update` loads the counter and repeats
a weak compare-exchange, which may fail at any time. Of the `Notify` only its count of
`notify_waiters` calls is kept: a `Notified` future remembers the count it was created at and is
ready once the count has moved.

`complete_one` subtracts before it looks. On a batch that `drain` has emptied it leaves the counter
at `usize::MAX` and panics; this is the only way in which the tracker is wrong
(`sound_iff_counted`).
-/

namespace CherryPit.WorkQueue.Batch

open Conc Threads

def usizeMax : Nat := 2 ^ 64 - 1

/-- Rust `fetch_sub(1)` on a `usize`. -/
def wrappingPred (n : Nat) : Nat := (n + usizeMax) % 2 ^ 64

/-- Rust `BatchTracker`. -/
structure BatchTracker where
  remaining : Nat
  notified : Nat
  deriving DecidableEq

/-- Rust `BatchTracker::new`. -/
def BatchTracker.new (count : Nat) : BatchTracker := ⟨count, 0⟩

/-- A call that has emptied the batch. -/
def empties (prev count : Nat) : Bool :=
  let retired := min prev count
  0 < retired && prev = retired

/-- The program points of a caller, named after what it is about to do. -/
inductive Pc where
  | idle
  | subtract
  | assert (prev : Nat)
  | panicked
  | load (count : Nat)
  | update (count prev : Nat)
  | report (count prev : Nat)
  | check (epoch : Nat)
  | await (epoch : Nat)
  deriving DecidableEq

/-- What a step does; the two that change the counter are marked with the value before. -/
inductive Event where
  | called
  | subtracted (prev : Nat)
  | panicked
  | loaded
  | casFailed
  | updated (count prev : Nat)
  | notified
  | returned
  deriving DecidableEq

/-- One atomic step of one caller. -/
inductive Local : BatchTracker → Pc → Event → BatchTracker → Pc → Prop where
  | completeOne {g} :
    Local g .idle .called g .subtract
  | subtract {g} :
    Local g .subtract (.subtracted g.remaining)
      { g with remaining := wrappingPred g.remaining } (.assert g.remaining)
  | panic {g} :
    Local g (.assert 0) .panicked g .panicked
  | last {g} :
    Local g (.assert 1) .notified { g with notified := g.notified + 1 } .idle
  | notLast {g prev} :
    1 < prev →
    Local g (.assert prev) .returned g .idle
  | retireNone {g} :
    Local g .idle .returned g .idle
  | retire {g count} :
    0 < count →
    count ≤ usizeMax →
    Local g .idle .called g (.load count)
  | load {g count} :
    Local g (.load count) .loaded g (.update count g.remaining)
  | update {g count prev} :
    g.remaining = prev →
    Local g (.update count prev) (.updated count prev) { g with remaining := prev - count }
      (.report count prev)
  | casFailed {g count prev} :
    Local g (.update count prev) .casFailed g (.update count g.remaining)
  | emptied {g count prev} :
    empties prev count = true →
    Local g (.report count prev) .notified { g with notified := g.notified + 1 } .idle
  | retired {g count prev} :
    empties prev count = false →
    Local g (.report count prev) .returned g .idle
  | wait {g} :
    Local g .idle .called g (.check g.notified)
  | done {g epoch} :
    g.remaining = 0 →
    Local g (.check epoch) .returned g .idle
  | closed {g epoch} :
    g.remaining ≠ 0 →
    Local g (.check epoch) .loaded g (.await epoch)
  | woken {g epoch} :
    epoch < g.notified →
    Local g (.await epoch) .returned g .idle

/-- The tracker with its callers. -/
abbrev Tracker := Threads BatchTracker Pc

/-- Steps of the callers; nobody else has access. -/
abbrev TrackerStep : Tracker → Label Event Empty → Tracker → Prop :=
  Step Local fun _ _ _ => False

/-- A tracker before its first call. -/
def Tracker.start (count : Nat) : Tracker := Threads.start (.new count) .idle

/-! ## What the calls ask for and get -/

/-- The slots that a step is to retire. -/
def Event.requests : Event → Nat
  | .subtracted _ => 1
  | .updated count _ => count
  | _ => 0

/-- The slots that it retires. -/
def Event.retires : Event → Nat
  | .subtracted prev => min prev 1
  | .updated count prev => min prev count
  | _ => 0

/-- Whether it empties the batch. -/
def Event.empties : Event → Nat
  | .subtracted prev => if prev = 1 then 1 else 0
  | .updated count prev => if Batch.empties prev count then 1 else 0
  | _ => 0

def Event.notifies : Event → Nat
  | .notified => 1
  | _ => 0

/-- Whether a caller is about to notify. -/
def Pc.notifies : Pc → Nat
  | .assert prev => if prev = 1 then 1 else 0
  | .report count prev => if Batch.empties prev count then 1 else 0
  | _ => 0

/-- A call that empties the batch is about to notify until it has done so. -/
lemma Local.ledger {g p a g' p'} (st : Local g p a g' p') :
    a.empties + p.notifies = a.notifies + p'.notifies := by
  cases st with
  | last => rfl
  | panic => rfl
  | notLast lt =>
    simp only [Event.empties, Event.notifies, Pc.notifies, if_neg lt.ne']
  | emptied eq => simp [Event.empties, Event.notifies, Pc.notifies, eq]
  | retired eq => simp [Event.empties, Event.notifies, Pc.notifies, eq]
  | _ => simp [Event.empties, Event.notifies, Pc.notifies]

lemma Local.notified {g p a g' p'} (st : Local g p a g' p') :
    g'.notified = g.notified + a.notifies := by
  cases st <;> rfl

lemma wrappingPred_of_pos {m : Nat} (pos : 0 < m) (le : m ≤ usizeMax) : wrappingPred m = m - 1 := by
  simp only [wrappingPred, usizeMax] at le ⊢
  omega

/-- What a step does to the counter, unless it subtracts from zero. -/
structure Counted (g : BatchTracker) (a : Event) (g' : BatchTracker) : Prop where
  remaining : g'.remaining = g.remaining - a.requests
  retired : a.retires + g'.remaining = g.remaining
  emptied : a.empties = if g.remaining ≠ 0 ∧ g'.remaining = 0 then 1 else 0

lemma Counted.unchanged {g g' : BatchTracker} {a : Event} (same : g'.remaining = g.remaining)
    (requests : a.requests = 0) (retires : a.retires = 0) (empties : a.empties = 0) :
    Counted g a g' where
  remaining := by omega
  retired := by omega
  emptied := by rw [if_neg (by omega), empties]

lemma Local.counted {g p a g' p'} (st : Local g p a g' p') (fits : g.remaining ≤ usizeMax)
    (pos : a ≠ .subtracted 0) : Counted g a g' := by
  cases st with
  | subtract =>
    have pos : 0 < g.remaining := Nat.pos_of_ne_zero fun zero => pos (by rw [zero])
    have pred := wrappingPred_of_pos pos fits
    refine ⟨pred, ?_, ?_⟩
    · simp only [Event.retires, pred]
      omega
    · simp only [Event.empties, pred]
      exact if_congr (by omega) rfl rfl
  | @update count prev eq =>
    refine ⟨by rw [eq]; rfl, ?_, ?_⟩
    · simp only [Event.retires, eq]
      omega
    · simp only [Event.empties, eq, empties, Bool.and_eq_true, decide_eq_true_eq]
      exact if_congr (by omega) rfl rfl
  | _ => exact .unchanged rfl rfl rfl rfl

/-- A subtraction from zero wraps. -/
lemma Local.wrapped {g p g' p'} (st : Local g p (.subtracted 0) g' p') :
    g.remaining = 0 ∧ g'.remaining = usizeMax := by
  generalize eq : Event.subtracted 0 = a at st
  cases st with
  | subtract =>
    have zero : g.remaining = 0 := (Event.subtracted.inj eq).symm
    refine ⟨zero, ?_⟩
    simp only [zero]
    rfl
  | _ => cases eq

section Runs

variable {n : Nat} {tr : List (Label Event Empty)} {s : Tracker}

/-- The `Notify` counts the notifications. -/
lemma run_notified (run : Run TrackerStep (.start n) tr s) :
    s.shared.notified = total Event.notifies tr := by
  refine run.snocInduction
    (motive := fun tr s => s.shared.notified = total Event.notifies tr) rfl ?_
  intro tr s l s' _ st ih
  cases st with
  | env st => exact st.elim
  | act st => rw [total_act, ← ih, st.notified]

/-- There are no more notifications than calls that emptied the batch. -/
lemma notified_le (run : Run TrackerStep (.start n) tr s) :
    s.shared.notified ≤ total Event.empties tr := by
  rw [run_notified run]
  exact le_of_add_le_left
    (run_ledger_le Pc.notifies (fun st => Local.ledger st) (fun _ => rfl) run 0)

/-- And as many, if no call is about to notify. -/
lemma notified_eq (run : Run TrackerStep (.start n) tr s) (idle : ∀ i, (s.pc i).notifies = 0) :
    s.shared.notified = total Event.empties tr := by
  rw [run_notified run]
  exact (run_settled Pc.notifies (fun st => Local.ledger st) (fun _ => rfl) run idle).symm

/-- The counter after the calls of a run none of which subtracted from an empty batch. -/
structure Counts (n : Nat) (tr : List (Label Event Empty)) (s : Tracker) : Prop where
  remaining : s.shared.remaining = n - total Event.requests tr
  retired : total Event.retires tr + s.shared.remaining = n
  emptied : total Event.empties tr = if s.shared.remaining = 0 then 1 else 0

/-- A step that does not subtract from zero. -/
lemma Counts.step {i a g p} (h : Counts n tr s) (counted : Counted s.shared a g) :
    Counts n (tr ++ [.act i a]) ⟨g, Function.update s.pc i p⟩ := by
  refine ⟨?_, ?_, ?_⟩
  · rw [total_act, Nat.sub_add_eq, ← h.remaining]
    exact counted.remaining
  · rw [total_act, Nat.add_assoc, counted.retired]
    exact h.retired
  · rw [total_act, h.emptied, counted.emptied]
    have remaining := counted.remaining
    change _ = if g.remaining = 0 then 1 else 0
    split_ifs <;> omega

lemma Counts.start (pos : 0 < n) : Counts n [] (.start n) where
  remaining := rfl
  retired := Nat.zero_add n
  emptied := (if_neg pos.ne').symm

/-- A run none of whose steps subtracts from zero counts. -/
lemma run_counts (pos : 0 < n) (fits : n ≤ usizeMax) (run : Run TrackerStep (.start n) tr s)
    (counted : ∀ i, .act i (.subtracted 0) ∉ tr) : Counts n tr s := by
  refine run.snocInduction (motive := fun tr s => (∀ i, .act i (.subtracted 0) ∉ tr) →
    Counts n tr s) (fun _ => .start pos) ?_ counted
  intro tr s l s' _ st ih counted
  have counts := ih fun i mem => counted i (List.mem_append_left _ mem)
  cases st with
  | env st => exact st.elim
  | @act i a g p st =>
    have le : s.shared.remaining ≤ usizeMax := by
      have retired := counts.retired
      omega
    refine counts.step (st.counted le ?_)
    rintro rfl
    exact counted i (List.mem_append_right _ (List.mem_singleton_self _))

/-- The tracker is right: its counter is in range and accounts for what was retired; and when as
much was requested as there was, it is zero and one call has notified the waiters, or is about to.
-/
structure Sound (n : Nat) (tr : List (Label Event Empty)) (s : Tracker) : Prop where
  range : s.shared.remaining ≤ n
  balance : total Event.retires tr + s.shared.remaining = n
  empty : n ≤ total Event.requests tr → s.shared.remaining = 0
  atMostOnce : s.shared.notified ≤ 1
  once : n ≤ total Event.requests tr → (∀ i, (s.pc i).notifies = 0) →
    s.shared.notified = 1

lemma Counts.sound (h : Counts n tr s) (run : Run TrackerStep (.start n) tr s) : Sound n tr s := by
  have emptied := h.emptied
  have empty : n ≤ total Event.requests tr → s.shared.remaining = 0 := by
    intro le
    rw [h.remaining]
    exact Nat.sub_eq_zero_of_le le
  refine ⟨?_, h.retired, empty, ?_, ?_⟩
  · rw [h.remaining]
    exact Nat.sub_le _ _
  · refine (notified_le run).trans ?_
    rw [emptied]
    split_ifs <;> omega
  · intro le idle
    rw [notified_eq run idle, emptied, if_pos (empty le)]

/-- When the tracker is right. In every run the tracker is right in every state that the run
goes through, if and only if no `complete_one` subtracts from a counter that is zero. -/
theorem sound_iff_counted (pos : 0 < n) (fits : n ≤ usizeMax)
    (run : Run TrackerStep (.start n) tr s) :
    (∀ before after, tr = before ++ after → ∀ s', Run TrackerStep (.start n) before s' →
      Sound n before s') ↔ ∀ i, .act i (.subtracted 0) ∉ tr := by
  constructor
  · intro sound i mem
    obtain ⟨before, after, rfl⟩ := List.append_of_mem mem
    obtain ⟨s1, run1, rest⟩ := run.split
    cases rest with
    | cons st rest =>
      have balance := (sound before _ rfl s1 run1).balance
      have balance' := (sound (before ++ [.act i (.subtracted 0)]) after (by simp) _
        (run1.snoc st)).balance
      cases st with
      | act st =>
        -- nothing was retired, but the counter has grown
        obtain ⟨zero, wrapped⟩ := st.wrapped
        rw [total_act] at balance'
        simp only [Event.retires, wrapped, usizeMax] at balance'
        omega
  · rintro counted before after rfl s' run'
    refine (run_counts pos fits run' ?_).sound run'
    exact fun i mem => counted i (List.mem_append_left _ mem)

end Runs

/-- A batch of two is retired one by one. -/
theorem sound_iff_counted_two :
    ∃ tr s, Run TrackerStep (.start 2) tr s ∧ 2 ≤ total Event.requests tr ∧
      Sound 2 tr s := by
  have run : ∃ s, Run TrackerStep (.start 2) [.act 0 .called, .act 0 (.subtracted 2),
      .act 0 .returned, .act 1 .called, .act 1 .loaded, .act 1 (.updated 5 1),
      .act 1 .notified] s :=
    ⟨_, .cons (.act .completeOne) <| .cons (.act .subtract) <|
      .cons (.act (.notLast Nat.one_lt_two)) <|
      .cons (.act (@Local.retire _ 5 (by decide) (by decide))) <| .cons (.act .load) <|
      .cons (.act (@Local.update _ 5 1 rfl)) <| .cons (.act (@Local.emptied _ 5 1 rfl)) .nil⟩
  obtain ⟨s, run⟩ := run
  refine ⟨_, s, run, by decide, ?_⟩
  exact (sound_iff_counted Nat.two_pos (by decide) run).mpr (by simp) _ []
    (List.append_nil _).symm _ run

/-- A job that was under way when the batch was drained reports its completion. -/
theorem late_completion_wraps :
    ∃ tr s, Run TrackerStep (.start 1) tr s ∧ s.pc 1 = .panicked ∧
      s.shared.remaining = usizeMax ∧ ¬ Sound 1 tr s := by
  have run : Run TrackerStep (.start 1) _ _ :=
    .cons (.act (i := 0) (@Local.retire _ usizeMax (by decide) (by decide))) <|
    .cons (.act (i := 0) .load) <| .cons (.act (i := 0) (.update rfl)) <|
    .cons (.act (i := 0) (.emptied (by decide))) <|
    .cons (.act (i := 1) .completeOne) <| .cons (.act (i := 1) .subtract) <|
    .cons (.act (i := 1) .panic) .nil
  refine ⟨_, _, run, rfl, rfl, fun sound => ?_⟩
  exact absurd sound.range (by decide)

end CherryPit.WorkQueue.Batch
