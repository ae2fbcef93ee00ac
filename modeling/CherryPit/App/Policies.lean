import CherryPit.App.Dispatch

/-!
# What becomes of the outputs of policies

Two questions about `dispatch_one`. Whether every output is dispatched or recorded when it returns
`Ok`: it is, unless a policy fails terminally before its last output or the sink refuses the record
(`accounted_iff`). And whether the policies are independent: a policy that fails with a retryable
error ends the dispatch of the envelope, so the policies after it do not see the event, and nothing
else keeps one from seeing it (`isolated_iff`).
-/

namespace CherryPit.App

variable {E O : Type}

/-! ## Accounting -/

/-- Every output of the policy was dispatched, or its failure is in a record the sink accepted. -/
def Accounted (envelope : EventEnvelope E) (p : PolicyAdapter E O) (t : Turn O) : Prop :=
  ∀ (n : Nat) output, (p.react envelope)[n]? = some output →
    ∃ call, t.invocations[n]? = some call ∧ call.output = output ∧ call.ctx = contextOf envelope ∧
      (call.answer = .ok () ∨
        ∃ err, call.answer = .error err ∧ t.record = some (recordOf envelope p err, .ok ()))

/-- No output of any policy is lost. -/
def NoneLost (policies : List (PolicyAdapter E O)) (envelope : EventEnvelope E)
    (turns : List (Turn O)) : Prop :=
  ∀ (i : Nat) p, policies[i]? = some p → ∃ t, turns[i]? = some t ∧ Accounted envelope p t

section Accounting

variable {policies : List (PolicyAdapter E O)} {p : PolicyAdapter E O} {envelope : EventEnvelope E}
  {sink : DeadLetterSink} {deadLetter : Nat → DeadLetterSink} {n : Nat} {output : O}

/-- The invocations of a turn are those of the outputs up to the first failure. -/
lemma turn_invocation {call : Invocation O} :
    (turn envelope sink p).1.invocations[n]? = some call ↔
      Passes (p.invoke (contextOf envelope)) (p.react envelope) n ∧
      ∃ output, (p.react envelope)[n]? = some output ∧
        ⟨output, contextOf envelope, p.closure n output (contextOf envelope)⟩ = call := by
  rw [turn_invocations]
  exact tryEach_getElem?

/-- A turn after which the dispatch goes on accounts for its outputs if the failure, if there is
one, is that of the last output and the sink accepts its record. -/
lemma turn_accounted (h : (turn envelope sink p).2 = .ok ()) :
    Accounted envelope p (turn envelope sink p).1 ↔
      ∀ n err, p.Fails envelope n err →
        n + 1 = (p.react envelope).length ∧ sink (recordOf envelope p err) = .ok () := by
  rcases result : (p.dispatch envelope (contextOf envelope)).2 with err | ⟨⟨⟩⟩
  · obtain ⟨n, failed⟩ := tryEach_error.mp result
    obtain ⟨pass, output, at', answer⟩ := failed
    have terminal : err.category = .terminal := by
      by_contra ne
      cases h.symm.trans (turn_of_stop result ne)
    have record := (turn_of_terminal sink result terminal).1
    have only : ∀ {n' err'}, p.Fails envelope n' err' → n = n' ∧ err = err' :=
      fun failed' => FailsAt.unique ⟨pass, output, at', answer⟩ (fails_iff.mp failed')
    constructor
    · intro accounted n' err' failed'
      obtain ⟨rfl, rfl⟩ := only failed'
      refine ⟨?_, ?_⟩
      · -- a further output would not have been invoked
        have lt := (List.getElem?_eq_some_iff.mp at').1
        by_contra ne
        obtain ⟨call, invoked, -⟩ := accounted (n + 1) _ (List.getElem?_eq_getElem (by omega))
        cases ((turn_invocation.mp invoked).1 n output (Nat.lt_succ_self n) at').symm.trans answer
      · obtain ⟨call, invoked, rfl, -, answered⟩ := accounted n output at'
        obtain ⟨-, output', at'', rfl⟩ := turn_invocation.mp invoked
        rcases answered with ok | ⟨err', e, accepted⟩
        · cases ok.symm.trans answer
        · cases e.symm.trans answer
          rw [record] at accepted
          exact (Prod.mk.inj (Option.some.inj accepted)).2
    · intro ends m output' at''
      obtain ⟨last, accepted⟩ := ends n err (fails_iff.mpr ⟨pass, output, at', answer⟩)
      have le : m ≤ n := by
        have lt := (List.getElem?_eq_some_iff.mp at'').1
        omega
      refine ⟨_, turn_invocation.mpr ⟨fun k a lt => pass k a (by omega), output', at'', rfl⟩,
        rfl, rfl, ?_⟩
      rcases Nat.lt_or_eq_of_le le with lt | rfl
      · exact .inl (pass m output' lt at'')
      · cases at''.symm.trans at'
        exact .inr ⟨err, answer, by rw [record, accepted]⟩
  · have pass := tryEach_ok.mp result
    refine iff_of_true ?_ ?_
    · intro m output at'
      have lt := (List.getElem?_eq_some_iff.mp at').1
      exact ⟨_, turn_invocation.mpr ⟨fun k a lt' => pass k a (by omega), output, at', rfl⟩,
        rfl, rfl, .inl (pass m output lt at')⟩
    · intro n err failed
      cases result.symm.trans (tryEach_error.mpr ⟨n, fails_iff.mp failed⟩)

/-- When `dispatch_one` returns `Ok`, no output is lost if and only if every policy that failed did
so at its last output and the sink accepted the record. -/
theorem accounted_iff (h : (dispatchOne policies envelope deadLetter).2 = .ok ()) :
    NoneLost policies envelope (dispatchOne policies envelope deadLetter).1 ↔
      ∀ (i : Nat) p n err, policies[i]? = some p → p.Fails envelope n err →
        n + 1 = (p.react envelope).length ∧ deadLetter i (recordOf envelope p err) = .ok () := by
  have pass := tryEach_ok.mp h
  have took : ∀ {i : Nat} {p}, policies[i]? = some p →
      (turn envelope (deadLetter i) p).2 = .ok () ∧
      (dispatchOne policies envelope deadLetter).1[i]? =
        some (turn envelope (deadLetter i) p).1 := by
    intro i p at'
    have lt := (List.getElem?_eq_some_iff.mp at').1
    exact ⟨pass i p lt at', tryEach_getElem?.mpr ⟨fun k a lt' => pass k a (by omega), p, at', rfl⟩⟩
  constructor
  · intro none i p n err at' failed
    obtain ⟨t, there, accounted⟩ := none i p at'
    cases (took at').2.symm.trans there
    exact (turn_accounted (took at').1).mp accounted n err failed
  · intro ends i p at'
    exact ⟨_, (took at').2, (turn_accounted (took at').1).mpr fun n err => ends i p n err at'⟩

end Accounting

/-- The last output fails terminally and the sink accepts the record. -/
theorem accounted_iff_recorded :
    (dispatchOne [notifier [7] fun _ => .error (.policy "smtp 421")] sample
      fun _ _ => .ok ()).2 = .ok () ∧
    NoneLost [notifier [7] fun _ => .error (.policy "smtp 421")] sample
      (dispatchOne [notifier [7] fun _ => .error (.policy "smtp 421")] sample
        fun _ _ => .ok ()).1 := by
  refine ⟨rfl, (accounted_iff rfl).mpr ?_⟩
  intro i p n err at' failed
  obtain ⟨⟨output, there, -⟩, -⟩ := failed
  cases i with
  | zero =>
    cases at'
    have lt := (List.getElem?_eq_some_iff.mp there).1
    exact ⟨le_antisymm lt (Nat.succ_pos n), rfl⟩
  | succ i => cases at'

/-- `Ok`, and an output is lost: one that comes after a terminal failure, and one whose record the
sink refuses. -/
theorem output_lost :
    ((dispatchOne [notifier [7, 8] fun _ => .error (.policy "smtp 421")] sample
        fun _ _ => .ok ()).2 = .ok () ∧
      ¬ NoneLost [notifier [7, 8] fun _ => .error (.policy "smtp 421")] sample
        (dispatchOne [notifier [7, 8] fun _ => .error (.policy "smtp 421")] sample
          fun _ _ => .ok ()).1) ∧
    ((dispatchOne [notifier [7] fun _ => .error (.policy "smtp 421")] sample
        fun _ _ => .error "disk full").2 = .ok () ∧
      ¬ NoneLost [notifier [7] fun _ => .error (.policy "smtp 421")] sample
        (dispatchOne [notifier [7] fun _ => .error (.policy "smtp 421")] sample
          fun _ _ => .error "disk full").1) := by
  refine ⟨⟨rfl, fun none => ?_⟩, rfl, fun none => ?_⟩
  · obtain ⟨t, there, accounted⟩ := none 0 _ rfl
    cases there
    obtain ⟨call, invoked, -⟩ := accounted 1 8 rfl
    cases invoked
  · obtain ⟨t, there, accounted⟩ := none 0 _ rfl
    cases there
    obtain ⟨call, invoked, -, -, answered⟩ := accounted 0 7 rfl
    cases invoked
    rcases answered with ok | ⟨err, -, accepted⟩
    · cases ok
    · cases (Prod.mk.inj (Option.some.inj accepted)).2

/-! ## Isolation -/

/-- What the policy at a position sees while an envelope is dispatched. -/
def seen (policies : List (PolicyAdapter E O)) (envelope : EventEnvelope E)
    (deadLetter : Nat → DeadLetterSink) (i : Nat) : List (O × CorrelationContext) :=
  match (dispatchOne policies envelope deadLetter).1[i]? with
  | some t => t.invocations.map fun call => (call.output, call.ctx)
  | none => []

/-- The position of the `j`-th of the other policies, if one is registered after `l`. -/
def place (l : List (PolicyAdapter E O)) (j : Nat) : Nat :=
  if j < l.length then j else j + 1

/-- Policy `a`, registered after `l`, ends the dispatch before the `j`-th of the others. -/
def Hides (l : List (PolicyAdapter E O)) (a : PolicyAdapter E O) (envelope : EventEnvelope E)
    (j : Nat) : Prop :=
  l.length ≤ j ∧ a.Stops envelope

/-- What a policy does with an envelope when it has its turn. -/
def PolicyAdapter.calls (p : PolicyAdapter E O) (envelope : EventEnvelope E) :
    List (O × CorrelationContext) :=
  (p.dispatch envelope (contextOf envelope)).1.map fun call => (call.output, call.ctx)

section Isolation

variable {policies l l' r r' : List (PolicyAdapter E O)} {p a a' : PolicyAdapter E O}
  {envelope : EventEnvelope E} {deadLetter deadLetter' : Nat → DeadLetterSink} {i j : Nat}

/-- No policy before a position ends the dispatch. -/
def Reached (policies : List (PolicyAdapter E O)) (envelope : EventEnvelope E) (i : Nat) : Prop :=
  ∀ m q, m < i → policies[m]? = some q → ¬ q.Stops envelope

lemma passes_iff_reached :
    Passes (fun i => turn envelope (deadLetter i)) policies i ↔ Reached policies envelope i := by
  constructor
  · exact fun h m q lt at' => turn_ok_iff.mp (h m q lt at')
  · exact fun h m q lt at' => turn_ok_iff.mpr (h m q lt at')

lemma seen_of_reached (at' : policies[i]? = some p) (h : Reached policies envelope i) :
    seen policies envelope deadLetter i = p.calls envelope := by
  have there : (dispatchOne policies envelope deadLetter).1[i]? =
      some (turn envelope (deadLetter i) p).1 :=
    tryEach_getElem?.mpr ⟨passes_iff_reached.mpr h, p, at', rfl⟩
  rw [seen, there, PolicyAdapter.calls, ← turn_invocations]

lemma seen_of_not_reached (h : ¬ Reached policies envelope i) :
    seen policies envelope deadLetter i = [] := by
  rw [seen]
  split
  · rename_i t there
    exact absurd (passes_iff_reached.mp (tryEach_getElem?.mp there).1) h
  · rfl

/-- A policy that has outputs does something. -/
lemma calls_eq_nil : p.calls envelope = [] ↔ p.react envelope = [] := by
  rw [PolicyAdapter.calls, List.map_eq_nil_iff, PolicyAdapter.dispatch]
  cases p.react envelope with
  | nil => exact iff_of_true rfl rfl
  | cons output rest =>
    refine iff_of_false (fun e => ?_) nofun
    have first : (tryEach (p.invoke (contextOf envelope)) (output :: rest)).1[0]? = some _ :=
      tryEach_getElem?.mpr ⟨passes_zero, output, rfl, rfl⟩
    rw [e] at first
    cases first

lemma getElem?_place : (l ++ a :: r)[place l j]? = (l ++ r)[j]? := by
  rw [place]
  split_ifs with lt
  · rw [List.getElem?_append_left lt, List.getElem?_append_left lt]
  · rw [List.getElem?_append_right (by omega), List.getElem?_append_right (by omega),
      show j + 1 - l.length = (j - l.length) + 1 by omega, List.getElem?_cons_succ]

/-- Another policy is reached if the others before it let it be and `a` does not hide it. -/
lemma reached_place :
    Reached (l ++ a :: r) envelope (place l j) ↔
      Reached (l ++ r) envelope j ∧ ¬ Hides l a envelope j := by
  constructor
  · intro h
    refine ⟨fun m q lt at' => ?_, fun hides => ?_⟩
    · refine h (place l m) q ?_ (getElem?_place.trans at')
      rw [place, place]
      split_ifs <;> omega
    · have le := hides.1
      refine h l.length a ?_ (by simp) hides.2
      rw [place, if_neg (by omega)]
      omega
  · rintro ⟨others, shown⟩ m q lt at' stops
    -- position `m` is that of `a` or that of another policy
    rcases Nat.lt_trichotomy m l.length with before | rfl | after
    · refine others m q ?_ ?_ stops
      · rw [place] at lt
        split_ifs at lt <;> omega
      · rw [← getElem?_place (a := a), place, if_pos before]
        exact at'
    · cases (show (l ++ a :: r)[l.length]? = some a by simp).symm.trans at'
      refine shown ⟨?_, stops⟩
      rw [place] at lt
      split_ifs at lt <;> omega
    · refine others (m - 1) q ?_ ?_ stops
      · rw [place] at lt
        split_ifs at lt <;> omega
      · rw [← getElem?_place (a := a), place, if_neg (by omega), Nat.sub_add_cancel (by omega)]
        exact at'

/-- What another policy sees. -/
lemma seen_place (at' : (l ++ r)[j]? = some p) :
    (Reached (l ++ r) envelope j ∧ ¬ Hides l a envelope j ∧
      seen (l ++ a :: r) envelope deadLetter (place l j) = p.calls envelope) ∨
    (¬ (Reached (l ++ r) envelope j ∧ ¬ Hides l a envelope j) ∧
      seen (l ++ a :: r) envelope deadLetter (place l j) = []) := by
  by_cases h : Reached (l ++ r) envelope j ∧ ¬ Hides l a envelope j
  · exact .inl ⟨h.1, h.2, seen_of_reached (getElem?_place.trans at') (reached_place.mpr h)⟩
  · exact .inr ⟨h, seen_of_not_reached fun reached => h (reached_place.mp reached)⟩

/-- Two registries that differ in one policy, in its results or its position. Every other policy
sees the same in both, if and only if for each of them that has outputs, and that no other policy
before it keeps from its turn, the one policy ends the dispatch before it in both registries or in
neither. -/
theorem isolated_iff (others : l ++ r = l' ++ r') :
    (∀ j p, (l ++ r)[j]? = some p →
      seen (l ++ a :: r) envelope deadLetter (place l j) =
        seen (l' ++ a' :: r') envelope deadLetter' (place l' j)) ↔
    ∀ j p, (l ++ r)[j]? = some p → p.react envelope ≠ [] → Reached (l ++ r) envelope j →
      (Hides l a envelope j ↔ Hides l' a' envelope j) := by
  constructor
  · intro same j p at' outputs reached
    have there := same j p at'
    have at'' := others ▸ at'
    have reached' := others ▸ reached
    rcases seen_place (a := a) at' with ⟨-, shown, sees⟩ | ⟨hidden, sees⟩ <;>
      rcases seen_place (a := a') at'' with ⟨-, shown', sees'⟩ | ⟨hidden', sees'⟩
    · exact iff_of_false shown shown'
    · rw [sees, sees'] at there
      exact absurd (calls_eq_nil.mp there) outputs
    · rw [sees, sees'] at there
      exact absurd (calls_eq_nil.mp there.symm) outputs
    · exact iff_of_true (not_not.mp fun no => hidden ⟨reached, no⟩)
        (not_not.mp fun no => hidden' ⟨reached', no⟩)
  · intro alike j p at'
    have at'' := others ▸ at'
    rcases seen_place (a := a) at' with ⟨reached, shown, sees⟩ | ⟨hidden, sees⟩ <;>
      rcases seen_place (a := a') at'' with ⟨reached', shown', sees'⟩ | ⟨hidden', sees'⟩
    · rw [sees, sees']
    · rw [sees, sees', calls_eq_nil]
      by_contra outputs
      have iff := alike j p at' outputs reached
      exact hidden' ⟨others ▸ reached, fun hides => shown (iff.mpr hides)⟩
    · rw [sees, sees', eq_comm, calls_eq_nil]
      by_contra outputs
      have iff := alike j p at' outputs (others ▸ reached')
      exact hidden ⟨others ▸ reached', fun hides => shown' (iff.mp hides)⟩
    · rw [sees, sees']

end Isolation

/-- A policy that fails terminally and one that succeeds hide nothing, wherever they stand. -/
theorem isolated_iff_terminal :
    seen ([] ++ notifier [7] (fun _ => .error (.policy "smtp 421")) ::
        [notifier [9] fun _ => .ok ()]) sample (fun _ _ => .ok ()) 1 =
      seen ([notifier [9] fun _ => .ok ()] ++ notifier [7] (fun _ => .ok ()) :: []) sample
        (fun _ _ => .ok ()) 0 := by
  have others : [] ++ [notifier [9] fun _ => .ok ()] = [notifier [9] fun _ => .ok ()] ++ [] := rfl
  refine (isolated_iff others).mpr ?_ 0 _ rfl
  intro j p at' _ _
  refine iff_of_false ?_ ?_
  · rintro ⟨-, n, err, ⟨⟨output, -, failed⟩, -⟩, ne⟩
    cases failed
    exact ne rfl
  · rintro ⟨-, n, err, ⟨⟨output, -, failed⟩, -⟩, -⟩
    cases failed

/-- A policy that fails with a retryable error decides, by its result and by its position, whether
another one sees the event. -/
theorem hidden_by_retryable :
    seen [notifier [7] fun _ => .error (.bus ⟨"network blip"⟩), notifier [9] fun _ => .ok ()] sample
        (fun _ _ => .ok ()) 1 = [] ∧
    seen [notifier [7] fun _ => .ok (), notifier [9] fun _ => .ok ()] sample
        (fun _ _ => .ok ()) 1 = [(9, contextOf sample)] ∧
    seen [notifier [9] fun _ => .ok (), notifier [7] fun _ => .error (.bus ⟨"network blip"⟩)] sample
        (fun _ _ => .ok ()) 0 = [(9, contextOf sample)] :=
  ⟨rfl, rfl, rfl⟩

end CherryPit.App
