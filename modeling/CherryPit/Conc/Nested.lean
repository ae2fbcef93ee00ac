import CherryPit.Conc.Threads

/-!
# Calls within calls

Threads that are in the middle of calls on an object. A call is busy with code of the object, an
`F`, or it waits for code of its caller's choice that it has called, a `K`; only that code can make
the next call, so that of the calls of a thread only the last one is busy. An action carries the
depth of its call: how many calls wait below it.

What happens above a call does not change it. By `call_history` its own actions are therefore a
history of its own, with anything in between.
-/

namespace CherryPit.Conc

variable {G F K A B : Type}

/-- The calls that a thread is in. -/
structure CallStack (F K : Type) where
  busy : Option F
  waiting : List K

namespace CallStack

/-- No calls. -/
def none : CallStack F K := ⟨.none, []⟩

/-- A call above others, if it has not ended. -/
def place : Option (F ⊕ K) → List K → CallStack F K
  | .none, below => ⟨.none, below⟩
  | some (.inl f), below => ⟨some f, below⟩
  | some (.inr k), below => ⟨.none, k :: below⟩

/-- The call above `below` is at `x`. -/
def At (below : List K) (c : CallStack F K) : F ⊕ K → Prop
  | .inl f => c = ⟨some f, below⟩
  | .inr k => ∃ above, c.waiting = above ++ k :: below

lemma At.place (x : F ⊕ K) (below : List K) : At below (CallStack.place (some x) below) x := by
  cases x with
  | inl f => exact rfl
  | inr k => exact ⟨[], rfl⟩

/-- What is placed above a call that waits leaves it there. -/
lemma At.above (x : Option (F ⊕ K)) (k : K) (above below : List K) :
    At below (CallStack.place x (above ++ k :: below)) (.inr k) := by
  cases x with
  | none => exact ⟨above, rfl⟩
  | some x =>
    cases x with
    | inl f => exact ⟨above, rfl⟩
    | inr k' => exact ⟨k' :: above, rfl⟩

end CallStack

/-- Steps of a thread that makes calls: it starts one, or its last one acts. -/
inductive Nested (enter : A → F → Prop) (acts : G → F ⊕ K → A → G → Option (F ⊕ K) → Prop) :
    G → CallStack F K → Nat × A → G → CallStack F K → Prop where
  | enter {g below a f} :
    enter a f →
    Nested enter acts g ⟨none, below⟩ (below.length, a) g ⟨some f, below⟩
  | act {g f below a g' x} :
    acts g (.inl f) a g' x →
    Nested enter acts g ⟨some f, below⟩ (below.length, a) g' (.place x below)
  | resume {g k below a g' x} :
    acts g (.inr k) a g' x →
    Nested enter acts g ⟨none, k :: below⟩ (below.length, a) g' (.place x below)

namespace Nested

variable {enter : A → F → Prop} {acts : G → F ⊕ K → A → G → Option (F ⊕ K) → Prop}
  {env : G → B → G → Prop} {g g' : G} {c c' : CallStack F K} {a : Nat × A} {x : F ⊕ K}
  {below : List K}

/-- An action is one of the call, or it is deeper and leaves the call where it is. -/
lemma cases_at (st : Nested enter acts g c a g' c') (pos : c.At below x) :
    (∃ x', acts g x a.2 g' x' ∧ a.1 = below.length ∧ c' = .place x' below) ∨
      (below.length < a.1 ∧ c'.At below x) := by
  cases x with
  | inl f =>
    obtain rfl : c = ⟨some f, below⟩ := pos
    cases st with
    | act st => exact .inl ⟨_, st, rfl, rfl⟩
  | inr k =>
    obtain ⟨above, eq⟩ := pos
    have deeper (above : List K) : below.length < (above ++ k :: below).length := by
      simp only [List.length_append, List.length_cons]
      omega
    cases st with
    | enter st =>
      obtain rfl := eq
      exact .inr ⟨deeper above, above, rfl⟩
    | act st =>
      obtain rfl := eq
      exact .inr ⟨deeper above, .above _ k above below⟩
    | resume st =>
      cases above with
      | nil =>
        obtain ⟨rfl, rfl⟩ := List.cons.inj eq
        exact .inl ⟨_, st, rfl, rfl⟩
      | cons top above =>
        obtain ⟨rfl, rfl⟩ := List.cons.inj eq
        exact .inr ⟨deeper above, .above _ k above below⟩

/-- What the calls at a depth do. -/
def own (d : Nat) (as : List (Nat × A)) : List A :=
  as.filterMap fun a => if a.1 = d then some a.2 else none

lemma own_snoc_self (d : Nat) (as : List (Nat × A)) (a : A) :
    own d (as ++ [(d, a)]) = own d as ++ [a] := by
  simp [own]

lemma own_snoc_of_ne {d : Nat} {a : Nat × A} (ne : a.1 ≠ d) (as : List (Nat × A)) :
    own d (as ++ [a]) = own d as := by
  simp [own, ne]

/-- An assertion about the shared state, a call and what it has done holds until the call ends, if
the call keeps it when it acts, and every step keeps it for the calls that do not act. -/
lemma call_history {J : G → F ⊕ K → List A → Prop} {ends : A → Prop}
    {step : Threads G (CallStack F K) → Threads.Label (Nat × A) B → Threads G (CallStack F K) →
      Prop}
    {s s' : Threads G (CallStack F K)} {tr : List (Threads.Label (Nat × A) B)} {i : Nat}
    (sub : ∀ {s l s'}, step s l s' → Threads.Step (Nested enter acts) env s l s')
    (last : ∀ {g x a g'}, acts g x a g' none → ends a)
    (keep : ∀ {g x a g' x' as}, acts g x a g' (some x') → J g x as → J g' x' (as ++ [a]))
    (others : ∀ {s l s' x as}, step s l s' → J s.shared x as → J s'.shared x as)
    (r : Run step s tr s') (going : ∀ a, .act i (below.length, a) ∈ tr → ¬ ends a)
    (pos : (s.pc i).At below x) (start : J s.shared x []) :
    ∃ x', (s'.pc i).At below x' ∧ J s'.shared x' (own below.length (Threads.eventsOf i tr)) := by
  refine r.snocInduction (motive := fun tr s' => (∀ a, .act i (below.length, a) ∈ tr → ¬ ends a) →
    ∃ x', (s'.pc i).At below x' ∧ J s'.shared x' (own below.length (Threads.eventsOf i tr)))
    (fun _ => ⟨x, pos, start⟩) ?_ going
  intro tr s l s' _ st ih going
  obtain ⟨y, pos, held⟩ := ih fun a mem => going a (List.mem_append_left _ mem)
  cases sub st with
  | env move => exact ⟨y, pos, Threads.eventsOf_env i tr _ ▸ others st held⟩
  | @act j a g c move =>
    rcases eq_or_ne j i with rfl | ne
    · rw [Threads.eventsOf_act_self]
      simp only [Function.update_self]
      rcases move.cases_at pos with ⟨x', act, depth, rfl⟩ | ⟨deeper, pos⟩
      · -- the call acts, and goes on
        obtain ⟨d, a⟩ := a
        obtain rfl : d = below.length := depth
        cases x' with
        | none => exact absurd (last act) (going a (by simp))
        | some x' =>
          rw [own_snoc_self]
          exact ⟨x', .place x' below, keep act held⟩
      · rw [own_snoc_of_ne deeper.ne']
        exact ⟨y, pos, others st held⟩
    · rw [Threads.eventsOf_act_of_ne ne]
      simp only [Function.update_of_ne ne.symm]
      exact ⟨y, pos, others st held⟩

end Nested

end CherryPit.Conc
