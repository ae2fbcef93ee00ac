import CherryPit.Conc.Run

/-!
# Threads over shared state

Any number of threads, each at a program point, over one shared state. A step moves one thread by
one atomic action of a local relation `loc g p a g' p'`, or lets the environment move the shared
state. Loops need no fuel here: a loop is a cycle of program points.

Three rules turn facts about single actions into facts about runs: `run_all` for an assertion at
every program point, `Mutex.run` for a flag that admits one thread to a critical section, and
`run_thread` for what a thread has done by the time it is at a point. `play` runs a list of actions
against an executable form of the local relation. `IStep` is for threads whose actions depend on
which thread they are.
-/

namespace CherryPit.Conc

open Function

variable {G P A B : Type}

/-- A shared state and the program point of every thread. -/
structure Threads (G P : Type) where
  shared : G
  pc : Nat → P

namespace Threads

/-- All threads at one point. -/
def start (g : G) (p : P) : Threads G P := ⟨g, fun _ => p⟩

/-- An action of a thread or of the environment. -/
inductive Label (A B : Type) where
  | act (i : Nat) (a : A)
  | env (b : B)
  deriving DecidableEq

/-- Steps of the threads. -/
inductive Step (loc : G → P → A → G → P → Prop) (env : G → B → G → Prop) :
    Threads G P → Label A B → Threads G P → Prop where
  | act {s i a g p} :
    loc s.shared (s.pc i) a g p →
    Step loc env s (.act i a) ⟨g, update s.pc i p⟩
  | env {s b g} :
    env s.shared b g →
    Step loc env s (.env b) ⟨g, s.pc⟩

variable {loc : G → P → A → G → P → Prop} {env : G → B → G → Prop} {s s' : Threads G P}
  {I : G → P → Prop}

section All

variable (own : ∀ {g p a g' p'}, loc g p a g' p' → I g p → I g' p')
  (others : ∀ {g p a g' p' q}, loc g p a g' p' → I g p → I g q → I g' q)
  (envs : ∀ {g b g' p}, env g b g' → I g p → I g' p) (h : ∀ i, I s.shared (s.pc i))

include own others envs h

/-- An assertion at every program point is kept by a step, if the thread that moves keeps it for
itself and for the others. -/
lemma Step.all {l} (st : Step loc env s l s') : ∀ i, I s'.shared (s'.pc i) := by
  intro j
  cases st with
  | @act i a g p st =>
    rcases eq_or_ne j i with rfl | ne
    · simpa only [update_self] using own st (h j)
    · simpa only [update_of_ne ne] using others st (h i) (h j)
  | env st => exact envs st (h j)

/-- An assertion at every program point holds along a run, and every step of it was taken at a
point where it held. -/
lemma run_all {tr} (r : Run (Step loc env) s tr s') :
    (∀ i, I s'.shared (s'.pc i)) ∧
      Run (Step (fun g p a g' p' => loc g p a g' p' ∧ I g p) env) s tr s' := by
  induction r with
  | nil => exact ⟨h, .nil⟩
  | cons st _ ih =>
    obtain ⟨h', r'⟩ := ih (st.all own others envs h)
    refine ⟨h', .cons ?_ r'⟩
    cases st with
    | @act i a g p st => exact .act ⟨st, h i⟩
    | env st => exact .env st

end All

section Mutex

variable {flag : G → Bool} {crit : P → Prop}

/-- A flag and the critical section it guards: one thread is inside exactly while the flag is up. -/
structure Mutex (flag : G → Bool) (crit : P → Prop) (s : Threads G P) : Prop where
  unique : ∀ {i j}, crit (s.pc i) → crit (s.pc j) → i = j
  held : flag s.shared = true ↔ ∃ i, crit (s.pc i)

/-- An action respects the flag: it stays on its side and leaves the flag alone, or it enters and
raises a flag that was down, or it leaves and takes the flag down. -/
def Respects (flag : G → Bool) (crit : P → Prop) (g : G) (p : P) (g' : G) (p' : P) : Prop :=
  ((crit p' ↔ crit p) ∧ flag g' = flag g) ∨
  (¬ crit p ∧ crit p' ∧ flag g = false ∧ flag g' = true) ∨
  (crit p ∧ ¬ crit p' ∧ flag g' = false)

/-- At the start nobody is inside. -/
lemma Mutex.start {g : G} {p : P} (down : flag g = false) (out : ¬ crit p) :
    Mutex flag crit (start g p) :=
  ⟨fun h => (out h).elim, by simp [Threads.start, down, out]⟩

/-- At most one thread is inside. -/
lemma Mutex.outside {i j} (m : Mutex flag crit s) (h : crit (s.pc i)) (ne : j ≠ i) :
    ¬ crit (s.pc j) :=
  fun h' => ne (m.unique h' h)

/-- Threads that respect the flag exclude each other. -/
lemma Mutex.step {l} (respects : ∀ {g p a g' p'}, loc g p a g' p' → Respects flag crit g p g' p')
    (envs : ∀ {g b g'}, env g b g' → flag g' = flag g)
    (m : Mutex flag crit s) (st : Step loc env s l s') : Mutex flag crit s' := by
  cases st with
  | env st => exact ⟨m.unique, (congrArg (· = true) (envs st)).to_iff.trans m.held⟩
  | @act i a g p st =>
    have other : ∀ {j}, j ≠ i → update s.pc i p j = s.pc j :=
      fun ne => update_of_ne ne ..
    have self : update s.pc i p i = p := update_self ..
    rcases respects st with ⟨side, same⟩ | ⟨out, inn, down, up⟩ | ⟨inn, out, down⟩
    · -- everyone is on the side it was on
      have all : ∀ j, crit (update s.pc i p j) ↔ crit (s.pc j) := by
        intro j
        rcases eq_or_ne j i with rfl | ne
        · rw [self, side]
        · rw [other ne]
      refine ⟨fun hi hj => m.unique ((all _).mp hi) ((all _).mp hj), ?_⟩
      simp only [same, all, m.held]
    · -- the flag was down, so nobody was inside
      have empty : ∀ j, ¬ crit (s.pc j) := by
        intro j h
        rw [m.held.mpr ⟨j, h⟩] at down
        cases down
      have only : ∀ j, crit (update s.pc i p j) → j = i := by
        intro j h
        by_contra ne
        rw [other ne] at h
        exact empty j h
      refine ⟨fun hi hj => (only _ hi).trans (only _ hj).symm, ?_⟩
      simp only [up, true_iff]
      exact ⟨i, self.symm ▸ inn⟩
    · -- the one that was inside has left
      have empty : ∀ j, ¬ crit (update s.pc i p j) := by
        intro j h
        rcases eq_or_ne j i with rfl | ne
        · rw [self] at h
          exact out h
        · rw [other ne] at h
          exact m.outside inn ne h
      exact ⟨fun h => (empty _ h).elim, by simp [down, empty]⟩

/-- Mutual exclusion along a run. -/
lemma Mutex.run {tr} (respects : ∀ {g p a g' p'}, loc g p a g' p' → Respects flag crit g p g' p')
    (envs : ∀ {g b g'}, env g b g' → flag g' = flag g)
    (m : Mutex flag crit s) (r : Run (Step loc env) s tr s') : Mutex flag crit s' :=
  r.invariant (fun m st => m.step respects envs st) m

end Mutex

section Trace

variable {tr : List (Label A B)} {X : Type} {f : A → Option X} {i : Nat}

/-- What thread `i` has done. -/
def eventsOf (i : Nat) (tr : List (Label A B)) : List A :=
  tr.filterMap fun
    | .act j a => if j = i then some a else none
    | .env _ => none

lemma eventsOf_act_self (i : Nat) (tr : List (Label A B)) (a : A) :
    eventsOf i (tr ++ [.act i a]) = eventsOf i tr ++ [a] := by
  simp [eventsOf]

lemma eventsOf_act_of_ne {j : Nat} (ne : j ≠ i) (tr : List (Label A B)) (a : A) :
    eventsOf i (tr ++ [.act j a]) = eventsOf i tr := by
  simp [eventsOf, ne]

lemma eventsOf_env (i : Nat) (tr : List (Label A B)) (b : B) :
    eventsOf i (tr ++ [.env b]) = eventsOf i tr := by
  simp [eventsOf]

lemma mem_eventsOf {a : A} : a ∈ eventsOf i tr ↔ .act i a ∈ tr := by
  rw [eventsOf, List.mem_filterMap]
  constructor
  · rintro ⟨l, mem, e⟩
    cases l with
    | act j b =>
      dsimp only at e
      split at e
      · cases e
        subst_vars
        exact mem
      · cases e
    | env b => cases e
  · exact fun mem => ⟨_, mem, by simp⟩

/-- What `f` sees of the actions of all threads, in their order. -/
def collect {X : Type} (f : A → Option X) (tr : List (Label A B)) : List X :=
  tr.filterMap fun
    | .act _ a => f a
    | .env _ => none

lemma collect_act (f : A → Option X) (tr : List (Label A B)) (i : Nat) (a : A) :
    collect f (tr ++ [.act i a]) = collect f tr ++ (f a).toList := by
  cases e : f a <;> simp [collect, e]

lemma collect_append (f : A → Option X) (tr tr' : List (Label A B)) :
    collect f (tr ++ tr') = collect f tr ++ collect f tr' :=
  List.filterMap_append

lemma collect_env (f : A → Option X) (tr : List (Label A B)) (b : B) :
    collect f (tr ++ [.env b]) = collect f tr := by
  simp [collect]

lemma collect_map {Y : Type} (f : A → Option X) (g : X → Y) (tr : List (Label A B)) :
    collect (fun a => (f a).map g) tr = (collect f tr).map g := by
  rw [collect, collect, List.map_filterMap]
  refine List.filterMap_congr fun l _ => ?_
  cases l <;> rfl

lemma collect_eq_nil : collect f tr = [] ↔ ∀ i a, .act i a ∈ tr → f a = none := by
  rw [collect, List.filterMap_eq_nil_iff]
  constructor
  · exact fun h i a mem => h _ mem
  · rintro h (⟨i, a⟩ | b) mem
    · exact h i a mem
    · rfl

lemma mem_collect {x : X} : x ∈ collect f tr ↔ ∃ i a, .act i a ∈ tr ∧ f a = some x := by
  rw [collect, List.mem_filterMap]
  constructor
  · rintro ⟨l, mem, e⟩
    cases l with
    | act i a => exact ⟨i, a, mem, e⟩
    | env b => cases e
  · rintro ⟨i, a, mem, e⟩
    exact ⟨_, mem, e⟩

variable [DecidableEq A]

/-- The threads that did `a`, once for each time. -/
def actorsOf (a : A) (tr : List (Label A B)) : List Nat :=
  tr.filterMap fun
    | .act i b => if b = a then some i else none
    | .env _ => none

lemma actorsOf_sublist (a : A) {tr' : List (Label A B)} (h : tr.Sublist tr') :
    (actorsOf a tr).Sublist (actorsOf a tr') :=
  h.filterMap _

lemma length_actorsOf_concat (i : Nat) (a b : A) (tr : List (Label A B)) :
    (actorsOf a (tr ++ [.act i b])).length =
      (actorsOf a tr).length + if b = a then 1 else 0 := by
  by_cases e : b = a <;> simp [actorsOf, e]

lemma count_actorsOf (i : Nat) (a : A) (tr : List (Label A B)) :
    (actorsOf a tr).count i = (eventsOf i tr).count a := by
  induction tr with
  | nil => rfl
  | cons l tr ih =>
    cases l with
    | env b => simpa [actorsOf, eventsOf] using ih
    | act j b =>
      simp only [actorsOf, eventsOf, List.filterMap_cons] at ih ⊢
      by_cases ha : b = a <;> by_cases hi : j = i <;> simp [ha, hi, ih]

lemma mem_actorsOf {a : A} : i ∈ actorsOf a tr ↔ .act i a ∈ tr := by
  rw [← List.count_pos_iff, count_actorsOf, List.count_pos_iff, mem_eventsOf]

end Trace

section Indexed

/-- Steps of threads that know their index: the local relation may name the thread it moves. -/
inductive IStep (loc : Nat → G → P → A → G → P → Prop) (env : G → B → G → Prop) :
    Threads G P → Label A B → Threads G P → Prop where
  | act {s i a g p} :
    loc i s.shared (s.pc i) a g p →
    IStep loc env s (.act i a) ⟨g, update s.pc i p⟩
  | env {s b g} :
    env s.shared b g →
    IStep loc env s (.env b) ⟨g, s.pc⟩

/-- Threads may be taken to know their index without making use of it. -/
lemma Step.indexed {l} (st : Step loc env s l s') : IStep (fun _ => loc) env s l s' := by
  cases st with
  | act st => exact .act st
  | env st => exact .env st

variable {loc : Nat → G → P → A → G → P → Prop} {y : G × P}

/-- A step of an indexed thread is a step of a thread whose index is forgotten. -/
lemma IStep.forget {l} (st : IStep loc env s l s') :
    Step (fun g p a g' p' => ∃ i, loc i g p a g' p') env s l s' := by
  cases st with
  | act st => exact .act ⟨_, st⟩
  | env st => exact .env st

/-- What holds of a thread, of its program point and of what it did to get there, along every
run. -/
lemma irun_thread {J : Nat → P → List A → Prop} {tr}
    (keep : ∀ {i g p a g' p' as}, loc i g p a g' p' → J i p as → J i p' (as ++ [a]))
    (start : ∀ i, J i (s.pc i) []) (r : Run (IStep loc env) s tr s') :
    ∀ i, J i (s'.pc i) (eventsOf i tr) := by
  refine r.snocInduction (motive := fun tr s' => ∀ i, J i (s'.pc i) (eventsOf i tr)) start ?_
  intro tr s' l s'' _ st ih i
  cases st with
  | @act j a g p st =>
    rcases eq_or_ne j i with rfl | ne
    · rw [eventsOf_act_self]
      simpa only [update_self] using keep st (ih j)
    · rw [eventsOf_act_of_ne ne]
      simpa only [update_of_ne ne.symm] using ih i
  | env st =>
    rw [eventsOf_env]
    exact ih i

/-- `irun_thread` for threads that do not know their index. -/
lemma run_thread {loc : G → P → A → G → P → Prop} {J : P → List A → Prop} {tr}
    (keep : ∀ {g p a g' p' as}, loc g p a g' p' → J p as → J p' (as ++ [a]))
    (start : ∀ i, J (s.pc i) []) (r : Run (Step loc env) s tr s') :
    ∀ i, J (s'.pc i) (eventsOf i tr) :=
  irun_thread (J := fun _ => J) keep start (r.mono Step.indexed)

/-- Steps of thread `i` alone, on the shared state and its program point. -/
abbrev Solo (loc : Nat → G → P → A → G → P → Prop) (i : Nat) (x : G × P) (a : A) (y : G × P) :
    Prop :=
  loc i x.1 x.2 a y.1 y.2

/-- One step of a thread on its own. -/
lemma solo_cons {i g p a g' p' as} (st : loc i g p a g' p') (r : Run (Solo loc i) (g', p') as y) :
    Run (Solo loc i) (g, p) (a :: as) y :=
  .cons st r

/-- What a thread can do alone from a shared state is a run of all threads. -/
lemma solo_run {i as} {x : G × P} (r : Run (Solo loc i) x as y) (hs : s.shared = x.1)
    (hp : s.pc i = x.2) :
    Run (IStep loc env) s (as.map (.act i)) ⟨y.1, update s.pc i y.2⟩ := by
  induction r generalizing s with
  | nil =>
    rw [← hs, ← hp, update_eq_self]
    exact .nil
  | @cons x a y as z st _ ih =>
    rw [Solo, ← hs, ← hp] at st
    have rest := ih (s := ⟨y.1, update s.pc i y.2⟩) rfl (update_self ..)
    rw [update_idem] at rest
    exact .cons (.act st) rest

/-- Only finitely many threads have moved. -/
lemma irun_idle {tr} (r : Run (IStep loc env) s tr s') : ∃ n, ∀ i, n ≤ i → s'.pc i = s.pc i := by
  refine r.snocInduction (motive := fun _ s' => ∃ n, ∀ i, n ≤ i → s'.pc i = s.pc i)
    ⟨0, fun _ _ => rfl⟩ ?_
  intro tr s' l s'' _ st ⟨n, idle⟩
  cases st with
  | @act j a g p st =>
    refine ⟨max n (j + 1), fun i le => ?_⟩
    have ne : i ≠ j := by omega
    simpa only [update_of_ne ne] using idle i (by omega)
  | env st => exact ⟨n, idle⟩

end Indexed

section Lone

variable {q : P} {g g' : G} {p p' : P} {a : A}

/-- One thread is at `p`, the others are at `q`. -/
def lone (q : P) (g : G) (p : P) : Threads G P := ⟨g, update (fun _ => q) 0 p⟩

lemma lone_start (q : P) (g : G) : start g q = lone q g q := by
  rw [lone, update_eq_self]
  rfl

lemma lone_act {loc : G → P → A → G → P → Prop} (st : loc g p a g' p') :
    Step loc env (lone q g p) (.act 0 a) (lone q g' p') := by
  have step : Step loc env (lone q g p) (.act 0 a) ⟨g', update (lone q g p).pc 0 p'⟩ :=
    .act st
  rwa [lone, update_idem] at step

end Lone

section Play

/-- Perform a list of actions with an executable form of the local relation. -/
def play (next : G → P → A → Option (G × P)) :
    List (Nat × A) → Threads G P → Option (Threads G P)
  | [], s => some s
  | (i, a) :: rest, s => do
    let (g, p) ← next s.shared (s.pc i) a
    play next rest ⟨g, update s.pc i p⟩

/-- What is played is a run. -/
lemma play_run {next : G → P → A → Option (G × P)}
    (sound : ∀ {g p a g' p'}, next g p a = some (g', p') → loc g p a g' p') (acts)
    (h : play next acts s = some s') :
    Run (Step loc env) s (acts.map fun x => .act x.1 x.2) s' := by
  induction acts generalizing s with
  | nil =>
    cases h
    exact .nil
  | cons x acts ih =>
    obtain ⟨⟨g, p⟩, one, rest⟩ := Option.bind_eq_some_iff.mp h
    exact .cons (.act (sound one)) (ih rest)

end Play

end Threads

end CherryPit.Conc
