import CherryPit.Conc.Threads

/-!
# Tokens

Things that are either free in the shared state or held by exactly one thread. A step may take what
is free, give back what its thread holds and keep the rest; `Passes` says so as a conservation law
between the shared state and the one thread that moves, and `Tokens.step` turns it into the
statement about all threads. A lock is the case of one token.
-/

namespace CherryPit.Conc.Threads

open Function

variable {G P T : Type} {free : G → T → Prop} {holds : P → Option T} {s : Threads G P}

/-- Every token is free or held by exactly one thread. -/
structure Tokens (free : G → T → Prop) (holds : P → Option T) (s : Threads G P) : Prop where
  unique : ∀ {i j t}, holds (s.pc i) = some t → holds (s.pc j) = some t → i = j
  held : ∀ t, ¬ free s.shared t ↔ ∃ i, holds (s.pc i) = some t

/-- The shared state and the thread that moves have the same tokens between them as before, none of
them twice. -/
structure Passes (free : G → T → Prop) (holds : P → Option T) (g : G) (p : P) (g' : G) (p' : P) :
    Prop where
  conserves : ∀ t, free g t ∨ holds p = some t ↔ free g' t ∨ holds p' = some t
  once : ∀ t, free g' t → holds p' ≠ some t

lemma Tokens.start {g : G} {p : Nat → P} (all : ∀ t, free g t) (none : ∀ i, holds (p i) = none) :
    Tokens free holds ⟨g, p⟩ where
  unique h := by simp [none] at h
  held t := by simp [none, all t]

lemma Tokens.not_free {i t} (tk : Tokens free holds s) (h : holds (s.pc i) = some t) :
    ¬ free s.shared t :=
  (tk.held t).mpr ⟨i, h⟩

/-- What another thread holds is out of reach of the one that moves. -/
lemma Tokens.other {i j t g p} (tk : Tokens free holds s)
    (pass : Passes free holds s.shared (s.pc i) g p) (h : holds (s.pc j) = some t) (ne : j ≠ i) :
    ¬ free g t ∧ holds p ≠ some t := by
  refine not_or.mp fun after => ?_
  rcases (pass.conserves t).mpr after with isFree | mine
  · exact tk.not_free h isFree
  · exact ne (tk.unique h mine)

/-- A step that conserves the tokens of its thread conserves those of all threads. -/
lemma Tokens.step {i g p} (tk : Tokens free holds s)
    (pass : Passes free holds s.shared (s.pc i) g p) :
    Tokens free holds ⟨g, update s.pc i p⟩ := by
  have self : update s.pc i p i = p := update_self ..
  have other : ∀ {j}, j ≠ i → update s.pc i p j = s.pc j :=
    fun ne => update_of_ne ne ..
  constructor
  · intro j k t hj hk
    dsimp only at hj hk
    rcases eq_or_ne j i with rfl | nj
    · rcases eq_or_ne k j with rfl | nk
      · rfl
      · rw [self] at hj
        rw [other nk] at hk
        exact ((tk.other pass hk nk).2 hj).elim
    · rw [other nj] at hj
      rcases eq_or_ne k i with rfl | nk
      · rw [self] at hk
        exact ((tk.other pass hj nj).2 hk).elim
      · rw [other nk] at hk
        exact tk.unique hj hk
  · intro t
    dsimp only
    constructor
    · intro taken
      by_cases mine : holds p = some t
      · exact ⟨i, by rw [self]; exact mine⟩
      · -- neither free nor with the one that moved, so it was with somebody else all along
        have before : ¬ (free s.shared t ∨ holds (s.pc i) = some t) := fun before =>
          ((pass.conserves t).mp before).elim taken mine
        obtain ⟨j, h⟩ := (tk.held t).mp fun isFree => before (.inl isFree)
        have ne : j ≠ i := by
          rintro rfl
          exact before (.inr h)
        exact ⟨j, by rw [other ne]; exact h⟩
    · rintro ⟨j, h⟩
      rcases eq_or_ne j i with rfl | ne
      · rw [self] at h
        exact fun isFree => pass.once t isFree h
      · rw [other ne] at h
        exact (tk.other pass h ne).1

end CherryPit.Conc.Threads
