import CherryPit.Conc.Threads

/-!
# Invariants of two threads

What holds of the shared state and each thread, together with what holds between any two threads. A
thread that moves has to keep the first for itself, and both with respect to any other thread
(`Pairs.update`).
-/

namespace CherryPit.Conc.Threads

open Function

variable {G P : Type}

/-- `Own` holds of every thread and `Between` of any two. -/
structure Pairs (Own : G → P → Prop) (Between : P → P → Prop) (s : Threads G P) : Prop where
  own : ∀ i, Own s.shared (s.pc i)
  between : ∀ {i j}, i ≠ j → Between (s.pc i) (s.pc j)

variable {Own : G → P → Prop} {Between : P → P → Prop} {s : Threads G P} {g : G} {p : P}

lemma Pairs.start (own : Own g p) (between : Between p p) : Pairs Own Between (start g p) :=
  ⟨fun _ => own, fun _ => between⟩

/-- A thread moves. -/
lemma Pairs.update {i : Nat} (pairs : Pairs Own Between s) (own : Own g p)
    (others : ∀ {j}, j ≠ i → Own g (s.pc j) ∧ Between p (s.pc j) ∧ Between (s.pc j) p) :
    Pairs Own Between ⟨g, update s.pc i p⟩ where
  own j := by
    rcases eq_or_ne j i with rfl | ne
    · simpa only [update_self] using own
    · simpa only [update_of_ne ne] using (others ne).1
  between {j k} ne := by
    rcases eq_or_ne j i with rfl | j_ne
    · simpa only [update_self, update_of_ne ne.symm] using (others ne.symm).2.1
    · rcases eq_or_ne k i with rfl | k_ne
      · simpa only [update_self, update_of_ne ne] using (others ne).2.2
      · simpa only [update_of_ne j_ne, update_of_ne k_ne] using pairs.between ne

/-- Something else changes the shared state. -/
lemma Pairs.env (pairs : Pairs Own Between s) (own : ∀ {p}, Own s.shared p → Own g p) :
    Pairs Own Between ⟨g, s.pc⟩ :=
  ⟨fun i => own (pairs.own i), pairs.between⟩

end CherryPit.Conc.Threads
