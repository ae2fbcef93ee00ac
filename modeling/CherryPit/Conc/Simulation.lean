import CherryPit.Conc.View

/-!
# Matching runs

Two systems whose labels are seen as labels of one vocabulary, some of them not at all. If every
step of the first is matched by a run of the second in which the same is seen, then so is every run
(`Matches.run`). Two families of threads over one type of shared states match if their threads match
one by one (`LocalMatches.matches`). A relation that matches both ways is a weak bisimulation.
-/

namespace CherryPit.Conc

section Runs

variable {S S' L L' V : Type*} {step : S → L → S → Prop} {step' : S' → L' → S' → Prop}

/-- Every step from a state is matched by a run from each related state, in which the same is
seen. -/
def Matches (step : S → L → S → Prop) (step' : S' → L' → S' → Prop) (see : L → Option V)
    (see' : L' → Option V) (Rel : S → S' → Prop) : Prop :=
  ∀ {s t l s'}, Rel s t → step s l s' →
    ∃ tr t', Run step' t tr t' ∧ tr.filterMap see' = (see l).toList ∧ Rel s' t'

variable {see : L → Option V} {see' : L' → Option V} {Rel : S → S' → Prop}

/-- Then so is every run. -/
theorem Matches.run (sim : Matches step step' see see' Rel) {s t s' tr} (rel : Rel s t)
    (r : Run step s tr s') :
    ∃ tr' t', Run step' t tr' t' ∧ tr'.filterMap see' = tr.filterMap see ∧ Rel s' t' := by
  induction r generalizing t with
  | nil => exact ⟨[], t, .nil, rfl, rel⟩
  | @cons s l s1 tr s' st _ ih =>
    obtain ⟨tr1, t1, r1, seen1, rel1⟩ := sim rel st
    obtain ⟨tr2, t2, r2, seen2, rel2⟩ := ih rel1
    refine ⟨tr1 ++ tr2, t2, r1.append r2, ?_, rel2⟩
    rw [List.filterMap_append, seen1, seen2]
    cases seen : see l with
    | none => rw [List.filterMap_cons_none seen]; rfl
    | some v => rw [List.filterMap_cons_some seen]; rfl

end Runs

namespace Threads

variable {G P P' A A' B B' V W : Type} {loc : Nat → G → P → A → G → P → Prop}
  {loc' : Nat → G → P' → A' → G → P' → Prop} {env : G → B → G → Prop} {env' : G → B' → G → Prop}

/-- Same shared state, and threads at related points. -/
structure Alike (M : P → P' → Prop) (s : Threads G P) (t : Threads G P') : Prop where
  shared : s.shared = t.shared
  pc : ∀ i, M (s.pc i) (t.pc i)

lemma Alike.update {M : P → P' → Prop} {s : Threads G P} {t : Threads G P'} (alike : Alike M s t)
    {i : Nat} {g : G} {p : P} {q : P'} (rel : M p q) :
    Alike M ⟨g, Function.update s.pc i p⟩ ⟨g, Function.update t.pc i q⟩ where
  shared := rfl
  pc j := by
    rcases eq_or_ne j i with rfl | ne
    · simpa using rel
    · simpa [ne] using alike.pc j

/-- Every step of a thread is matched by what a thread at a related point does alone. -/
def LocalMatches (loc : Nat → G → P → A → G → P → Prop) (loc' : Nat → G → P' → A' → G → P' → Prop)
    (see : A → Option V) (see' : A' → Option V) (M : P → P' → Prop) : Prop :=
  ∀ {i g p q a g' p'}, M p q → loc i g p a g' p' →
    ∃ as q', Run (Solo loc' i) (g, q) as (g', q') ∧ as.filterMap see' = (see a).toList ∧ M p' q'

variable {see : A → Option V} {see' : A' → Option V} {seeEnv : B → Option W}
  {seeEnv' : B' → Option W} {M : P → P' → Prop}

/-- What is seen of a thread alone. -/
lemma filterMap_view_act (i : Nat) (as : List A) :
    (as.map (.act i) : List (Label A B)).filterMap (Label.view see seeEnv) =
      (as.filterMap see).map (.act i) := by
  induction as with
  | nil => rfl
  | cons a as ih => cases e : see a <;> simp [Label.view, e, ih]

/-- A run in which all is seen. -/
lemma filterMap_view_some (tr : List (Label A B)) : tr.filterMap (Label.view some some) = tr := by
  have all : (Label.view some some : Label A B → Option (Label A B)) = some := by
    funext l
    cases l <;> rfl
  rw [all, List.filterMap_some]

/-- Threads that match one by one match together. -/
theorem LocalMatches.matches (each : LocalMatches loc loc' see see' M)
    (envs : ∀ g b g', env g b g' → ∃ b', seeEnv' b' = seeEnv b ∧ env' g b' g') :
    Matches (IStep loc env) (IStep loc' env') (Label.view see seeEnv) (Label.view see' seeEnv')
      (Alike M) := by
  intro s t l s' alike st
  cases st with
  | @act i a g p st =>
    obtain ⟨as, q, r, seen, rel⟩ := each (alike.pc i) st
    have run : Run (IStep loc' env') t _ _ := solo_run r alike.shared.symm rfl
    refine ⟨_, _, run, ?_, alike.update rel⟩
    rw [filterMap_view_act, seen]
    cases e : see a <;> simp [Label.view, e]
  | @env b g st =>
    obtain ⟨b', seen, st⟩ := envs _ _ _ st
    rw [alike.shared] at st
    refine ⟨[.env b'], _, .cons (.env st) .nil, ?_, ⟨rfl, alike.pc⟩⟩
    cases e : seeEnv b <;> simp [Label.view, seen, e]

end Threads

end CherryPit.Conc
