import CherryPit.Conc.Threads

/-!
# Views of threads

Threads seen through a map of their shared state and a map of their program points. If every local
step is seen as a local step of another relation, or not seen at all, then a run is seen as a run
(`irun_seen`). This is how a component's theorems are used in a system that contains it, and one
half of the comparison of two programs whose points correspond.
-/

namespace CherryPit.Conc.Threads

open Function

variable {G G' P P' A A' B B' : Type}

/-- The threads as seen through `f` and `v`. -/
def view (f : G → G') (v : P → P') (s : Threads G P) : Threads G' P' :=
  ⟨f s.shared, fun i => v (s.pc i)⟩

/-- What is seen of a label. -/
def Label.view (see : A → Option A') (seeEnv : B → Option B') : Label A B → Option (Label A' B')
  | .act i a => (see a).map (.act i)
  | .env b => (seeEnv b).map .env

lemma view_update (f : G → G') (v : P → P') (g : G) (pc : Nat → P) (i : Nat) (p : P) :
    view f v ⟨g, update pc i p⟩ = ⟨f g, update (fun j => v (pc j)) i (v p)⟩ := by
  have pcs : (fun j => v (update pc i p j)) =
      update (fun j => v (pc j)) i (v p) := by
    funext j
    rcases eq_or_ne j i with rfl | ne
    · simp
    · simp [ne]
  exact congrArg (Threads.mk (f g)) pcs

/-- What is collected from what is seen. -/
lemma collect_view {X : Type} (f : A' → Option X) (see : A → Option A') (seeEnv : B → Option B')
    (tr : List (Label A B)) :
    collect f (tr.filterMap (Label.view see seeEnv)) = collect (fun a => (see a).bind f) tr := by
  rw [collect, List.filterMap_filterMap, collect]
  refine List.filterMap_congr fun l _ => ?_
  cases l with
  | act i a => cases e : see a <;> simp [Label.view, e]
  | env b => cases e : seeEnv b <;> simp [Label.view, e]

variable {loc : Nat → G → P → A → G → P → Prop} {env : G → B → G → Prop}
  {loc' : Nat → G' → P' → A' → G' → P' → Prop} {env' : G' → B' → G' → Prop}
  {s s' : Threads G P}

section Seen

variable (f : G → G') (v : P → P') (see : A → Option A') (seeEnv : B → Option B')
  (one : ∀ {i g p a g' p'}, loc i g p a g' p' →
    (∃ a', see a = some a' ∧ loc' i (f g) (v p) a' (f g') (v p')) ∨
    (see a = none ∧ f g' = f g ∧ v p' = v p))
  (envs : ∀ {g b g'}, env g b g' →
    (∃ b', seeEnv b = some b' ∧ env' (f g) b' (f g')) ∨ (seeEnv b = none ∧ f g' = f g))

include one envs

/-- A step of a thread or of the environment is seen as one, or it is not seen. -/
lemma IStep.seen {l} (st : IStep loc env s l s') :
    (∃ l', l.view see seeEnv = some l' ∧ IStep loc' env' (s.view f v) l' (s'.view f v)) ∨
    (l.view see seeEnv = none ∧ s'.view f v = s.view f v) := by
  cases st with
  | @act i a g p st =>
    rw [view_update]
    rcases one st with ⟨a', e, st⟩ | ⟨e, same, at'⟩
    · exact .inl ⟨.act i a', by simp [Label.view, e], .act st⟩
    · refine .inr ⟨by simp [Label.view, e], ?_⟩
      rw [same, at']
      exact congrArg (Threads.mk (f s.shared)) (update_eq_self i fun j => v (s.pc j))
  | @env b g st =>
    rcases envs st with ⟨b', e, st⟩ | ⟨e, same⟩
    · exact .inl ⟨.env b', by simp [Label.view, e], .env st⟩
    · exact .inr ⟨by simp [Label.view, e], congrArg (Threads.mk · _) same⟩

/-- A run is seen as a run. -/
lemma irun_seen {tr} (r : Run (IStep loc env) s tr s') :
    Run (IStep loc' env') (s.view f v) (tr.filterMap (Label.view see seeEnv)) (s'.view f v) :=
  r.seen (view f v) (Label.view see seeEnv)
    (IStep.seen f v see seeEnv (fun st => one st) (fun st => envs st))

end Seen

end CherryPit.Conc.Threads
