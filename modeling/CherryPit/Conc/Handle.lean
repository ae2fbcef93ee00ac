import CherryPit.Conc.Prog

/-!
# Handled errors

Programs that look at the error of a part of theirs (`Prog.result`, for what runs when a scope is
left) or rename it (`Prog.mapError`), with their rules.
-/

namespace CherryPit.Conc

variable {S : Sig} {ε ε' α : Type} {p : Prog S ε α} {f : α → Prog S ε β}

namespace Prog

variable {allowed : S.Op → Prop}

/-- Run a program and return its result, an error included. -/
def result : Prog S ε α → Prog S ε' (Except ε α)
  | .ret a => .ret (.ok a)
  | .raise e => .ret (.error e)
  | .op o k => .op o fun r => (k r).result

/-- Rename the error of a program. -/
def mapError (f : ε → ε') : Prog S ε α → Prog S ε' α
  | .ret a => .ret a
  | .raise e => .raise (f e)
  | .op o k => .op o fun r => (k r).mapError f

lemma Uses.ofExcept (x : Except ε α) : (Prog.ofExcept x : Prog S ε α).Uses allowed := by
  cases x <;> trivial

lemma Uses.result (h : p.Uses allowed) : (p.result : Prog S ε' _).Uses allowed := by
  induction p with
  | ret a => trivial
  | raise e => trivial
  | op o k ih => exact ⟨h.1, fun r => ih r (h.2 r)⟩

lemma Uses.mapError {f : ε → ε'} (h : p.Uses allowed) : (p.mapError f).Uses allowed := by
  induction p with
  | ret a => trivial
  | raise e => trivial
  | op o k ih => exact ⟨h.1, fun r => ih r (h.2 r)⟩

/-- Once a program has performed an operation that is not allowed, it performs no other one. -/
def Once (allowed : S.Op → Prop) : Prog S ε α → Prop
  | .ret _ => True
  | .raise _ => True
  | .op o k => (¬ allowed o ∧ ∀ r, (k r).Uses allowed) ∨ (allowed o ∧ ∀ r, (k r).Once allowed)

lemma Uses.once (h : p.Uses allowed) : p.Once allowed := by
  induction p with
  | ret a => trivial
  | raise e => trivial
  | op o k ih => exact .inr ⟨h.1, fun r => ih r (h.2 r)⟩

lemma Once.after (hp : p.Uses allowed) (hf : ∀ a, (f a).Once allowed) : (p >>= f).Once allowed := by
  induction p with
  | ret a => exact hf a
  | raise e => trivial
  | op o k ih => exact .inr ⟨hp.1, fun r => ih r (hp.2 r)⟩

lemma Once.before (hp : p.Once allowed) (hf : ∀ a, (f a).Uses allowed) :
    (p >>= f).Once allowed := by
  induction p with
  | ret a => exact (hf a).once
  | raise e => trivial
  | op o k ih =>
    obtain ⟨cost, rest⟩ | ⟨free, rest⟩ := hp
    · exact .inl ⟨cost, fun r => (rest r).bind hf⟩
    · exact .inr ⟨free, fun r => ih r (rest r)⟩

lemma ofExcept_ok_bind {β : Type} (a : α) (f : α → Prog S ε β) :
    (Prog.ofExcept (.ok a) >>= f) = f a := rfl

lemma ofExcept_error_bind {β : Type} (e : ε) (f : α → Prog S ε β) :
    (Prog.ofExcept (.error e) >>= f) = .raise e := rfl

end Prog

section Wp

variable {C W : Type} {exec : Semantics S C W} {A : Assume W} {i : Nat} {c : C}

lemma wp_result {Q : Except ε' (Except ε α) → W → Prop} {w}
    (h : wp exec A i c (fun r w' => Q (.ok r) w') p w) : wp exec A i c Q p.result w := by
  induction p generalizing w with
  | ret a => exact h
  | raise e => exact h
  | op o k ih =>
    intro w' r hi w'' a ex
    obtain ⟨hi', hk⟩ := h w' r hi w'' a ex
    exact ⟨hi', ih a hk⟩

lemma wp_mapError {f : ε → ε'} {Q : Except ε' α → W → Prop} {w}
    (h : wp exec A i c (fun r w' => Q (r.mapError f) w') p w) :
    wp exec A i c Q (p.mapError f) w := by
  induction p generalizing w with
  | ret a => exact h
  | raise e => exact h
  | op o k ih =>
    intro w' r hi w'' a ex
    obtain ⟨hi', hk⟩ := h w' r hi w'' a ex
    exact ⟨hi', ih a hk⟩

end Wp

section Exec

variable {C W β : Type} {exec : Semantics S C W} {i : Nat} {c : C} {w w' w'' : W}

lemma Exec.ofExcept (x : Except ε α) : Exec exec i c w (.ofExcept x) w x := by
  cases x with
  | ok a => exact .ret
  | error e => exact .raise

lemma Exec.bind {a x} (first : Exec exec i c w p w' (.ok a)) (next : Exec exec i c w' (f a) w'' x) :
    Exec exec i c w (p >>= f) w'' x := by
  generalize e : Except.ok a = y at first
  induction first with
  | ret =>
    cases e
    exact next
  | raise => cases e
  | op st _ ih => exact .op st (ih next e)

/-- An error passes. -/
lemma Exec.bind_error {e : ε} (first : Exec exec i c w p w' (.error e)) :
    Exec exec i c w (p >>= f) w' (.error e) := by
  generalize failed : Except.error e = y at first
  induction first with
  | ret => cases failed
  | raise =>
    cases failed
    exact .raise
  | op st _ ih => exact .op st (ih failed)

/-- Wrapping up the value of a program. -/
lemma Exec.map {g : α → β} {x} (h : Exec exec i c w p w' x) :
    Exec exec i c w (p >>= fun a => .ret (g a)) w' (x.map g) := by
  induction h with
  | ret => exact .ret
  | raise => exact .raise
  | op st _ ih => exact .op st ih

lemma Exec.result {x} (h : Exec exec i c w p w' x) :
    Exec exec i c w (p.result : Prog S ε' _) w' (.ok x) := by
  induction h with
  | ret => exact .ret
  | raise => exact .ret
  | op st _ ih => exact .op st ih

lemma Exec.mapError {f : ε → ε'} {x} (h : Exec exec i c w p w' x) :
    Exec exec i c w (p.mapError f) w' (x.mapError f) := by
  induction h with
  | ret => exact .ret
  | raise => exact .raise
  | op st _ ih => exact .op st ih

/-- Operations with one outcome make programs with one outcome. -/
lemma Exec.unique {w1 w2 : W} {x1 x2 : Except ε α}
    (one : ∀ {w o w1 r1 w2 r2}, exec i c w o w1 r1 → exec i c w o w2 r2 → w1 = w2 ∧ r1 = r2)
    (h1 : Exec exec i c w p w1 x1) (h2 : Exec exec i c w p w2 x2) : w1 = w2 ∧ x1 = x2 := by
  induction h1 with
  | ret =>
    cases h2
    exact ⟨rfl, rfl⟩
  | raise =>
    cases h2
    exact ⟨rfl, rfl⟩
  | op st _ ih =>
    cases h2 with
    | op st' rest =>
      obtain ⟨rfl, rfl⟩ := one st st'
      exact ih rest

/-- Worlds that the operations cannot tell apart have the same runs. -/
lemma Exec.simulate {R : W → W → Prop} {v : W} {x}
    (sim : ∀ {w v o w' r}, R w v → exec i c w o w' r → ∃ v', exec i c v o v' r ∧ R w' v')
    (h : Exec exec i c w p w' x) (like : R w v) : ∃ v', Exec exec i c v p v' x ∧ R w' v' := by
  induction h generalizing v with
  | ret => exact ⟨v, .ret, like⟩
  | raise => exact ⟨v, .raise, like⟩
  | op st _ ih =>
    obtain ⟨v1, st1, like1⟩ := sim like st
    obtain ⟨v', run, like'⟩ := ih like1
    exact ⟨v', .op st1 run, like'⟩

end Exec

end CherryPit.Conc
