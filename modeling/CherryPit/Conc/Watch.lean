import CherryPit.Conc.Handle
import CherryPit.Conc.Pool

/-!
# Watching one call

What is proved of a call once can be strengthened afterwards. `wp_and` adds a second postcondition
to a first one; its proof may take for granted that every operation keeps the invariant
(`Semantics.keeping`), because the first proof has shown it. `Ok.watch` carries such a strengthened
assertion of one call along the steps of a pool, whatever the other calls are.

`Prog.Single` are the programs that do something special at most once.
-/

namespace CherryPit.Conc

open Function

variable {S : Sig} {C W ε α : Type} {Q' : Except ε α → W → Prop} {p : Prog S ε α}

/-- The operations that end in a state with the invariant. -/
def Semantics.keeping (exec : Semantics S C W) (inv : W → Prop) : Semantics S C W :=
  fun i c w o w' r => exec i c w o w' r ∧ inv w'

section Wp

variable {exec : Semantics S C W} {A : Assume W} {i : Nat} {c : C} {w : W}

/-- A second postcondition. -/
lemma wp_and {Q : Except ε α → W → Prop} (h : wp exec A i c Q p w)
    (h' : wp (exec.keeping A.inv) A i c Q' p w) :
    wp exec A i c (fun r v => Q r v ∧ Q' r v) p w := by
  induction p generalizing w with
  | ret a => exact fun w' rely inv => ⟨h w' rely inv, h' w' rely inv⟩
  | raise e => exact fun w' rely inv => ⟨h w' rely inv, h' w' rely inv⟩
  | op o k ih =>
    intro w' rely inv w'' r ex
    obtain ⟨inv', next⟩ := h w' rely inv w'' r ex
    exact ⟨inv', ih r next (h' w' rely inv w'' r ⟨ex, inv'⟩).2⟩

/-- One operation, when the invariant is kept anyway. -/
lemma wp_keeping_op {Q : Except ε α → W → Prop} {o : S.Op} {k : S.Res o → Prog S ε α}
    (h : ∀ w', A.rely w w' → A.inv w' → ∀ w'' r, exec i c w' o w'' r → A.inv w'' →
      wp (exec.keeping A.inv) A i c Q (k r) w'') :
    wp (exec.keeping A.inv) A i c Q (.op o k) w :=
  fun w' rely inv w'' r ex => ⟨ex.2, h w' rely inv w'' r ex.1 ex.2⟩

/-- One operation whose answer `?` unwraps, when the invariant is kept anyway. -/
lemma wp_keeping_attempt {Q : Except ε α → W → Prop} {o : S.Op} {f : S.Res o → Except ε α}
    (h : ∀ w', A.rely w w' → A.inv w' → ∀ w'' r, exec i c w' o w'' r → A.inv w'' →
      ∀ v, A.rely w'' v → A.inv v → Q (f r) v) :
    wp (exec.keeping A.inv) A i c Q (.attempt o f) w :=
  wp_keeping_op fun w' rely inv w'' r ex inv' => wp_ofExcept (h w' rely inv w'' r ex inv')

end Wp

namespace Prog

variable {β : Type} {allowed special : S.Op → Prop} {answers : (o : S.Op) → S.Res o → Prop}
  {f : α → Prog S ε β}

/-- A program of allowed operations with at most one special operation among them, as long as the
answers before it are as they should be. -/
def Single (allowed special : S.Op → Prop) (answers : (o : S.Op) → S.Res o → Prop) :
    Prog S ε α → Prop
  | .ret _ => True
  | .raise _ => True
  | .op o k =>
    (special o ∧ ∀ r, (k r).Uses allowed) ∨
      (allowed o ∧ ∀ r, answers o r → (k r).Single allowed special answers)

lemma Uses.single (h : p.Uses allowed) : p.Single allowed special answers := by
  induction p with
  | ret a => trivial
  | raise e => trivial
  | op o k ih => exact .inr ⟨h.1, fun r _ => ih r (h.2 r)⟩

lemma Single.after (hp : p.Uses allowed) (hf : ∀ a, (f a).Single allowed special answers) :
    (p >>= f).Single allowed special answers := by
  induction p with
  | ret a => exact hf a
  | raise e => trivial
  | op o k ih => exact .inr ⟨hp.1, fun r _ => ih r (hp.2 r)⟩

/-- A result that is unwrapped performs nothing. -/
lemma Single.ofExcept {x : Except ε α} (h : ∀ a, x = .ok a → (f a).Single allowed special answers) :
    (ofExcept x >>= f).Single allowed special answers := by
  cases x with
  | error e => trivial
  | ok a => exact h a rfl

lemma Single.before (hp : p.Single allowed special answers) (hf : ∀ a, (f a).Uses allowed) :
    (p >>= f).Single allowed special answers := by
  induction p with
  | ret a => exact (hf a).single
  | raise e => trivial
  | op o k ih =>
    obtain ⟨here, rest⟩ | ⟨free, rest⟩ := hp
    · exact .inl ⟨here, fun r => (rest r).bind hf⟩
    · exact .inr ⟨free, fun r known => ih r (rest r known)⟩

lemma Single.result {ε' : Type} (h : p.Single allowed special answers) :
    (p.result : Prog S ε' _).Single allowed special answers := by
  induction p with
  | ret a => trivial
  | raise e => trivial
  | op o k ih =>
    obtain ⟨here, rest⟩ | ⟨free, rest⟩ := h
    · exact .inl ⟨here, fun r => (rest r).result⟩
    · exact .inr ⟨free, fun r known => ih r (rest r known)⟩

end Prog

namespace Pool

variable {exec : Semantics S C W} {env : W → W → Prop} {body : C → Prog S ε α} {may : C → Prop}
  {P : Protocol exec env} {Q : Nat → C → Except ε α → W → Prop} {pool : Pool S C W ε α}

/-- What holds of one call. -/
def Watched (P : Protocol exec env) (i : Nat) (c : C) (Q : Except ε α → W → Prop)
    (pool : Pool S C W ε α) : Prop :=
  (∃ p, pool.slots i = .run c p ∧ wp exec (P.assume i) i c Q p pool.world) ∨
    pool.slots i = .gone c

/-- Every step of a pool keeps it. -/
lemma Ok.watch {i : Nat} {c : C} {pool' : Pool S C W ε α} {l} (ok : Ok P Q pool)
    (h : Watched P i c Q' pool) (st : Step exec env body may pool l pool') :
    Watched P i c Q' pool' := by
  -- a step of another place leaves the place of the call alone
  have other : ∀ {j w sl}, i ≠ j → P.rely i pool.world w →
      Watched P i c Q' ⟨w, Function.update pool.slots j sl⟩ := by
    intro j w sl ne rely
    rcases h with ⟨p, at', meets⟩ | gone
    · exact .inl ⟨p, (update_of_ne ne ..).trans at', wp_rely meets rely⟩
    · exact .inr ((update_of_ne ne ..).trans gone)
  have busy : pool.slots i ≠ .idle := by
    intro idle
    rcases h with ⟨p, at', -⟩ | gone
    · cases idle.symm.trans at'
    · cases idle.symm.trans gone
  cases st with
  | @call j c' idle m =>
    refine other ?_ (P.refl i _)
    rintro rfl
    exact busy idle
  | @op j c' o k w r at' ex =>
    rcases eq_or_ne i j with rfl | ne
    · rcases h with ⟨p, here, meets⟩ | gone
      · cases here.symm.trans at'
        exact .inl ⟨k r, update_self .., (meets _ (P.refl i _) ok.inv _ _ ex).2⟩
      · cases gone.symm.trans at'
    · exact other ne (P.exec_rely ok.inv ex ne.symm)
  | @abandon j c' p at' =>
    rcases eq_or_ne i j with rfl | ne
    · rcases h with ⟨p, here, -⟩ | gone
      · cases here.symm.trans at'
        exact .inr (update_self ..)
      · cases gone.symm.trans at'
    · exact other ne (P.refl i _)
  | env e =>
    rcases h with ⟨p, at', meets⟩ | gone
    · exact .inl ⟨p, at', wp_rely meets (P.env_rely ok.inv e)⟩
    · exact .inr gone

/-- What is known of the call once it has returned or failed. -/
lemma Watched.returned {i : Nat} {c : C} {x} (h : Watched P i c Q' pool) (inv : P.inv pool.world)
    (at' : pool.slots i = .run c (.ofExcept x)) : Q' x pool.world := by
  rcases h with ⟨p, here, meets⟩ | gone
  · cases here.symm.trans at'
    cases x with
    | ok a => exact wp_ret meets inv
    | error e => exact wp_raise meets inv
  · cases gone.symm.trans at'

end Pool

end CherryPit.Conc
