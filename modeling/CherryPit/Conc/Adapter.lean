import CherryPit.Conc.Handle
import CherryPit.Conc.Pool
import CherryPit.Conc.Simulation

/-!
# Adapters

Calls that are made of the calls of another pool. An adapter answers a call on the spot or turns it
into a call behind it, and makes its own answer of the answer to that. A pool of adapted calls does
what the pool behind it does (`Adapter.covers_matches`): the world is the same at every point, calls
that were answered on the spot have not been made behind it, and the others are at the same
operation.
-/

namespace CherryPit.Conc

open Function

variable {S : Sig} {C C' W ε ε' α α' : Type} {x : Except ε α} {f : Except ε' α' → Except ε α}
  {p : Prog S ε' α'} {o : S.Op} {β : Type}

/-- What is made of the result of a program. -/
def Prog.finish (f : Except ε' α' → Except ε α) : Prog S ε' α' → Prog S ε α
  | .ret a => .ofExcept (f (.ok a))
  | .raise e => .ofExcept (f (.error e))
  | .op o k => .op o fun r => (k r).finish f

lemma Prog.finish_ofExcept (f : Except ε' α' → Except ε α) (x : Except ε' α') :
    (Prog.ofExcept x : Prog S ε' α').finish f = .ofExcept (f x) := by
  cases x <;> rfl

lemma Prog.ofExcept_ne_op {k : S.Res o → Prog S ε α} : Prog.ofExcept x ≠ .op o k := by
  cases x <;> rintro ⟨⟩

lemma Prog.ofExcept_inj {y : Except ε α} (e : (Prog.ofExcept x : Prog S ε α) = .ofExcept y) :
    x = y := by
  cases x <;> cases y <;> cases e <;> rfl

/-- A finished program is at the operation of the program. -/
lemma Prog.finish_eq_op {k : S.Res o → Prog S ε α} (e : p.finish f = .op o k) :
    ∃ k', p = .op o k' ∧ k = fun r => (k' r).finish f := by
  cases p with
  | ret a => exact absurd e Prog.ofExcept_ne_op
  | raise e' => exact absurd e Prog.ofExcept_ne_op
  | op o' k' =>
    cases e
    exact ⟨k', rfl, rfl⟩

/-- It has ended if the program has. -/
lemma Prog.finish_eq_ofExcept (e : p.finish f = .ofExcept x) : ∃ y, p = .ofExcept y ∧ x = f y := by
  cases p with
  | ret a => exact ⟨.ok a, rfl, (Prog.ofExcept_inj e).symm⟩
  | raise e' => exact ⟨.error e', rfl, (Prog.ofExcept_inj e).symm⟩
  | op o k => exact absurd e.symm Prog.ofExcept_ne_op

lemma Prog.bind_assoc {γ : Type} (p : Prog S ε α) (f : α → Prog S ε β) (g : β → Prog S ε γ) :
    ((p >>= f) >>= g) = p >>= fun a => f a >>= g := by
  induction p with
  | ret a => rfl
  | raise e => rfl
  | op o k ih =>
    show Prog.op o (fun r => (k r >>= f) >>= g) = .op o fun r => k r >>= fun a => f a >>= g
    simp only [ih]

/-- What is made of a value that was wrapped up, if errors pass. -/
lemma Prog.finish_bind_ret {f : Except ε α' → Except ε α} (p : Prog S ε β) (g : β → α')
    (pass : ∀ e, f (.error e) = .error e) :
    (p >>= fun b => .ret (g b)).finish f = p >>= fun b => .ofExcept (f (.ok (g b))) := by
  induction p with
  | ret b => rfl
  | raise e =>
    show Prog.ofExcept (f (.error e)) = .raise e
    rw [pass]
    rfl
  | op o k ih =>
    show Prog.op o (fun r => (k r >>= fun b => .ret (g b)).finish f) = .op o _
    simp only [ih]
    rfl

/-- The call that is made in a step. -/
def Pool.Label.made : Pool.Label S C → Option (Nat × C)
  | .call i c => some (i, c)
  | _ => none

/-- Calls `C` that are made of calls `C'`. -/
structure Adapter (C C' ε ε' α α' : Type) where
  ask : C → Except (Except ε α) C'
  answer : C → Except ε' α' → Except ε α

namespace Adapter

variable (A : Adapter C C' ε ε' α α')

/-- The program of an adapted call. -/
def body (inner : C' → Prog S ε' α') (c : C) : Prog S ε α :=
  match A.ask c with
  | .error x => .ofExcept x
  | .ok c' => (inner c').finish (A.answer c)

/-- A call and the one behind it, if one was made. -/
inductive Behind : Slot S C ε α → Slot S C' ε' α' → Prop where
  | idle :
    Behind .idle .idle
  | answered {c x} :
    A.ask c = .error x →
    Behind (.run c (.ofExcept x)) .idle
  | dropped {c x} :
    A.ask c = .error x →
    Behind (.gone c) .idle
  | run {c c' p} :
    A.ask c = .ok c' →
    Behind (.run c (p.finish (A.answer c))) (.run c' p)
  | gone {c c'} :
    A.ask c = .ok c' →
    Behind (.gone c) (.gone c')

/-- A pool of adapted calls and the pool behind it. -/
structure Covers (P : Pool S C W ε α) (Q : Pool S C' W ε' α') : Prop where
  world : P.world = Q.world
  slots : ∀ i, A.Behind (P.slots i) (Q.slots i)

/-- The call that is made behind a call. -/
def made : Pool.Label S C → Option (Nat × C')
  | .call i c => (A.ask c).toOption.map fun c' => (i, c')
  | _ => none

variable {A} {exec : Semantics S C W} {exec' : Semantics S C' W} {env : W → W → Prop}
  {inner : C' → Prog S ε' α'} {may : C → Prop} {may' : C' → Prop} {Q : Pool S C' W ε' α'}
  {P : Pool S C W ε α} {sl : Slot S C ε α} {i : Nat} {w : W} {c : C}

lemma covers_init (w : W) : A.Covers (Pool.init w : Pool S C W ε α) (Pool.init w) :=
  ⟨rfl, fun _ => .idle⟩

lemma Covers.update (h : A.Covers P Q) {sl' : Slot S C' ε' α'} (behind : A.Behind sl sl') :
    A.Covers ⟨w, Function.update P.slots i sl⟩ ⟨w, Function.update Q.slots i sl'⟩ := by
  refine ⟨rfl, fun j => ?_⟩
  rcases eq_or_ne j i with rfl | ne
  · simpa only [update_self] using behind
  · simpa only [update_of_ne ne] using h.slots j

/-- A place that changes while nothing was called behind it. -/
lemma Covers.update_idle (h : A.Covers P Q) (behind : A.Behind sl (.idle : Slot S C' ε' α'))
    (idle : Q.slots i = .idle) : A.Covers ⟨P.world, Function.update P.slots i sl⟩ Q := by
  have covers := h.update (w := P.world) (i := i) behind
  rw [← idle, update_eq_self, h.world] at covers
  rwa [h.world]

/-- A step of a pool of adapted calls is a step of the pool behind it or none. -/
theorem covers_matches
    (sub : ∀ {i c c' w o w' r}, A.ask c = .ok c' → exec i c w o w' r → exec' i c' w o w' r)
    (allows : ∀ {c c'}, A.ask c = .ok c' → may c → may' c') :
    Matches (Pool.Step exec env (A.body inner) may) (Pool.Step exec' env inner may') A.made
      Pool.Label.made A.Covers := by
  intro P Q l P' covers st
  have stands := covers.slots
  cases st with
  | @call i c idle m =>
    have behind := stands i
    rw [idle] at behind
    generalize at' : Q.slots i = sl at behind
    cases behind
    have seen : A.made (.call i c : Pool.Label S C) =
        (A.ask c).toOption.map fun c' => (i, c') := rfl
    rw [seen]
    unfold body
    cases asked : A.ask c with
    | error x => exact ⟨[], Q, .nil, rfl, covers.update_idle (.answered asked) at'⟩
    | ok c' =>
      refine ⟨[.call i c'], _, .cons (.call at' (allows asked m)) .nil, rfl, ?_⟩
      rw [covers.world]
      exact covers.update (.run asked)
  | @op i c o k w r at' ex =>
    have behind := stands i
    rw [at'] at behind
    generalize e : Slot.run c (.op o k) = sl at behind
    generalize at2 : Q.slots i = sl' at behind
    cases behind with
    | idle => cases e
    | dropped => cases e
    | gone => cases e
    | @answered _ x _ =>
      injection e with _ e
      exact absurd e.symm Prog.ofExcept_ne_op
    | @run _ c' p asked =>
      injection e with same e
      subst same
      obtain ⟨k', rfl, rfl⟩ := Prog.finish_eq_op e.symm
      rw [covers.world] at ex
      exact ⟨[.op i o], _, .cons (.op at2 (sub asked ex)) .nil, rfl, covers.update (.run asked)⟩
  | @abandon i c p at' =>
    have behind := stands i
    rw [at'] at behind
    generalize e : Slot.run c p = sl at behind
    generalize at2 : Q.slots i = sl' at behind
    cases behind with
    | idle => cases e
    | dropped => cases e
    | gone => cases e
    | answered asked =>
      cases e
      exact ⟨[], Q, .nil, rfl, covers.update_idle (.dropped asked) at2⟩
    | run asked =>
      cases e
      refine ⟨[.abandon i], _, .cons (.abandon at2) .nil, rfl, ?_⟩
      rw [covers.world]
      exact covers.update (.gone asked)
  | @env w e =>
    rw [covers.world] at e
    exact ⟨[.env], _, .cons (.env e) .nil, rfl, rfl, stands⟩

/-- A call that has returned was answered on the spot, or its answer was made of the answer behind
it. -/
lemma Covers.returned (h : A.Covers P Q) (at' : P.slots i = .run c (.ofExcept x)) :
    (A.ask c = .error x ∧ Q.slots i = .idle) ∨
      ∃ c' y, A.ask c = .ok c' ∧ Q.slots i = .run c' (.ofExcept y) ∧ x = A.answer c y := by
  have behind := h.slots i
  rw [at'] at behind
  generalize e : Slot.run c (.ofExcept x) = sl at behind
  generalize at2 : Q.slots i = sl' at behind
  cases behind with
  | idle => cases e
  | dropped => cases e
  | gone => cases e
  | answered asked =>
    injection e with same e
    subst same
    rw [Prog.ofExcept_inj e]
    exact .inl ⟨asked, rfl⟩
  | run asked =>
    injection e with same e
    subst same
    obtain ⟨y, rfl, made⟩ := Prog.finish_eq_ofExcept e.symm
    exact .inr ⟨_, y, asked, rfl, made⟩

/-- An adapted call that runs alone. -/
lemma exec_body {c' : C'} {w' : W} {y : Except ε' α'}
    (sub : ∀ {w o w' r}, exec' i c' w o w' r → exec i c w o w' r) (asked : A.ask c = .ok c')
    (ex : Exec exec' i c' w (inner c') w' y) :
    Exec exec i c w (A.body inner c) w' (A.answer c y) := by
  unfold body
  rw [asked]
  dsimp only
  generalize inner c' = p at ex
  induction ex with
  | ret => exact .ofExcept _
  | raise => exact .ofExcept _
  | op st _ ih => exact .op (sub st) ih

end Adapter

end CherryPit.Conc
