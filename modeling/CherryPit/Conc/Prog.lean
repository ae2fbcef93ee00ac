import Mathlib.Tactic

/-!
# Effectful programs

Programs over a signature of operations: a program returns, raises an error, or performs one
operation and continues with its answer. An operation is one atomic access to the world that the
program shares with others, so the operations of a program are the points at which it can be
interleaved or abandoned.

`wp` is the weakest precondition of a program that runs under interference. Between two of its
operations the world may move along `rely`; at each of them it must keep `inv`. The closure of every
case under `rely` makes an assertion of the form `wp … p w` stable by construction (`wp_rely`), so a
proof about a program never has to restate what the others may do.

`Exec` is the same program run with nothing else running; `wp_exec` connects the two, and
`Assume.solo` is the assumption that asks no more than that.
-/

namespace CherryPit.Conc

/-- A signature: operations and the type of each one's answer. -/
structure Sig where
  Op : Type
  Res : Op → Type

/-- Programs that perform operations of a signature, raise `ε` or return `α`. -/
inductive Prog (S : Sig) (ε α : Type) : Type where
  | ret (a : α)
  | raise (e : ε)
  | op (o : S.Op) (k : S.Res o → Prog S ε α)

namespace Prog

variable {S : Sig} {ε α β : Type}

/-- Sequencing: an error skips what follows, as `?` does. -/
protected def bind : Prog S ε α → (α → Prog S ε β) → Prog S ε β
  | .ret a, f => f a
  | .raise e, _ => .raise e
  | .op o k, f => .op o fun r => (k r).bind f

instance : Monad (Prog S ε) where
  pure := .ret
  bind := Prog.bind

/-- Return the value of a result or raise its error. -/
def ofExcept : Except ε α → Prog S ε α
  | .ok a => .ret a
  | .error e => .raise e

/-- Perform one operation and unwrap the result that `f` makes of its answer, as `?` does. -/
def attempt (o : S.Op) (f : S.Res o → Except ε α) : Prog S ε α :=
  .op o fun r => ofExcept (f r)

/-- Every operation a program can perform is allowed. -/
def Uses (allowed : S.Op → Prop) : Prog S ε α → Prop
  | .ret _ => True
  | .raise _ => True
  | .op o k => allowed o ∧ ∀ r, (k r).Uses allowed

/-- Sequencing. -/
lemma Uses.bind {allowed : S.Op → Prop} {p : Prog S ε α} {f : α → Prog S ε β}
    (hp : p.Uses allowed) (hf : ∀ a, (f a).Uses allowed) : (p >>= f).Uses allowed := by
  induction p with
  | ret a => exact hf a
  | raise e => trivial
  | op o k ih => exact ⟨hp.1, fun r => ih r (hp.2 r)⟩

/-- One operation. -/
lemma Uses.attempt {allowed : S.Op → Prop} {o : S.Op} {f : S.Res o → Except ε α}
    (h : allowed o) : (Prog.attempt o f).Uses allowed := by
  refine ⟨h, fun r => ?_⟩
  show (ofExcept (f r)).Uses allowed
  cases f r <;> trivial

end Prog

/-- What an operation does to the world, for caller `i` running call `c`. -/
abbrev Semantics (S : Sig) (C W : Type) : Type :=
  Nat → C → W → (o : S.Op) → W → S.Res o → Prop

/-- What a program may assume of the world it shares: an invariant and the moves of the others. -/
structure Assume (W : Type) where
  inv : W → Prop
  rely : W → W → Prop
  refl : ∀ w, rely w w
  trans : ∀ {w w' w''}, rely w w' → rely w' w'' → rely w w''

/-- Nothing else runs. -/
def Assume.solo {W : Type} (inv : W → Prop) : Assume W where
  inv := inv
  rely := Eq
  refl _ := rfl
  trans := Eq.trans

section Wp

variable {S : Sig} {C W ε α β : Type} (exec : Semantics S C W) (A : Assume W) (i : Nat) (c : C)

/-- Weakest precondition under interference: every operation keeps the invariant, and the result
satisfies `Q` from then on. -/
def wp (Q : Except ε α → W → Prop) : Prog S ε α → W → Prop
  | .ret a, w => ∀ w', A.rely w w' → A.inv w' → Q (.ok a) w'
  | .raise e, w => ∀ w', A.rely w w' → A.inv w' → Q (.error e) w'
  | .op o k, w => ∀ w', A.rely w w' → A.inv w' →
      ∀ w'' r, exec i c w' o w'' r → A.inv w'' ∧ wp Q (k r) w''

variable {exec A i c} {Q Q' R : Except ε α → W → Prop} {p : Prog S ε α} {f : α → Prog S ε β}
  {w w' : W}

/-- An assertion about a program survives the moves of the others. -/
lemma wp_rely (h : wp exec A i c Q p w) (r : A.rely w w') : wp exec A i c Q p w' := by
  cases p <;> exact fun w'' r' => h w'' (A.trans r r')

/-- A result that is returned now. -/
lemma wp_ret {a} (h : wp exec A i c Q (.ret a) w) (hw : A.inv w) : Q (.ok a) w :=
  h w (A.refl w) hw

/-- An error that is raised now. -/
lemma wp_raise {e} (h : wp exec A i c Q (.raise e) w) (hw : A.inv w) : Q (.error e) w :=
  h w (A.refl w) hw

/-- Consequence: the postcondition may use the invariant. -/
lemma wp_conseq (imp : ∀ r w', A.inv w' → Q r w' → Q' r w') (h : wp exec A i c Q p w) :
    wp exec A i c Q' p w := by
  induction p generalizing w with
  | ret a => exact fun w' r hi => imp _ _ hi (h w' r hi)
  | raise e => exact fun w' r hi => imp _ _ hi (h w' r hi)
  | op o k ih =>
    intro w' r hi w'' a ex
    obtain ⟨hi', hk⟩ := h w' r hi w'' a ex
    exact ⟨hi', ih a hk⟩

/-- Sequencing. The second program starts in a state the first one leaves; an error passes. -/
lemma wp_bind {Q : Except ε β → W → Prop} (hw : A.inv w)
    (h : wp exec A i c
      (fun r w' => match r with
        | .ok a => wp exec A i c Q (f a) w'
        | .error e => Q (.error e) w') p w) :
    wp exec A i c Q (p >>= f) w := by
  induction p generalizing w with
  | ret a => exact h w (A.refl w) hw
  | raise e => exact h
  | op o k ih =>
    intro w' r hi w'' a ex
    obtain ⟨hi', hk⟩ := h w' r hi w'' a ex
    exact ⟨hi', ih a hi' hk⟩

/-- Sequencing through an intermediate postcondition. -/
lemma wp_seq {Q : Except ε β → W → Prop} (hw : A.inv w) (h : wp exec A i c R p w)
    (next : ∀ a v, A.inv v → R (.ok a) v → wp exec A i c Q (f a) v)
    (err : ∀ e v, A.inv v → R (.error e) v → Q (.error e) v) :
    wp exec A i c Q (p >>= f) w := by
  apply wp_bind hw
  refine wp_conseq ?_ h
  intro r v hv hr
  cases r with
  | ok a => exact next a v hv hr
  | error e => exact err e v hv hr

/-- Sequencing when only the invariant is at stake. -/
lemma wp_then (hw : A.inv w) (h : wp exec A i c R p w)
    (next : ∀ a v, A.inv v → R (.ok a) v → wp exec A i c (fun _ _ => True) (f a) v) :
    wp exec A i c (fun _ _ => True) (p >>= f) w :=
  wp_seq hw h next fun _ _ _ _ => trivial

/-- Wrapping up the value of a program when only the invariant is at stake. -/
lemma wp_map {g : α → β} (hw : A.inv w) (h : wp exec A i c R p w) :
    wp exec A i c (fun _ _ => True) (p >>= fun a => .ret (g a)) w :=
  wp_then hw h fun _ _ _ _ _ _ _ => trivial

/-- Sequencing when only success is at stake. -/
lemma wp_seq_ok {Q : β → W → Prop} (hw : A.inv w) (h : wp exec A i c R p w)
    (next : ∀ a v, A.inv v → R (.ok a) v →
      wp exec A i c (fun r v' => ∀ b, r = .ok b → Q b v') (f a) v) :
    wp exec A i c (fun r v' => ∀ b, r = .ok b → Q b v') (p >>= f) w := by
  refine wp_seq hw h next ?_
  rintro e v _ _ b ⟨⟩

/-- A program all of whose operations keep the invariant. -/
lemma wp_uses {allowed : S.Op → Prop}
    (keep : ∀ {o w w' r}, allowed o → A.inv w → exec i c w o w' r → A.inv w') (h : p.Uses allowed) :
    wp exec A i c (fun _ _ => True) p w := by
  induction p generalizing w with
  | ret a => exact fun _ _ _ => trivial
  | raise e => exact fun _ _ _ => trivial
  | op o k ih => exact fun w' _ hi w'' r ex => ⟨keep h.1 hi ex, ih r (h.2 r)⟩

/-- A fact that neither the others nor the program can undo. -/
lemma wp_frame {F : W → Prop} (stable : ∀ {w w'}, F w → A.rely w w' → F w')
    (keep : ∀ {o w w' r}, F w → exec i c w o w' r → F w') (hF : F w) (h : wp exec A i c Q p w) :
    wp exec A i c (fun r v => F v ∧ Q r v) p w := by
  induction p generalizing w with
  | ret a => exact fun w' r hi => ⟨stable hF r, h w' r hi⟩
  | raise e => exact fun w' r hi => ⟨stable hF r, h w' r hi⟩
  | op o k ih =>
    intro w' r hi w'' a ex
    obtain ⟨hi', hk⟩ := h w' r hi w'' a ex
    exact ⟨hi', ih a (keep (stable hF r) ex) hk⟩

/-- A result that is known. -/
lemma wp_ofExcept {x} (h : ∀ v, A.rely w v → A.inv v → Q x v) :
    wp exec A i c Q (.ofExcept x) w := by
  cases x <;> exact h

/-- One operation whose answer `?` unwraps. -/
lemma wp_attempt {o : S.Op} {f : S.Res o → Except ε α}
    (h : ∀ w', A.rely w w' → A.inv w' → ∀ w'' r, exec i c w' o w'' r →
      A.inv w'' ∧ ∀ v, A.rely w'' v → A.inv v → Q (f r) v) :
    wp exec A i c Q (.attempt o f) w := by
  intro w' r hi w'' a ex
  obtain ⟨hi', hq⟩ := h w' r hi w'' a ex
  exact ⟨hi', wp_ofExcept hq⟩

/-- A loop over a list. `J done acc` is the loop invariant after the prefix `done`. -/
lemma wp_foldlM {J : List β → α → W → Prop} {Q : ε → W → Prop} {f : α → β → Prog S ε α} {l acc}
    (stable : ∀ {done acc w w'}, J done acc w → A.rely w w' → A.inv w' → J done acc w')
    (body : ∀ {done x rest acc w}, l = done ++ x :: rest → A.inv w → J done acc w →
      wp exec A i c
        (fun r w' => match r with
          | .ok acc' => J (done ++ [x]) acc' w'
          | .error e => Q e w') (f acc x) w)
    (hw : A.inv w) (start : J [] acc w) :
    wp exec A i c
      (fun r w' => match r with
        | .ok acc' => J l acc' w'
        | .error e => Q e w') (l.foldlM f acc) w := by
  -- the induction is on what is left of the list
  suffices go : ∀ rest done acc w, l = done ++ rest → A.inv w → J done acc w →
      wp exec A i c
        (fun r w' => match r with
          | .ok acc' => J l acc' w'
          | .error e => Q e w') (rest.foldlM f acc) w from go l [] acc w rfl hw start
  intro rest
  induction rest with
  | nil =>
    intro done acc w split _ hJ w' r hi
    rw [split, List.append_nil]
    exact stable hJ r hi
  | cons x rest ih =>
    intro done acc w split hw hJ
    rw [List.foldlM_cons]
    refine wp_seq hw (body split hw hJ) ?_ fun _ _ _ h => h
    intro acc' v hv hJ'
    exact ih (done ++ [x]) acc' v (by simp [split]) hv hJ'

/-- A loop whose rounds keep the invariant. -/
lemma wp_foldlM_keep {f : α → β → Prog S ε α} {l : List β} {acc}
    (body : ∀ acc x w, A.inv w → wp exec A i c (fun _ _ => True) (f acc x) w) (hw : A.inv w) :
    wp exec A i c (fun _ _ => True) (l.foldlM f acc) w := by
  refine wp_conseq (fun _ _ _ _ => trivial)
    (wp_foldlM (J := fun _ _ _ => True) (Q := fun _ _ => True) (fun _ _ _ => trivial) ?_ hw trivial)
  intro done x rest acc w _ hw _
  refine wp_conseq ?_ (body acc x w hw)
  intro r _ _ _
  cases r <;> trivial

end Wp

section Exec

variable {S : Sig} {C W ε α β : Type}

/-- A program run to its end with nothing else running. -/
inductive Exec (exec : Semantics S C W) (i : Nat) (c : C) :
    W → Prog S ε α → W → Except ε α → Prop where
  | ret {w a} :
    Exec exec i c w (.ret a) w (.ok a)
  | raise {w e} :
    Exec exec i c w (.raise e) w (.error e)
  | op {w o k w' r w'' x} :
    exec i c w o w' r →
    Exec exec i c w' (k r) w'' x →
    Exec exec i c w (.op o k) w'' x

variable {exec : Semantics S C W} {i : Nat} {c : C} {answer : (o : S.Op) → W → W × S.Res o}

/-- A precondition speaks of the uninterrupted runs. -/
lemma wp_exec {A : Assume W} {Q : Except ε α → W → Prop} {p w w' x}
    (h : wp exec A i c Q p w) (hw : A.inv w) (ex : Exec exec i c w p w' x) :
    A.inv w' ∧ Q x w' := by
  induction ex with
  | ret => exact ⟨hw, wp_ret h hw⟩
  | raise => exact ⟨hw, wp_raise h hw⟩
  | op st _ ih =>
    obtain ⟨hi, hk⟩ := h _ (A.refl _) hw _ _ st
    exact ih hk hi

/-- A run under a wider semantics. -/
lemma Exec.mono {exec' : Semantics S C W} {w w' x} {p : Prog S ε α}
    (sub : ∀ {w o w' r}, exec i c w o w' r → exec' i c w o w' r)
    (ex : Exec exec i c w p w' x) : Exec exec' i c w p w' x := by
  induction ex with
  | ret => exact .ret
  | raise => exact .raise
  | op st _ ih => exact .op (sub st) ih

/-- Run a program against a function that answers its operations. -/
def Prog.interp (answer : (o : S.Op) → W → W × S.Res o) : Prog S ε α → W → W × Except ε α
  | .ret a, w => (w, .ok a)
  | .raise e, w => (w, .error e)
  | .op o k, w => (k (answer o w).2).interp answer (answer o w).1

/-- Answers to a sequence. -/
lemma Prog.interp_bind (answer : (o : S.Op) → W → W × S.Res o) (p : Prog S ε α)
    (f : α → Prog S ε β) (w : W) :
    (p >>= f).interp answer w =
      match p.interp answer w with
      | (w', .ok a) => (f a).interp answer w'
      | (w', .error e) => (w', .error e) := by
  induction p generalizing w with
  | ret a => rfl
  | raise e => rfl
  | op o k ih => exact ih _ _

lemma Prog.interp_attempt (answer : (o : S.Op) → W → W × S.Res o) (o : S.Op)
    (f : S.Res o → Except ε α) (w : W) :
    (Prog.attempt o f).interp answer w = ((answer o w).1, f (answer o w).2) := by
  show (ofExcept (f (answer o w).2)).interp answer (answer o w).1 = _
  cases f (answer o w).2 <;> rfl

lemma Prog.interp_attempt_bind {o : S.Op} {f : S.Res o → Except ε α} {k : α → Prog S ε β} {w w' r}
    (ans : answer o w = (w', r)) :
    (Prog.attempt o f >>= k).interp answer w =
      match f r with
      | .ok a => (k a).interp answer w'
      | .error e => (w', .error e) := by
  rw [interp_bind, interp_attempt, ans]
  cases f r <;> rfl

/-- Answers that a semantics allows make an uninterrupted run. -/
lemma Prog.interp_exec (sound : ∀ o w, exec i c w o (answer o w).1 (answer o w).2)
    (p : Prog S ε α) (w : W) :
    Exec exec i c w p (p.interp answer w).1 (p.interp answer w).2 := by
  induction p generalizing w with
  | ret a => exact .ret
  | raise e => exact .raise
  | op o k ih => exact .op (sound o w) (ih _ _)

end Exec

end CherryPit.Conc
