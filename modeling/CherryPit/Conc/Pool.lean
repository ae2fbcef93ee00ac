import CherryPit.Conc.Prog
import CherryPit.Conc.Run

/-!
# Pools of interleaved calls

Any number of calls, each a program, over one shared world. A step of the pool starts a call,
performs one operation of a running call, abandons a running call for good, or lets the
environment move the world. Nothing is assumed of the order in which steps are taken, so a property
of every run of the pool is a property of every interleaving and of every crash point.

`Protocol` collects what a proof over all interleavings needs: the invariant of the world, what
each caller may rely on, and that the operations of the others and the environment respect it.
`Pool.Ok.run` is the rule: if every call that may be started meets its precondition, then along
every run the invariant holds and every running call still meets its own.
-/

namespace CherryPit.Conc

open Function

variable {S : Sig} {C W ε α : Type}

/-- A place for one call: not used yet, running (or returned), or abandoned. -/
inductive Slot (S : Sig) (C ε α : Type) where
  | idle
  | run (c : C) (p : Prog S ε α)
  | gone (c : C)

/-- The shared world and the calls over it. -/
structure Pool (S : Sig) (C W ε α : Type) where
  world : W
  slots : Nat → Slot S C ε α

namespace Pool

/-- The pool in which nothing has been called. -/
def init (w : W) : Pool S C W ε α where
  world := w
  slots _ := .idle

/-- What one step of a pool does. -/
inductive Label (S : Sig) (C : Type) where
  | call (i : Nat) (c : C)
  | op (i : Nat) (o : S.Op)
  | abandon (i : Nat)
  | env

/-- Steps of a pool: `body` is the program of a call and `may` the calls that can be made. -/
inductive Step (exec : Semantics S C W) (env : W → W → Prop)
    (body : C → Prog S ε α) (may : C → Prop) :
    Pool S C W ε α → Label S C → Pool S C W ε α → Prop where
  | call {P i c} :
    P.slots i = .idle →
    may c →
    Step exec env body may P (.call i c)
      { P with slots := update P.slots i (.run c (body c)) }
  | op {P i c o k w r} :
    P.slots i = .run c (.op o k) →
    exec i c P.world o w r →
    Step exec env body may P (.op i o)
      { world := w, slots := update P.slots i (.run c (k r)) }
  | abandon {P i c p} :
    P.slots i = .run c p →
    Step exec env body may P (.abandon i)
      { P with slots := update P.slots i (.gone c) }
  | env {P w} :
    env P.world w →
    Step exec env body may P .env { P with world := w }

end Pool

/-- A protocol for the calls of a pool. `fresh i` is what holds of the world as long as caller `i`
has not been used. -/
structure Protocol (exec : Semantics S C W) (env : W → W → Prop) where
  inv : W → Prop
  rely : Nat → W → W → Prop
  fresh : Nat → W → Prop
  refl : ∀ i w, rely i w w
  trans : ∀ {i w w' w''}, rely i w w' → rely i w' w'' → rely i w w''
  fresh_rely : ∀ {i w w'}, fresh i w → rely i w w' → fresh i w'
  env_inv : ∀ {w w'}, inv w → env w w' → inv w'
  env_rely : ∀ {i w w'}, inv w → env w w' → rely i w w'
  exec_rely : ∀ {i j c w o w' r}, inv w → exec i c w o w' r → i ≠ j → rely j w w'

namespace Protocol

variable {exec : Semantics S C W} {env : W → W → Prop}

/-- What caller `i` may assume. -/
def assume (P : Protocol exec env) (i : Nat) : Assume W where
  inv := P.inv
  rely := P.rely i
  refl := P.refl i
  trans := P.trans

/-- What holds of one place of the pool, given the postcondition `Q` of each call. -/
def SlotOk (P : Protocol exec env) (Q : Nat → C → Except ε α → W → Prop) (w : W) (i : Nat) :
    Slot S C ε α → Prop
  | .idle => P.fresh i w
  | .run c p => wp exec (P.assume i) i c (Q i c) p w
  | .gone _ => True

/-- The moves a caller relies on keep what holds of its place. -/
lemma SlotOk.rely {P : Protocol exec env} {Q : Nat → C → Except ε α → W → Prop} {w w' i sl}
    (h : P.SlotOk Q w i sl) (r : P.rely i w w') : P.SlotOk Q w' i sl := by
  cases sl with
  | idle => exact P.fresh_rely h r
  | run c p => exact wp_rely h r
  | gone c => trivial

end Protocol

namespace Pool

variable {exec : Semantics S C W} {env : W → W → Prop} {body : C → Prog S ε α} {may : C → Prop}

/-- A pool that follows a protocol. -/
structure Ok (P : Protocol exec env) (Q : Nat → C → Except ε α → W → Prop)
    (pool : Pool S C W ε α) : Prop where
  inv : P.inv pool.world
  slots : ∀ i, P.SlotOk Q pool.world i (pool.slots i)

variable {P : Protocol exec env} {Q : Nat → C → Except ε α → W → Prop} {pool pool' : Pool S C W ε α}
  {w : W}

/-- Replacing one place, with the world moved along what every other caller relies on. -/
lemma Ok.update {w i sl} (ok : Ok P Q pool) (inv : P.inv w)
    (rely : ∀ j, i ≠ j → P.rely j pool.world w) (h : P.SlotOk Q w i sl) :
    Ok P Q { world := w, slots := update pool.slots i sl } := by
  refine ⟨inv, ?_⟩
  intro j
  rcases eq_or_ne j i with rfl | ne
  · simpa only [update_self] using h
  · simpa only [update_of_ne ne] using (ok.slots j).rely (rely j ne.symm)

/-- What is known of a running call. -/
lemma Ok.running {i c p} (ok : Ok P Q pool) (h : pool.slots i = .run c p) :
    wp exec (P.assume i) i c (Q i c) p pool.world := by
  have hs := ok.slots i
  rw [h] at hs
  exact hs

/-- What is known of an unused place. -/
lemma Ok.unused {i} (ok : Ok P Q pool) (h : pool.slots i = .idle) : P.fresh i pool.world := by
  have hs := ok.slots i
  rw [h] at hs
  exact hs

/-- Every step of a pool follows the protocol, if every call that can be made does. -/
lemma Ok.step {l}
    (start : ∀ {i c w}, may c → P.inv w → P.fresh i w → wp exec (P.assume i) i c (Q i c) (body c) w)
    (ok : Ok P Q pool) (st : Step exec env body may pool l pool') : Ok P Q pool' := by
  cases st with
  | @call i c idle m =>
    exact ok.update ok.inv (fun j _ => P.refl j _) (start m ok.inv (ok.unused idle))
  | @op i c o k w r at' ex =>
    obtain ⟨inv, hk⟩ := ok.running at' _ (P.refl i _) ok.inv _ _ ex
    exact ok.update inv (fun j ne => P.exec_rely ok.inv ex ne) hk
  | abandon at' => exact ok.update ok.inv (fun j _ => P.refl j _) trivial
  | env e =>
    exact ⟨P.env_inv ok.inv e, fun i => (ok.slots i).rely (P.env_rely ok.inv e)⟩

/-- A pool without calls. -/
lemma Ok.init (inv : P.inv w) (fresh : ∀ i, P.fresh i w) : Ok P Q (Pool.init w : Pool S C W ε α) :=
  ⟨inv, fresh⟩

/-- Every interleaving follows the protocol, if every call that can be made does. -/
theorem Ok.run {tr}
    (start : ∀ {i c w}, may c → P.inv w → P.fresh i w → wp exec (P.assume i) i c (Q i c) (body c) w)
    (inv : P.inv w) (fresh : ∀ i, P.fresh i w)
    (r : Run (Step exec env body may) (Pool.init w) tr pool) : Ok P Q pool :=
  r.invariant (fun ok st => ok.step start st) (Ok.init inv fresh)

/-- What is known of a call that has failed. -/
lemma Ok.failed {i c e} (ok : Ok P Q pool) (h : pool.slots i = .run c (.raise e)) :
    Q i c (.error e) pool.world :=
  wp_raise (ok.running h) ok.inv

/-- What is known of a call that has returned or failed. -/
lemma Ok.returned {i c x} (ok : Ok P Q pool) (h : pool.slots i = .run c (.ofExcept x)) :
    Q i c x pool.world := by
  cases x with
  | ok a => exact wp_ret (ok.running h) ok.inv
  | error e => exact ok.failed h

/-- A call that has returned does nothing any more. -/
lemma Ok.rest {i c x tr}
    (start : ∀ {i c w}, may c → P.inv w → P.fresh i w → wp exec (P.assume i) i c (Q i c) (body c) w)
    (ok : Ok P Q pool) (h : pool.slots i = .run c (.ofExcept x))
    (r : Run (Step exec env body may) pool tr pool') : P.rely i pool.world pool'.world := by
  suffices inv : Ok P Q pool' ∧ (pool'.slots i = .run c (.ofExcept x) ∨ pool'.slots i = .gone c) ∧
      P.rely i pool.world pool'.world from inv.2.2
  refine r.invariant (I := fun q => Ok P Q q ∧ (q.slots i = .run c (.ofExcept x) ∨
    q.slots i = .gone c) ∧ P.rely i pool.world q.world) ?_ ⟨ok, .inl h, P.refl i _⟩
  rintro q l q' ⟨ok, ended, rely⟩ st
  refine ⟨ok.step start st, ?_⟩
  cases st with
  | @call j c' idle m =>
    have ne : i ≠ j := by
      rintro rfl
      obtain ended | ended := ended <;> cases idle.symm.trans ended
    simpa only [update_of_ne ne] using And.intro ended rely
  | @op j c' o k w r at' ex =>
    have ne : i ≠ j := by
      rintro rfl
      obtain ended | ended := ended
      · cases x <;> cases at'.symm.trans ended
      · cases at'.symm.trans ended
    refine ⟨?_, P.trans rely (P.exec_rely ok.inv ex ne.symm)⟩
    simpa only [update_of_ne ne] using ended
  | @abandon j c' p at' =>
    refine ⟨?_, rely⟩
    rcases eq_or_ne i j with rfl | ne
    · obtain ended | ended := ended
      · cases at'.symm.trans ended
        exact .inr (update_self ..)
      · cases at'.symm.trans ended
    · simpa only [update_of_ne ne] using ended
  | env e => exact ⟨ended, P.trans rely (P.env_rely ok.inv e)⟩

/-- A running call that is given the pool to itself. -/
lemma run_exec {i c p w x} (at' : pool.slots i = .run c p) (ex : Exec exec i c pool.world p w x) :
    ∃ ops : List S.Op, Run (Step exec env body may) pool (ops.map (.op i))
      { world := w, slots := update pool.slots i (.run c (.ofExcept x)) } := by
  generalize e : pool.world = w0 at ex
  induction ex generalizing pool with
  | ret =>
    subst e
    refine ⟨[], ?_⟩
    rw [show update pool.slots i (.run c (.ofExcept (.ok _))) = pool.slots from
      update_eq_self_iff.mpr at'.symm]
    exact .nil
  | raise =>
    subst e
    refine ⟨[], ?_⟩
    rw [show update pool.slots i (.run c (.ofExcept (.error _))) = pool.slots from
      update_eq_self_iff.mpr at'.symm]
    exact .nil
  | @op _ o k w' r _ _ st _ ih =>
    subst e
    let next : Pool S C W ε α := ⟨w', update pool.slots i (.run c (k r))⟩
    have at2 : next.slots i = .run c (k r) := update_self ..
    obtain ⟨ops, rn⟩ := ih at2 rfl
    rw [update_idem] at rn
    exact ⟨o :: ops, .cons (.op at' st) rn⟩

/-- A call that is made and given the pool to itself, with the steps it takes. -/
lemma run_call_ops {i c w x} (idle : pool.slots i = .idle) (m : may c)
    (ex : Exec exec i c pool.world (body c) w x) :
    ∃ ops : List S.Op, Run (Step exec env body may) pool (.call i c :: ops.map (.op i))
      { world := w, slots := update pool.slots i (.run c (.ofExcept x)) } := by
  let next : Pool S C W ε α := ⟨pool.world, update pool.slots i (.run c (body c))⟩
  have at2 : next.slots i = .run c (body c) := update_self ..
  have run : ∃ ops : List S.Op, Run (Step exec env body may) next (ops.map (.op i)) _ :=
    run_exec at2 ex
  obtain ⟨ops, r⟩ := run
  rw [update_idem] at r
  exact ⟨ops, .cons (.call idle m) r⟩

/-- A call that is made and given the pool to itself. -/
lemma run_call {i c w x} (idle : pool.slots i = .idle) (m : may c)
    (ex : Exec exec i c pool.world (body c) w x) :
    ∃ tr, Run (Step exec env body may) pool tr
      { world := w, slots := update pool.slots i (.run c (.ofExcept x)) } := by
  obtain ⟨ops, r⟩ : ∃ ops : List S.Op, Run (Step exec env body may) pool
    (.call i c :: ops.map (.op i)) _ := run_call_ops idle m ex
  exact ⟨_, r⟩

end Pool

section Ledger

/-!
## Ledgers

A ledger records what each caller did. The part of it that belongs to one caller is all a proof
about that caller can rely on.
-/

variable {β : Type} {log : List (Nat × β)} {bs : List β} {i : Nat}

/-- The entries of caller `i`. -/
def own (i : Nat) (log : List (Nat × β)) : List (Nat × β) :=
  log.filter (·.1 = i)

/-- What a caller enters, as entries of a ledger. -/
def entries (i : Nat) (bs : List β) : List (Nat × β) :=
  bs.map (i, ·)

lemma own_append_self : own i (log ++ entries i bs) = own i log ++ entries i bs := by
  simp [own, entries, List.filter_append, List.filter_map, comp_def]

lemma own_append_of_ne {j : Nat} (ne : i ≠ j) : own j (log ++ entries i bs) = own j log := by
  simp [own, entries, List.filter_append, List.filter_map, comp_def, ne]

/-- Ledgers compare if their parts compare caller by caller. -/
lemma subperm_of_own {log' : List (Nat × β)} (h : ∀ i, (own i log).Subperm (own i log')) :
    log.Subperm log' := by
  classical
  rw [List.subperm_ext_iff]
  intro x _
  have e : ∀ l : List (Nat × β), (own x.1 l).count x = l.count x :=
    fun l => List.count_filter (by simp)
  rw [← e log, ← e log']
  exact (h x.1).count_le x

end Ledger

end CherryPit.Conc
