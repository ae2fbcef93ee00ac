import Mathlib.Tactic

/-!
# Loops that end at the first failure

`tryEach f xs` is the loop `for x in xs { f(x)?; }`, with what each round leaves behind. The rounds
are numbered, so that two rounds on equal elements may go differently.

A loop is described by its rounds: the `n`-th one takes place if the ones before it succeed
(`tryEach_getElem?`), and the loop succeeds if all do (`tryEach_ok`) and fails as the first one that
fails (`tryEach_error`). A loop whose rounds add to a list ends with what was there and what they
added (`mem_foldlM`), and one that collects results collects one for each element
(`mapM_eq_ok_iff`).
-/

namespace CherryPit

variable {α β ε : Type}

/-- Rounds on the elements of a list until one fails. -/
def tryEach (f : Nat → α → β × Except ε Unit) : List α → List β × Except ε Unit
  | [] => ([], .ok ())
  | a :: rest =>
    match (f 0 a).2 with
    | .error e => ([(f 0 a).1], .error e)
    | .ok () =>
      let r := tryEach (fun n => f (n + 1)) rest
      ((f 0 a).1 :: r.1, r.2)

/-- The rounds before the `n`-th succeed. -/
def Passes (f : Nat → α → β × Except ε Unit) (xs : List α) (n : Nat) : Prop :=
  ∀ m a, m < n → xs[m]? = some a → (f m a).2 = .ok ()

/-- The `n`-th round is the first that fails. -/
def FailsAt (f : Nat → α → β × Except ε Unit) (xs : List α) (n : Nat) (e : ε) : Prop :=
  Passes f xs n ∧ ∃ a, xs[n]? = some a ∧ (f n a).2 = .error e

section Rounds

variable {f : Nat → α → β × Except ε Unit} {a : α} {xs : List α} {n : Nat} {e : ε}

lemma passes_zero : Passes f xs 0 := by
  intro m a lt
  cases lt

lemma passes_cons_succ :
    Passes f (a :: xs) (n + 1) ↔ (f 0 a).2 = .ok () ∧ Passes (fun m => f (m + 1)) xs n := by
  constructor
  · intro h
    exact ⟨h 0 a (Nat.succ_pos n) rfl, fun m b lt at' => h (m + 1) b (Nat.succ_lt_succ lt) at'⟩
  · rintro ⟨first, rest⟩ m b lt at'
    cases m with
    | zero =>
      cases at'
      exact first
    | succ m => exact rest m b (Nat.lt_of_succ_lt_succ lt) at'

lemma failsAt_cons_succ :
    FailsAt f (a :: xs) (n + 1) e ↔
      (f 0 a).2 = .ok () ∧ FailsAt (fun m => f (m + 1)) xs n e := by
  rw [FailsAt, FailsAt, passes_cons_succ, and_assoc]
  rfl

/-- Only one round is the first that fails. -/
lemma FailsAt.unique {n' e'} (h : FailsAt f xs n e) (h' : FailsAt f xs n' e') :
    n = n' ∧ e = e' := by
  obtain ⟨pass, a, at', failed⟩ := h
  obtain ⟨pass', a', at'', failed'⟩ := h'
  rcases Nat.lt_trichotomy n n' with lt | rfl | lt
  · cases (pass' n a lt at').symm.trans failed
  · cases at'.symm.trans at''
    cases failed.symm.trans failed'
    exact ⟨rfl, rfl⟩
  · cases (pass n' a' lt at'').symm.trans failed'

/-- A round takes place if those before it succeed. -/
lemma tryEach_getElem? {b : β} :
    (tryEach f xs).1[n]? = some b ↔ Passes f xs n ∧ ∃ a, xs[n]? = some a ∧ (f n a).1 = b := by
  induction xs generalizing f n with
  | nil => simp [tryEach]
  | cons a xs ih =>
    rw [tryEach]
    cases n with
    | zero =>
      have first : (∃ a', (a :: xs)[0]? = some a' ∧ (f 0 a').1 = b) ↔ (f 0 a).1 = b := by simp
      rw [first, and_iff_right passes_zero]
      split <;> simp
    | succ n =>
      rw [passes_cons_succ, List.getElem?_cons_succ]
      split
      case h_1 e failed => simp [failed]
      case h_2 passed =>
        rw [List.getElem?_cons_succ, ih, passed]
        simp

/-- The loop succeeds if every round does. -/
lemma tryEach_ok : (tryEach f xs).2 = .ok () ↔ Passes f xs xs.length := by
  induction xs generalizing f with
  | nil =>
    rw [List.length_nil, iff_true_right passes_zero]
    rfl
  | cons a xs ih =>
    rw [tryEach, List.length_cons, passes_cons_succ]
    split
    case h_1 e failed => simp [failed]
    case h_2 passed => simp [passed, ih]

/-- The loop fails as its first round that fails. -/
lemma tryEach_error : (tryEach f xs).2 = .error e ↔ ∃ n, FailsAt f xs n e := by
  induction xs generalizing f with
  | nil => simp [tryEach, FailsAt]
  | cons a xs ih =>
    rw [tryEach]
    split
    case h_1 e' failed =>
      constructor
      · rintro ⟨⟩
        exact ⟨0, passes_zero, a, rfl, failed⟩
      · intro h
        obtain ⟨n, h⟩ := h
        have first : FailsAt f (a :: xs) 0 e' := ⟨passes_zero, a, rfl, failed⟩
        rw [(first.unique h).2]
    case h_2 passed =>
      rw [ih]
      constructor
      · rintro ⟨n, h⟩
        exact ⟨n + 1, failsAt_cons_succ.mpr ⟨passed, h⟩⟩
      · rintro ⟨n, h⟩
        cases n with
        | zero =>
          obtain ⟨_, b, at', failed⟩ := h
          cases at'
          cases passed.symm.trans failed
        | succ n => exact ⟨n, (failsAt_cons_succ.mp h).2⟩

end Rounds

/-- If each round adds to a list, the list holds in the end what all rounds added. -/
lemma mem_foldlM {σ : Type} {f : σ → α → Option σ} (out : σ → List β) (added : α → β → Prop)
    (step : ∀ s a s', f s a = some s' → ∀ b, b ∈ out s' ↔ b ∈ out s ∨ added a b)
    {xs : List α} {s s' : σ} (h : xs.foldlM f s = some s') (b : β) :
    b ∈ out s' ↔ b ∈ out s ∨ ∃ a ∈ xs, added a b := by
  induction xs generalizing s with
  | nil =>
    cases h
    simp
  | cons a xs ih =>
    rw [List.foldlM_cons] at h
    obtain ⟨t, first, rest⟩ := Option.bind_eq_some_iff.mp h
    rw [ih rest, step s a t first b, List.exists_mem_cons_iff, or_assoc]

/-- `collect` over results succeeds with the values of all of them. -/
lemma mapM_eq_ok_iff {f : α → Except ε β} {xs : List α} {ys : List β} :
    xs.mapM f = .ok ys ↔ List.Forall₂ (fun a b => f a = .ok b) xs ys := by
  induction xs generalizing ys with
  | nil =>
    rw [List.mapM_nil, List.forall₂_nil_left_iff]
    exact ⟨fun e => (Except.ok.inj e).symm, fun e => congrArg Except.ok e.symm⟩
  | cons a xs ih =>
    rw [List.mapM_cons, List.forall₂_cons_left_iff]
    cases first : f a with
    | error e =>
      refine iff_of_false (by rintro ⟨⟩) ?_
      rintro ⟨b, _, ⟨⟩, -⟩
    | ok b =>
      cases rest : xs.mapM f with
      | error e =>
        refine iff_of_false (by rintro ⟨⟩) ?_
        rintro ⟨_, bs, -, all, -⟩
        cases rest.symm.trans (ih.mpr all)
      | ok bs =>
        have all := ih.mp rest
        constructor
        · rintro ⟨⟩
          exact ⟨b, bs, rfl, all, rfl⟩
        · rintro ⟨b', bs', ⟨⟩, all', rfl⟩
          cases rest.symm.trans (ih.mpr all')
          rfl

lemma exists_mapM_eq_ok {f : α → Except ε β} {xs : List α} (all : ∀ a ∈ xs, ∃ b, f a = .ok b) :
    ∃ ys, xs.mapM f = .ok ys := by
  simp only [mapM_eq_ok_iff]
  induction xs with
  | nil => exact ⟨[], .nil⟩
  | cons a xs ih =>
    obtain ⟨b, here⟩ := all a List.mem_cons_self
    obtain ⟨ys, rest⟩ := ih fun a' mem => all a' (List.mem_cons_of_mem _ mem)
    exact ⟨b :: ys, .cons here rest⟩

end CherryPit
