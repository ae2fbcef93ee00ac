import Mathlib.Tactic

/-!
# Bounded channels

A bounded first-in first-out channel with one receiver, as a queue guarded by a counter of permits:
a sender takes a permit or is refused, and receiving gives it back. The invariant that ties the two
together is a field, so a refusal tells how many messages are waiting (`trySend_error`).
-/

namespace CherryPit.Conc

/-- Why a message was not accepted. -/
inductive TrySendError where
  | full
  | closed
  deriving DecidableEq

/-- A channel with messages in the order in which they were accepted. -/
structure Channel (α : Type) where
  capacity : Nat
  queue : List α
  permits : Nat
  closed : Bool
  slots : permits + queue.length = capacity

namespace Channel

variable {α : Type} {c c' : Channel α} {a : α} {why : TrySendError}

/-- An open channel without messages. -/
def new (capacity : Nat) : Channel α := ⟨capacity, [], capacity, false, rfl⟩

/-- Send without waiting. -/
def trySend (c : Channel α) (a : α) : Channel α × Except TrySendError Unit :=
  if c.closed then (c, .error .closed)
  else if h : 0 < c.permits then
    ({ c with
      queue := c.queue ++ [a]
      permits := c.permits - 1
      slots := by have := c.slots; rw [List.length_append, List.length_singleton]; omega }, .ok ())
  else (c, .error .full)

/-- Take the oldest message. -/
def recv (c : Channel α) : Option (α × Channel α) :=
  match h : c.queue with
  | [] => none
  | a :: rest =>
    some (a, { c with
      queue := rest
      permits := c.permits + 1
      slots := by have := c.slots; rw [h, List.length_cons] at this; omega })

/-- The receiver goes away, and the messages with it. -/
def close (c : Channel α) : Channel α := ⟨c.capacity, [], c.capacity, true, rfl⟩

/-- Rust `try_send` that succeeds. -/
lemma trySend_ok (h : (c.trySend a).2 = .ok ()) :
    c.closed = false ∧ (c.trySend a).1.queue = c.queue ++ [a] := by
  rw [trySend] at h ⊢
  split_ifs at h ⊢ with closed permit
  exact ⟨Bool.eq_false_iff.mpr closed, rfl⟩

/-- A message is refused if the receiver is gone or every slot is taken. -/
lemma trySend_error (h : (c.trySend a).2 = .error why) :
    (c.trySend a).1 = c ∧ (c.closed = true ∨ c.queue.length = c.capacity) := by
  rw [trySend] at h ⊢
  split_ifs at h ⊢ with closed permit
  · exact ⟨rfl, .inl closed⟩
  · have := c.slots
    exact ⟨rfl, .inr (by omega)⟩

@[simp] lemma trySend_capacity : (c.trySend a).1.capacity = c.capacity := by
  rw [trySend]
  split_ifs <;> rfl

@[simp] lemma trySend_closed : (c.trySend a).1.closed = c.closed := by
  rw [trySend]
  split_ifs <;> rfl

/-- Rust `recv` that gets something. -/
lemma recv_some (h : c.recv = some (a, c')) :
    c.queue = a :: c'.queue ∧ c'.closed = c.closed ∧ c'.capacity = c.capacity := by
  rw [recv] at h
  split at h
  · cases h
  · rename_i e
    cases h
    exact ⟨e, rfl, rfl⟩

end Channel

end CherryPit.Conc
