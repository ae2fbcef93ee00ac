import Mathlib.Tactic

/-!
# A receiver of a broadcast channel

What a receiver has not read yet is a queue: the updates sent since it subscribed, without those it
has read or lost. A receiver that is too slow loses the oldest ones, and is told how many before it
reads on. What it reads is the first one that is left.
-/

namespace CherryPit.Conc

variable {α : Type*}

/-- The answers of `recv`. -/
inductive Received (α : Type*) where
  | ok (a : α)
  | lagged (n : Nat)
  | closed

/-- `recv` takes a receiver from what is unread before to what is unread after. It may find the
receiver too slow whenever something is unread, and the channel closed when nothing is. -/
inductive Recv : List α → Received α → List α → Prop where
  | ok {a unread} :
    Recv (a :: unread) (.ok a) unread
  | lagged {n unread} :
    0 < n →
    n ≤ unread.length →
    Recv unread (.lagged n) (unread.drop n)
  | closed :
    Recv [] .closed []

end CherryPit.Conc
