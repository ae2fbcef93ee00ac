import CherryPit.Conc.Broadcast

/-!
# Feeds

A broadcast channel as a list of all that was sent, of which a receiver has read up to a position.
The channel keeps the last `capacity` entries; a receiver further behind is told how many it has
lost and moved up to the oldest entry that is kept.

`Marks` says what a reader shows who puts a mark in the place of what was lost: the entries in
order, and one mark for each stretch that is missing.
-/

namespace CherryPit.Conc.Feed

variable {α : Type*} {log : List α} {capacity next next' start : Nat} {r : Received α} {β : Type*}

/-- `recv` takes a receiver from one position to another. -/
inductive Recv (capacity : Nat) (log : List α) (next : Nat) : Received α → Nat → Prop where
  | ok {a} :
    log.length ≤ next + capacity →
    log[next]? = some a →
    Recv capacity log next (.ok a) (next + 1)
  | lagged :
    next + capacity < log.length →
    Recv capacity log next (.lagged (log.length - capacity - next)) (log.length - capacity)
  | closed :
    next = log.length →
    Recv capacity log next .closed next

/-- The entries between two positions. -/
def slice (log : List α) (start stop : Nat) : List α := (log.take stop).drop start

/-- The entries, shown one by one or lost in stretches. -/
inductive Marks : List α → List (Option α) → Prop where
  | nil : Marks [] []
  | shown {entries shown a} :
    Marks entries shown →
    Marks (entries ++ [a]) (shown ++ [some a])
  | lost {entries shown stretch} :
    Marks entries shown →
    stretch ≠ [] →
    Marks (entries ++ stretch) (shown ++ [none])

lemma slice_self (log : List α) (start : Nat) : slice log start start = [] :=
  List.drop_of_length_le (List.length_take_le ..)

/-- What was read stays what it is when more is sent. -/
lemma slice_append {more : List α} (le : next ≤ log.length) :
    slice (log ++ more) start next = slice log start next := by
  rw [slice, List.take_append_of_le_length le, slice]

lemma slice_trans (le : start ≤ next) (le' : next ≤ next') (le'' : next ≤ log.length) :
    slice log start next' = slice log start next ++ slice log next next' := by
  have first : (log.take next').take next = log.take next := by
    rw [List.take_take, min_eq_left le']
  have long : start ≤ (log.take next).length := by
    rwa [List.length_take, min_eq_left le'']
  calc slice log start next'
      = ((log.take next').take next ++ (log.take next').drop next).drop start := by
        rw [List.take_append_drop, slice]
    _ = slice log start next ++ slice log next next' := by
        rw [first, List.drop_append_of_le_length long, slice, slice]

lemma slice_succ {a : α} (at' : log[next]? = some a) : slice log next (next + 1) = [a] := by
  rw [slice, List.take_add_one, at', List.drop_append_of_le_length]
  · simp
  · rw [List.length_take]
    have := (List.getElem?_eq_some_iff.mp at').1
    omega

lemma slice_ne_nil (lt : next < next') (le : next' ≤ log.length) : slice log next next' ≠ [] := by
  rw [slice, ← List.length_pos_iff, List.length_drop, List.length_take]
  omega

/-- A receiver stays within what was sent. -/
lemma Recv.bounds (recv : Recv capacity log next r next') (le : next ≤ log.length) :
    next ≤ next' ∧ next' ≤ log.length := by
  cases recv with
  | ok _ at' => exact ⟨Nat.le_succ next, (List.getElem?_eq_some_iff.mp at').1⟩
  | lagged behind => omega
  | closed => exact ⟨le_rfl, le⟩

/-- What a reader shows next: what it has read, or a mark. -/
def shows : Received α → List (Option α)
  | .ok a => [some a]
  | .lagged _ => [none]
  | .closed => []

/-- A reader who marks its losses has shown all up to its position. -/
lemma Marks.recv {shown : List (Option α)} (le : start ≤ next) (le' : next ≤ log.length)
    (marks : Marks (slice log start next) shown) (recv : Recv capacity log next r next') :
    Marks (slice log start next') (shown ++ shows r) := by
  rw [slice_trans le (recv.bounds le').1 le']
  cases recv with
  | ok _ at' =>
    rw [slice_succ at']
    exact marks.shown
  | lagged behind => exact marks.lost (slice_ne_nil (by omega) (Nat.sub_le ..))
  | closed =>
    rw [slice_self, List.append_nil]
    exact (List.append_nil shown).symm ▸ marks

lemma slice_map (f : α → β) (log : List α) (start stop : Nat) :
    slice (log.map f) start stop = (slice log start stop).map f := by
  rw [slice, slice, List.map_drop, List.map_take]

/-- What is shown of entries that were made of others is made of what could be shown of those. -/
lemma Marks.of_map {f : α → β} {xs : List α} {shown : List (Option β)}
    (h : Marks (xs.map f) shown) : ∃ marks, Marks xs marks ∧ shown = marks.map (Option.map f) := by
  generalize made : xs.map f = entries at h
  induction h generalizing xs with
  | nil =>
    cases List.map_eq_nil_iff.mp made
    exact ⟨[], .nil, rfl⟩
  | shown _ ih =>
    obtain ⟨ys, last, rfl, before, one⟩ := List.map_eq_append_iff.mp made
    obtain ⟨a, rfl, rfl⟩ := List.map_eq_singleton_iff.mp one
    obtain ⟨marks, h, rfl⟩ := ih before
    exact ⟨marks ++ [some a], h.shown, by simp⟩
  | lost _ some ih =>
    obtain ⟨ys, stretch, rfl, before, rfl⟩ := List.map_eq_append_iff.mp made
    obtain ⟨marks, h, rfl⟩ := ih before
    exact ⟨marks ++ [none], h.lost (by simpa using some), by simp⟩

end CherryPit.Conc.Feed
