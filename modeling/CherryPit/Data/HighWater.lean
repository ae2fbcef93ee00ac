import Mathlib.Tactic

/-!
# High-water marks

Entries with a rank arrive one after another, and each replaces the one that stands unless its rank
is lower. What stands in the end has the highest rank (`exists_standing`). It is the last entry if
that is not behind (`standing_eq_getLast?`), and an entry of another rank if it is
(`rank_standing_iff`).
-/

namespace CherryPit

variable {α : Type} (rank : α → Nat)

/-- The entry that stands after another one has arrived. -/
def raise (kept : Option α) (entry : α) : Option α :=
  match kept with
  | some top => if rank entry < rank top then some top else some entry
  | none => some entry

/-- The entry that stands in the end. -/
def standing (entries : List α) : Option α := entries.foldl (raise rank) none

/-- The last entry has a lower rank than one before it. -/
def Behind (entries : List α) : Prop :=
  ∃ last ∈ entries.getLast?, ∃ entry ∈ entries, rank last < rank entry

instance Behind.decidable : DecidablePred (Behind rank) := fun entries =>
  inferInstanceAs (Decidable (∃ last ∈ entries.getLast?, ∃ entry ∈ entries,
    rank last < rank entry))

variable {rank} {entries : List α} {entry : α}

lemma standing_concat :
    standing rank (entries ++ [entry]) = raise rank (standing rank entries) entry := by
  rw [standing, List.foldl_append]
  rfl

/-- What stands has the highest rank. -/
lemma exists_standing (ne : entries ≠ []) :
    ∃ top ∈ entries, standing rank entries = some top ∧
      ∀ entry ∈ entries, rank entry ≤ rank top := by
  induction entries using List.reverseRecOn with
  | nil => exact absurd rfl ne
  | append_singleton entries entry ih =>
    simp only [List.forall_mem_append, List.forall_mem_singleton, standing_concat]
    rcases entries with _ | ⟨first, rest⟩
    · exact ⟨entry, List.mem_concat_self, rfl, fun _ mem => absurd mem List.not_mem_nil, le_rfl⟩
    · obtain ⟨top, mem, stands, le⟩ := ih (List.cons_ne_nil _ _)
      rw [stands, raise]
      split
      next lower => exact ⟨top, List.mem_append_left _ mem, rfl, le, lower.le⟩
      next reached =>
        refine ⟨entry, List.mem_concat_self, rfl, fun other mem => ?_, le_rfl⟩
        exact (le other mem).trans (Nat.le_of_not_lt reached)

/-- The last entry stands if it is not behind. -/
lemma standing_eq_getLast? (upToDate : ¬ Behind rank entries) :
    standing rank entries = entries.getLast? := by
  induction entries using List.reverseRecOn with
  | nil => rfl
  | append_singleton entries entry _ =>
    rw [standing_concat, List.getLast?_concat]
    rcases entries with _ | ⟨first, rest⟩
    · rfl
    · obtain ⟨top, mem, stands, -⟩ :
          ∃ top ∈ first :: rest, standing rank (first :: rest) = some top ∧ _ :=
        exists_standing (List.cons_ne_nil _ _)
      rw [stands, raise, if_neg]
      intro lower
      exact upToDate ⟨entry, List.getLast?_concat, top, List.mem_append_left _ mem, lower⟩

/-- What stands has the rank of the last entry only if that is not behind. -/
lemma rank_standing_iff :
    (standing rank entries).map rank = entries.getLast?.map rank ↔ ¬ Behind rank entries := by
  constructor
  · rintro same ⟨last, isLast, entry, mem, lower⟩
    obtain ⟨top, -, stands, le⟩ : ∃ top ∈ entries, standing rank entries = some top ∧ _ :=
      exists_standing (List.ne_nil_of_mem mem)
    rw [stands, Option.mem_def.mp isLast] at same
    have same : rank top = rank last := Option.some.inj same
    exact absurd (le entry mem) (by omega)
  · intro upToDate
    rw [standing_eq_getLast? upToDate]

end CherryPit
