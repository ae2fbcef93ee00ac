import Mathlib.Tactic

/-!
# Labelled runs

Runs of a labelled transition relation `step : S → L → S → Prop`. A run carries the list of its
labels, so that a property of a run can be stated over what happened (`Run.split` cuts a run at a
point of its label list) as well as over the states it reaches (`Run.invariant`).

`Run` grows at the head; `Run.snoc` and `Run.snocInduction` give the view from the other end, which
is the one an argument about "the run so far" wants.
-/

namespace CherryPit.Conc

variable {S L : Type*}

/-- The runs of a labelled transition relation, with their labels in order. -/
inductive Run (step : S → L → S → Prop) : S → List L → S → Prop where
  | nil {s} :
    Run step s [] s
  | cons {s l s' tr s''} :
    step s l s' →
    Run step s' tr s'' →
    Run step s (l :: tr) s''

variable {step : S → L → S → Prop} {I : S → Prop}

/-- One run after another. -/
lemma Run.append {s s' s'' tr tr'} (r1 : Run step s tr s') (r2 : Run step s' tr' s'') :
    Run step s (tr ++ tr') s'' := by
  induction r1 with
  | nil => exact r2
  | cons st _ ih => exact .cons st (ih r2)

/-- A run whose labels are a concatenation passes through a state between the two halves. -/
lemma Run.split {s s'' tr tr'} (r : Run step s (tr ++ tr') s'') :
    ∃ s', Run step s tr s' ∧ Run step s' tr' s'' := by
  induction tr generalizing s with
  | nil => exact ⟨s, .nil, r⟩
  | cons l tr ih =>
    cases r with
    | cons st r =>
      obtain ⟨s', r1, r2⟩ := ih r
      exact ⟨s', .cons st r1, r2⟩

/-- A run and one more step. -/
lemma Run.snoc {s s' s'' tr l} (r : Run step s tr s') (st : step s' l s'') :
    Run step s (tr ++ [l]) s'' :=
  r.append (.cons st .nil)

/-- The last step of a run. -/
lemma Run.unsnoc {s s'' tr l} (r : Run step s (tr ++ [l]) s'') :
    ∃ s', Run step s tr s' ∧ step s' l s'' := by
  obtain ⟨s', r1, r2⟩ := r.split
  cases r2 with
  | cons st r2 =>
    cases r2
    exact ⟨s', r1, st⟩

/-- Induction on a run from its last step. -/
lemma Run.snocInduction {s0 s tr} {motive : List L → S → Prop} (nil : motive [] s0)
    (snoc : ∀ {tr s l s'}, Run step s0 tr s → step s l s' → motive tr s → motive (tr ++ [l]) s')
    (r : Run step s0 tr s) : motive tr s := by
  induction tr using List.reverseRecOn generalizing s with
  | nil =>
    cases r
    exact nil
  | append_singleton tr l ih =>
    obtain ⟨s', r', st⟩ := r.unsnoc
    exact snoc r' st (ih r')

/-- A property that every step keeps holds at the end of a run that starts in it. -/
lemma Run.invariant {s s' tr} (keep : ∀ {s l s'}, I s → step s l s' → I s') (r : Run step s tr s')
    (h : I s) : I s' := by
  induction r with
  | nil => exact h
  | cons st _ ih => exact ih (keep h st)

/-- A run with more steps to choose from. -/
lemma Run.mono {step' : S → L → S → Prop} {s s' tr} (sub : ∀ {s l s'}, step s l s' → step' s l s')
    (r : Run step s tr s') : Run step' s tr s' := by
  induction r with
  | nil => exact .nil
  | cons st _ ih => exact .cons (sub st) ih

/-- An invariant holds before every step of a run. -/
lemma Run.keeping {s s' tr} (keep : ∀ {s l s'}, I s → step s l s' → I s') (r : Run step s tr s')
    (h : I s) : Run (fun s l s' => step s l s' ∧ I s) s tr s' := by
  induction r with
  | nil => exact .nil
  | cons st _ ih => exact .cons ⟨st, h⟩ (ih (keep h st))

/-- A run whose labels are allowed in any state. -/
lemma Run.restrict {P : S → L → Prop} {s s' tr} (free : ∀ l ∈ tr, ∀ s, P s l)
    (r : Run step s tr s') : Run (fun s l s' => step s l s' ∧ P s l) s tr s' := by
  induction r with
  | nil => exact .nil
  | cons st _ ih =>
    have rest := ih fun l mem => free l (List.mem_cons_of_mem _ mem)
    exact .cons ⟨st, free _ List.mem_cons_self _⟩ rest

/-- If every step is seen as one step of another relation or as none at all, a run is seen as a run
of what is seen of its labels. -/
lemma Run.seen {S' L' : Type*} {step' : S' → L' → S' → Prop} {s s' tr}
    (view : S → S') (see : L → Option L')
    (one : ∀ {s l s'}, step s l s' →
      (∃ l', see l = some l' ∧ step' (view s) l' (view s')) ∨ (see l = none ∧ view s' = view s))
    (r : Run step s tr s') : Run step' (view s) (tr.filterMap see) (view s') := by
  induction r with
  | nil => exact .nil
  | cons st _ ih =>
    rcases one st with ⟨l', seen, st'⟩ | ⟨hidden, same⟩
    · rw [List.filterMap_cons_some seen]
      exact .cons st' ih
    · rw [List.filterMap_cons_none hidden, ← same]
      exact ih

end CherryPit.Conc
