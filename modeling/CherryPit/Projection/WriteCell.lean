import CherryPit.Conc.Threads
import CherryPit.Projection.Replay

/-!
# The write cell

Port of `WriteCell` (`cherry-pit-projection/src/write_cell.rs`): a projection behind a mutex, which
is folded into, replaced and read by any number of threads. A thread that panics with the mutex
poisons it, and from then on every call panics.

Rust → Lean: `apply` of the projection changes it in place, so that between its start and its end
the cell may have any content. It may panic at any point, as may `clone`, and the drop of a
projection that is replaced.
-/

namespace CherryPit.Replay.WriteCell

open Conc Threads

variable {P E : Type}

/-- The cell: its content, and the mutex. -/
structure Cell (P : Type) where
  inner : P
  locked : Bool
  poisoned : Bool

/-- What can be asked of the cell. -/
inductive Op (P E : Type) where
  | apply (envelope : EventEnvelope E)
  | replace (projection : P)
  | snapshot

/-- Where a call is. `applying` has seen the content that it started from. -/
inductive Pc (P E : Type) where
  | idle
  | locking (op : Op P E)
  | locked (op : Op P E)
  | applying (envelope : EventEnvelope E) (old : P)

/-- The call has the mutex. -/
def Pc.Holds : Pc P E → Prop
  | .locked _ | .applying _ _ => True
  | .idle | .locking _ => False

/-- What a call does. -/
inductive Event (P E : Type) where
  | call (op : Op P E)
  | lock
  | refused
  | begin
  | touch (content : P)
  | applied (envelope : EventEnvelope E)
  | replaced (projection : P)
  | snapshot (projection : P)
  | panicked

/-- Steps of a call. -/
inductive Local (projection : Projection P E) :
    Cell P → Pc P E → Event P E → Cell P → Pc P E → Prop where
  | call {cell op} :
    Local projection cell .idle (.call op) cell (.locking op)
  | lock {cell op} :
    cell.locked = false →
    cell.poisoned = false →
    Local projection cell (.locking op) .lock { cell with locked := true } (.locked op)
  | refused {cell op} :
    cell.locked = false →
    cell.poisoned = true →
    Local projection cell (.locking op) .refused cell .idle
  -- `apply`
  | begin {cell envelope} :
    Local projection cell (.locked (.apply envelope)) .begin cell (.applying envelope cell.inner)
  | touch {cell envelope old content} :
    Local projection cell (.applying envelope old) (.touch content) { cell with inner := content }
      (.applying envelope old)
  | applied {cell envelope old} :
    Local projection cell (.applying envelope old) (.applied envelope)
      { cell with inner := projection.apply old envelope, locked := false } .idle
  | applyPanicked {cell envelope old} :
    Local projection cell (.applying envelope old) .panicked
      { cell with locked := false, poisoned := true } .idle
  -- `replace`
  | replaced {cell new} :
    Local projection cell (.locked (.replace new)) (.replaced new)
      { cell with inner := new, locked := false } .idle
  | replacePanicked {cell new} :
    Local projection cell (.locked (.replace new)) .panicked
      { cell with inner := new, locked := false, poisoned := true } .idle
  -- `snapshot`
  | snapshot {cell} :
    Local projection cell (.locked .snapshot) (.snapshot cell.inner)
      { cell with locked := false } .idle
  | snapshotPanicked {cell} :
    Local projection cell (.locked .snapshot) .panicked
      { cell with locked := false, poisoned := true } .idle

/-- A cell and the threads that use it. -/
abbrev Users (P E : Type) := Threads (Cell P) (Pc P E)

abbrev Trace (P E : Type) := List (Label (Event P E) Empty)

/-- Steps of the threads. -/
abbrev CellStep (projection : Projection P E) :
    Users P E → Label (Event P E) Empty → Users P E → Prop :=
  Step (Local projection) fun _ _ _ => False

/-- Rust `new`. -/
def start (projection : Projection P E) : Users P E :=
  Threads.start ⟨projection.default, false, false⟩ .idle

/-- What a completed call makes of the content. -/
def write (projection : Projection P E) (old : P) : Event P E → P
  | .applied envelope => projection.apply old envelope
  | .replaced new => new
  | _ => old

/-- The content after the completed calls, one after the other. -/
def content (projection : Projection P E) (tr : Trace P E) : P :=
  (collect some tr).foldl (write projection) projection.default

variable {projection : Projection P E} {cell cell' : Cell P} {p p' : Pc P E} {a : Event P E}
  {s s' : Users P E} {tr tr' : Trace P E} {now : P}

lemma content_act (i : Nat) (a : Event P E) :
    content projection (tr ++ [.act i a]) = write projection (content projection tr) a := by
  rw [content, content, collect_act]
  simp

lemma respects (st : Local projection cell p a cell' p') :
    Respects Cell.locked Pc.Holds cell p cell' p' := by
  cases st with
  | lock free => exact .inr (.inl ⟨id, trivial, free, rfl⟩)
  | call | refused | begin | touch => exact .inl ⟨.rfl, rfl⟩
  | _ => exact .inr (.inr ⟨trivial, id, rfl⟩)

/-- What a thread knows of the cell when the completed calls have made `now`. -/
def Pc.Knows (now : P) (cell : Cell P) : Pc P E → Prop
  | .locked _ => cell.poisoned = false ∧ cell.inner = now
  | .applying _ old => cell.poisoned = false ∧ old = now
  | .idle | .locking _ => True

/-- The mutex excludes; who has it knows the content, and so does the next one to take it. -/
structure Inv (projection : Projection P E) (tr : Trace P E) (s : Users P E) : Prop where
  mutex : Mutex Cell.locked Pc.Holds s
  knows : ∀ i, (s.pc i).Knows (content projection tr) s.shared
  free : s.shared.locked = false → s.shared.poisoned = false →
    s.shared.inner = content projection tr
  poisoned : s.shared.poisoned = true ↔ ∃ i, .act i .panicked ∈ tr

lemma Pc.knows_of_not_holds (out : ¬ p.Holds) : p.Knows now cell := by
  cases p with
  | locked | applying => exact absurd trivial out
  | _ => exact trivial

/-- The one who moves knows the content, and leaves it as the next one takes it to be. -/
lemma Local.knows (st : Local projection cell p a cell' p') (h : p.Knows now cell)
    (held : p.Holds → cell.locked = true)
    (free : cell.locked = false → cell.poisoned = false → cell.inner = now) :
    p'.Knows (write projection now a) cell' ∧
      (cell'.locked = false → cell'.poisoned = false →
        cell'.inner = write projection now a) := by
  cases st with
  | call | refused => exact ⟨trivial, free⟩
  | lock unlocked clean => exact ⟨⟨clean, free unlocked clean⟩, nofun⟩
  | begin => exact ⟨h, free⟩
  | touch =>
    refine ⟨h, fun unlocked => ?_⟩
    rw [held trivial] at unlocked
    cases unlocked
  | applied => exact ⟨trivial, fun _ _ => by rw [h.2, write]⟩
  | replaced => exact ⟨trivial, fun _ _ => rfl⟩
  | snapshot => exact ⟨trivial, fun _ _ => h.2⟩
  | _ => exact ⟨trivial, fun _ => nofun⟩

/-- While the mutex is taken, others change nothing. -/
lemma Local.outside (st : Local projection cell p a cell' p') (out : ¬ p.Holds)
    (taken : cell.locked = true) : cell' = cell ∧ write projection now a = now := by
  cases st with
  | call => exact ⟨rfl, rfl⟩
  | lock unlocked | refused unlocked => cases taken.symm.trans unlocked
  | _ => exact absurd trivial out

lemma Local.poisoned (st : Local projection cell p a cell' p') :
    cell'.poisoned = true ↔ cell.poisoned = true ∨ a = .panicked := by
  cases st <;> simp

lemma Inv.start : Inv projection [] (start projection) where
  mutex := .start rfl id
  knows _ := trivial
  free _ _ := rfl
  poisoned := by simp [WriteCell.start, Threads.start]

lemma Inv.step {l} (inv : Inv projection tr s) (st : CellStep projection s l s') :
    Inv projection (tr ++ [l]) s' := by
  have mutex := inv.mutex.step respects (fun e => e.elim) st
  cases st with
  | env e => exact e.elim
  | @act i a cell p move =>
    have held (holds : (s.pc i).Holds) : s.shared.locked = true := inv.mutex.held.mpr ⟨i, holds⟩
    have own := move.knows (inv.knows i) held inv.free
    refine ⟨mutex, ?_, ?_, ?_⟩
    · intro j
      rw [content_act]
      rcases eq_or_ne j i with rfl | ne
      · simpa only [Function.update_self] using own.1
      · simp only [Function.update_of_ne ne]
        by_cases holds : (s.pc j).Holds
        · have out := inv.mutex.outside holds ne.symm
          have taken := inv.mutex.held.mpr ⟨j, holds⟩
          obtain ⟨same, unchanged⟩ := move.outside out taken
          rw [same, unchanged]
          exact inv.knows j
        · exact Pc.knows_of_not_holds holds
    · rw [content_act]
      exact own.2
    · rw [move.poisoned, inv.poisoned]
      simp only [List.mem_append, List.mem_singleton, Label.act.injEq, exists_or,
        exists_eq_left, @eq_comm _ a]

lemma inv_run (r : Run (CellStep projection) (start projection) tr s) : Inv projection tr s :=
  r.snocInduction .start fun _ st inv => inv.step st

/-- The event ends a call that has not panicked. -/
def Event.Completes : Event P E → Prop
  | .applied _ | .replaced _ | .snapshot _ => True
  | _ => False

lemma Local.holds (st : Local projection cell p a cell' p') (done : a.Completes) : p.Holds := by
  cases st <;> first | exact trivial | exact done.elim

/-- In every run of any number of threads: as soon as a call has panicked with the mutex no call
completes any more; and a snapshot is the content that the calls completed so far have made, one
after the other, never one that `apply` was still at. -/
theorem snapshots_whole {i : Nat} (done : a.Completes)
    (r : Run (CellStep projection) (start projection) (tr ++ .act i a :: tr') s) :
    (∀ j, .act j .panicked ∉ tr) ∧ ∀ v, a = .snapshot v → v = content projection tr := by
  obtain ⟨t, r, rest⟩ := r.split
  have inv := inv_run r
  have knows := inv.knows i
  cases rest with
  | cons st _ =>
    cases st with
    | act st =>
      constructor
      · intro j panicked
        have poisoned := inv.poisoned.mpr ⟨j, panicked⟩
        have holds := st.holds done
        generalize t.pc i = p at knows holds
        cases p with
        | locked | applying => cases poisoned.symm.trans knows.1
        | _ => exact holds
      · rintro v rfl
        generalize t.pc i = p at st knows
        cases st with
        | snapshot => exact knows.2

/-- A snapshot after an `apply` that had left anything in the cell for a while. -/
theorem snapshots_whole_torn : ∃ (tr : Trace Nat Unit) (s : Users Nat Unit),
    Run (CellStep counter) (start counter) (tr ++ [.act 0 (.snapshot 1)]) s ∧
    .act 0 (.touch 99) ∈ tr ∧ (∀ j, .act j .panicked ∉ tr) ∧ 1 = content counter tr := by
  let first : EventEnvelope Unit := ⟨1, ⟨.min⟩, .min, 0, none, none, ()⟩
  have r : Run (CellStep counter) (lone .idle ⟨0, false, false⟩ .idle)
      ([.act 0 (.call (.apply first)), .act 0 .lock, .act 0 .begin, .act 0 (.touch 99),
        .act 0 (.applied first), .act 0 (.call .snapshot), .act 0 .lock] ++
        [.act 0 (.snapshot 1)]) (lone .idle ⟨1, false, false⟩ .idle) :=
    .cons (lone_act .call) <|
    .cons (lone_act (.lock rfl rfl)) <|
    .cons (lone_act .begin) <|
    .cons (lone_act .touch) <|
    .cons (lone_act .applied) <|
    .cons (lone_act .call) <|
    .cons (lone_act (.lock rfl rfl)) <|
    .cons (lone_act .snapshot) .nil
  have fresh : start counter = lone .idle ⟨0, false, false⟩ .idle :=
    lone_start ..
  rw [← fresh] at r
  have whole := snapshots_whole (a := .snapshot 1) trivial r
  exact ⟨_, _, r, by simp, whole.1, whole.2 1 rfl⟩

end CherryPit.Replay.WriteCell
