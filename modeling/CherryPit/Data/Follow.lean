import Mathlib.Tactic

/-!
# Following pointers

A loop that looks an element up by its key, collects it and goes on with the key the element points
to, until there is none or it leads nowhere. Nothing is remembered of where the loop has been, so
it ends only if the pointers do not run in circles: `exists_path` asks for a rank that they
decrease. What the loop collects is the `Path` of the first key, and the path is all there is to
know about it: consecutive elements are linked, and the last one leads nowhere.
-/

namespace CherryPit

variable {α β : Type} (find : β → Option α) (next : α → Option β)

/-- The loop, with a bound on its rounds. -/
def follow : Nat → Option β → Option (List α)
  | _, none => some []
  | 0, some _ => none
  | fuel + 1, some key =>
    match find key with
    | none => some []
    | some a => (follow fuel (next a)).map (a :: ·)

/-- What the pointers lead to, in order. -/
inductive Path : Option β → List α → Prop where
  | ended :
    Path none []
  | lost {key} :
    find key = none →
    Path (some key) []
  | step {key a path} :
    find key = some a →
    Path (next a) path →
    Path (some key) (a :: path)

variable {find next} {key : Option β} {path : List α}

/-- Enough rounds give the path. -/
lemma Path.follow (h : Path find next key path) {fuel : Nat} (enough : path.length < fuel) :
    follow find next fuel key = some path := by
  induction h generalizing fuel with
  | ended => cases fuel <;> rfl
  | lost lost =>
    cases fuel with
    | zero => cases enough
    | succ fuel => rw [CherryPit.follow, lost]
  | step found _ ih =>
    cases fuel with
    | zero => cases enough
    | succ fuel =>
      rw [CherryPit.follow, found]
      simp only [ih (Nat.lt_of_succ_lt_succ enough), Option.map_some]

variable (find next) in
/-- Pointers that decrease a rank lead to an end. -/
lemma exists_path (rank : α → Nat)
    (decreases : ∀ {key a key' a'}, find key = some a → next a = some key' → find key' = some a' →
      rank a' < rank a) (key : Option β) :
    ∃ path, Path find next key path ∧
      ∀ k a, key = some k → find k = some a → path.length ≤ rank a + 1 := by
  rcases key with - | key
  · exact ⟨[], .ended, by rintro _ _ ⟨⟩⟩
  rcases found : find key with - | a
  · exact ⟨[], .lost found, by rintro _ _ ⟨⟩ found'; rw [found] at found'; cases found'⟩
  -- the rank of what is found bounds the rounds that are left
  induction n : rank a using Nat.strong_induction_on generalizing key a with
  | _ n ih =>
    suffices h : ∃ path, Path find next (next a) path ∧ path.length ≤ rank a by
      obtain ⟨path, rest, short⟩ := h
      refine ⟨a :: path, .step found rest, ?_⟩
      rintro _ a' ⟨⟩ found'
      rw [found] at found'
      cases found'
      exact Nat.succ_le_succ short
    rcases points : next a with - | key'
    · exact ⟨[], .ended, Nat.zero_le _⟩
    rcases found' : find key' with - | a'
    · exact ⟨[], .lost found', Nat.zero_le _⟩
    have lt : rank a' < rank a := decreases found points found'
    obtain ⟨path, rest, short⟩ := ih (rank a') (n ▸ lt) key' a' found' rfl
    exact ⟨path, rest, (short key' a' rfl found').trans lt⟩

lemma Path.head? {key : β} (h : Path find next (some key) path) : path.head? = find key := by
  cases h with
  | lost lost => rw [lost]; rfl
  | step found _ => rw [found]; rfl

/-- All that is collected was found. -/
lemma Path.found (h : Path find next key path) {a : α} (mem : a ∈ path) :
    ∃ k, find k = some a := by
  induction h with
  | ended => cases mem
  | lost _ => cases mem
  | step found _ ih =>
    rcases List.mem_cons.mp mem with rfl | mem
    · exact ⟨_, found⟩
    · exact ih mem

/-- Each element points to the one after it. -/
lemma Path.linked (h : Path find next key path) :
    path.IsChain fun a a' => (∃ k, find k = some a) ∧ ∃ k, next a = some k ∧ find k = some a' := by
  induction h with
  | ended => exact .nil
  | lost _ => exact .nil
  | @step k a path found rest ih =>
    generalize points : next a = key at rest
    cases rest with
    | ended => exact .singleton a
    | lost _ => exact .singleton a
    | step found' _ => exact .cons_cons ⟨⟨k, found⟩, _, points, found'⟩ ih

/-- The last element leads nowhere. -/
lemma Path.maximal (h : Path find next key path) {a : α} (last : path.getLast? = some a) {k : β}
    (points : next a = some k) : find k = none := by
  induction h with
  | ended => cases last
  | lost _ => cases last
  | @step k' a' path found rest ih =>
    generalize points' : next a' = key at rest ih
    cases rest with
    | ended =>
      cases last
      cases points.symm.trans points'
    | lost lost =>
      cases last
      cases points.symm.trans points'
      exact lost
    | step _ _ =>
      rw [List.getLast?_cons_cons] at last
      exact ih last

end CherryPit
