import Mathlib.Tactic

/-!
# Cutting a list at a separator

`splitOnce` cuts at the first place where a separator stands, `rsplitOnce` at the last place where
an element does. For a single element each is described by the parts it gives: they make up the
list, and the one that was searched does not have the element (`splitOnce_singleton`,
`rsplitOnce_some`). Parts that are joined with a separator keep what they have
(`infix_intercalate`), and fewer parts make up less (`intercalate_sublist`). The parts of
`List.splitOn` have what the list has but the separator (`mem_of_mem_splitOn`). Lists that are
joined with the separator are cut one by one (`splitOn_intercalate_flatMap`), and what encloses a
list goes to its first and its last part (`splitOn_enclosed`).
-/

namespace CherryPit

/-! ## Joining -/

section Joining

variable {α : Type} {sep l r : List α} {c : α}

/-- What begins with the rest of a list has its first element. -/
lemma mem_of_prefix_cons {part : List α} (ne : part ≠ []) (h : part <+: c :: r) : c ∈ part := by
  obtain ⟨first, part, rfl⟩ := List.exists_cons_of_ne_nil ne
  rw [(List.cons_prefix_cons.mp h).1]
  exact List.mem_cons_self

/-- What does not have the separator does not reach over it. -/
lemma infix_append_cons {part : List α} (ne : part ≠ []) (absent : c ∉ part) :
    part <:+: l ++ c :: r ↔ part <:+: l ∨ part <:+: r := by
  constructor
  · intro h
    rcases List.infix_append_iff_ne_nil.mp h with left | right | ⟨first, last, -, some, rfl, -, h⟩
    · exact .inl left
    · rcases List.infix_cons_iff.mp right with h | right
      · exact absurd (mem_of_prefix_cons ne h) absent
      · exact .inr right
    · exact absurd (List.mem_append_right first (mem_of_prefix_cons some h)) absent
  · rintro (left | right)
    · exact List.infix_append_of_infix_left left
    · exact List.infix_append_of_infix_right (List.infix_cons right)

lemma infix_intercalate {part : List α} {parts : List (List α)} (ne : part ≠ [])
    (absent : c ∉ part) :
    part <:+: [c].intercalate parts ↔ ∃ whole ∈ parts, part <:+: whole := by
  induction parts with
  | nil =>
    rw [List.intercalate_nil, List.infix_nil]
    simp [ne]
  | cons first parts ih =>
    rcases parts with _ | ⟨second, parts⟩
    · rw [List.intercalate_singleton]
      simp
    · rw [List.intercalate_cons_cons, List.append_assoc, List.singleton_append,
        infix_append_cons ne absent, ih]
      simp only [List.mem_cons, exists_eq_or_imp]

lemma mem_intercalate {parts : List (List α)} {x : α} (ne : x ≠ c) :
    x ∈ [c].intercalate parts ↔ ∃ part ∈ parts, x ∈ part := by
  have absent : c ∉ [x] := fun mem => ne (List.mem_singleton.mp mem).symm
  rw [← List.singleton_infix_iff, infix_intercalate (List.cons_ne_nil x []) absent]
  simp only [List.singleton_infix_iff]

lemma intercalate_sublist {less parts : List (List α)} (h : less.Sublist parts) :
    (sep.intercalate less).Sublist (sep.intercalate parts) := by
  induction h with
  | slnil => exact List.Sublist.refl _
  | @cons less parts part h ih =>
    rcases parts with _ | ⟨second, parts⟩
    · rw [List.sublist_nil.mp h]
      exact List.nil_sublist _
    · rw [List.intercalate_cons_cons]
      exact ih.trans (List.sublist_append_right _ _)
  | @cons_cons less parts part h ih =>
    rcases less with _ | ⟨second, less⟩
    · rcases parts with _ | ⟨third, parts⟩
      · exact List.Sublist.refl _
      · rw [List.intercalate_singleton, List.intercalate_cons_cons, List.append_assoc]
        exact List.sublist_append_left _ _
    · rcases parts with _ | ⟨third, parts⟩
      · cases h
      · rw [List.intercalate_cons_cons, List.intercalate_cons_cons]
        exact ih.append_left _

lemma append_intercalate (first : List α) (parts : List (List α)) :
    l ++ sep.intercalate (first :: parts) = sep.intercalate ((l ++ first) :: parts) := by
  rcases parts with _ | ⟨second, parts⟩
  · rw [List.intercalate_singleton, List.intercalate_singleton]
  · rw [List.intercalate_cons_cons, List.intercalate_cons_cons]
    simp only [List.append_assoc]

lemma intercalate_append (parts : List (List α)) (last : List α) :
    sep.intercalate (parts ++ [last]) ++ r = sep.intercalate (parts ++ [last ++ r]) := by
  induction parts with
  | nil =>
    rw [List.nil_append, List.nil_append, List.intercalate_singleton, List.intercalate_singleton]
  | cons first parts ih =>
    rcases parts with _ | ⟨second, parts⟩
    · show sep.intercalate [first, last] ++ r = sep.intercalate [first, last ++ r]
      rw [List.intercalate_cons_cons, List.intercalate_cons_cons, List.intercalate_singleton,
        List.intercalate_singleton, List.append_assoc]
    · rw [List.cons_append, List.cons_append] at ih ⊢
      rw [List.cons_append, List.cons_append, List.intercalate_cons_cons,
        List.intercalate_cons_cons, List.append_assoc, ih]

end Joining

/-! ## Cutting -/

variable {α : Type} [DecidableEq α]

/-- The parts before and after the first place where `sep` stands. -/
def splitOnce (sep : List α) : List α → Option (List α × List α)
  | [] => if sep = [] then some ([], []) else none
  | x :: xs =>
    if sep <+: x :: xs then some ([], (x :: xs).drop sep.length)
    else (splitOnce sep xs).map fun parts => (x :: parts.1, parts.2)

/-- The parts before and after the last place where `c` stands. -/
def rsplitOnce (c : α) (xs : List α) : Option (List α × List α) :=
  (splitOnce [c] xs.reverse).map fun parts => (parts.2.reverse, parts.1.reverse)

variable {sep xs l r : List α} {c : α}

lemma splitOnce_eq (h : splitOnce sep xs = some (l, r)) : xs = l ++ (sep ++ r) := by
  induction xs generalizing l with
  | nil =>
    rw [splitOnce] at h
    split at h
    next none =>
      cases h
      rw [none]
      rfl
    next => cases h
  | cons x xs ih =>
    rw [splitOnce] at h
    split at h
    next here =>
      cases h
      obtain ⟨r, eq⟩ := here
      rw [← eq, List.drop_left]
      rfl
    next =>
      obtain ⟨⟨l, r⟩, rest, eq⟩ := Option.map_eq_some_iff.mp h
      cases eq
      rw [ih rest]
      rfl

/-- The first place is where the separator's first element is not seen before. -/
lemma splitOnce_append (h : c ∉ l) : splitOnce (c :: sep) (l ++ (c :: sep ++ r)) = some (l, r) := by
  induction l with
  | nil =>
    have here : c :: sep <+: c :: (sep ++ r) := List.prefix_append (c :: sep) r
    have rest : (c :: (sep ++ r)).drop (c :: sep).length = r :=
      List.drop_left
    show splitOnce (c :: sep) (c :: (sep ++ r)) = some ([], r)
    rw [splitOnce, if_pos here, rest]
  | cons x l ih =>
    obtain ⟨ne, absent⟩ := List.ne_and_not_mem_of_not_mem_cons h
    have away : ¬ c :: sep <+: x :: (l ++ (c :: sep ++ r)) :=
      fun here => ne (List.cons_prefix_cons.mp here).1
    rw [List.cons_append, splitOnce, if_neg away, ih absent]
    rfl

lemma not_mem_of_splitOnce (h : splitOnce [c] xs = some (l, r)) : c ∉ l := by
  induction xs generalizing l with
  | nil => cases h
  | cons x xs ih =>
    rw [splitOnce] at h
    split at h
    next =>
      cases h
      exact List.not_mem_nil
    next away =>
      obtain ⟨⟨l, r⟩, rest, eq⟩ := Option.map_eq_some_iff.mp h
      cases eq
      have ne : c ≠ x := fun eq => away ⟨xs, congrArg (· :: xs) eq⟩
      exact List.not_mem_cons_of_ne_of_not_mem ne (ih rest)

lemma splitOnce_singleton : splitOnce [c] xs = some (l, r) ↔ xs = l ++ c :: r ∧ c ∉ l := by
  constructor
  · intro h
    exact ⟨splitOnce_eq h, not_mem_of_splitOnce h⟩
  · rintro ⟨rfl, absent⟩
    exact splitOnce_append absent

lemma splitOnce_eq_none : splitOnce [c] xs = none ↔ c ∉ xs := by
  constructor
  · intro h mem
    obtain ⟨l, r, rfl, absent⟩ := List.eq_append_cons_of_mem mem
    cases h.symm.trans (splitOnce_append absent)
  · intro absent
    rcases h : splitOnce [c] xs with - | ⟨l, r⟩
    · rfl
    · rw [splitOnce_eq h] at absent
      exact absurd (List.mem_append_right l (List.mem_cons_self)) absent

lemma rsplitOnce_some : rsplitOnce c xs = some (l, r) ↔ xs = l ++ c :: r ∧ c ∉ r := by
  have parts : rsplitOnce c xs = some (l, r) ↔
      splitOnce [c] xs.reverse = some (r.reverse, l.reverse) := by
    rw [rsplitOnce, Option.map_eq_some_iff]
    constructor
    · rintro ⟨⟨l', r'⟩, h, eq⟩
      cases eq
      rw [List.reverse_reverse, List.reverse_reverse, h]
    · intro h
      exact ⟨_, h, by rw [List.reverse_reverse, List.reverse_reverse]⟩
  rw [parts, splitOnce_singleton, List.mem_reverse, List.reverse_eq_iff]
  simp

lemma rsplitOnce_eq_none : rsplitOnce c xs = none ↔ c ∉ xs := by
  rw [rsplitOnce, Option.map_eq_none_iff, splitOnce_eq_none, List.mem_reverse]

/-! ## Cutting everywhere -/

lemma mem_of_mem_splitOn {part : List α} {x : α} (h : part ∈ xs.splitOn c) (mem : x ∈ part)
    (ne : x ≠ c) : x ∈ xs := by
  have whole := (mem_intercalate ne).mpr ⟨part, h, mem⟩
  rwa [List.intercalate_splitOn] at whole

lemma not_mem_of_mem_splitOn {part : List α} (h : part ∈ xs.splitOn c) : c ∉ part := by
  induction xs generalizing part with
  | nil =>
    rw [List.splitOn_nil, List.mem_singleton] at h
    rw [h]
    exact List.not_mem_nil
  | cons x xs ih =>
    obtain ⟨head, tail, eq⟩ := List.exists_cons_of_ne_nil (List.splitOn_ne_nil c xs)
    rw [List.splitOn_cons_eq_if_modifyHead, eq] at h
    rw [eq] at ih
    split at h
    next =>
      rcases List.mem_cons.mp h with rfl | h
      · exact List.not_mem_nil
      · exact ih h
    next other =>
      rcases List.mem_cons.mp h with rfl | h
      · refine List.not_mem_cons_of_ne_of_not_mem ?_ (ih List.mem_cons_self)
        rintro rfl
        exact other (beq_self_eq_true c)
      · exact ih (List.mem_cons_of_mem _ h)

/-- A part has nothing that the list does not have. -/
lemma subset_of_mem_splitOn {part : List α} (h : part ∈ xs.splitOn c) : part ⊆ xs := by
  intro x mem
  refine mem_of_mem_splitOn h mem ?_
  rintro rfl
  exact not_mem_of_mem_splitOn h mem

lemma splitOn_intercalate_flatMap {parts : List (List α)} (ne : parts ≠ []) :
    ([c].intercalate parts).splitOn c = parts.flatMap fun part => part.splitOn c := by
  induction parts with
  | nil => exact absurd rfl ne
  | cons first parts ih =>
    rcases parts with _ | ⟨second, parts⟩
    · rw [List.intercalate_singleton, List.flatMap_singleton]
    · rw [List.intercalate_cons_cons, List.append_assoc, List.singleton_append,
        List.splitOn_append_cons_self, ih (List.cons_ne_nil _ _)]
      rfl

/-- What is put around a list without the separator goes to its first and its last part. -/
lemma splitOn_enclosed {first last : List α} {inner : List (List α)} (left : c ∉ l) (right : c ∉ r)
    (cut : xs.splitOn c = first :: (inner ++ [last])) :
    (l ++ (xs ++ r)).splitOn c = (l ++ first) :: (inner ++ [last ++ r]) := by
  have parts : ∀ part ∈ first :: (inner ++ [last]), c ∉ part := by
    intro part mem
    rw [← cut] at mem
    exact not_mem_of_mem_splitOn mem
  have whole : l ++ (xs ++ r) = [c].intercalate ((l ++ first) :: (inner ++ [last ++ r])) := by
    have joined : [c].intercalate (xs.splitOn c) = xs := List.intercalate_splitOn c
    rw [cut] at joined
    rw [← joined, ← append_intercalate, ← List.cons_append, ← List.cons_append,
      intercalate_append]
  rw [whole]
  refine List.splitOn_intercalate c ?_ (List.cons_ne_nil _ _)
  intro part mem
  simp only [List.mem_cons, List.mem_append, List.not_mem_nil, or_false] at mem parts
  rcases mem with rfl | mem | rfl
  · exact List.not_mem_append left (parts first (.inl rfl))
  · exact parts part (.inr (.inl mem))
  · exact List.not_mem_append (parts last (.inr (.inr rfl))) right

end CherryPit
