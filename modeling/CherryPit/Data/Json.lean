import Mathlib.Data.List.Sort
import Mathlib.Data.String.Basic

/-!
# JSON values

Values over a type of numbers. The members of an object are a list; a value whose objects have no
key twice is `Distinct`. Two values are `Alike` if they are equal up to the order of the members at
every level, and `sorted` puts the members of every object in the order of their keys. For distinct
values, being alike is having the same sorted form (`sorted_eq_iff`).
-/

namespace CherryPit

/-- A JSON value. -/
inductive Json (N : Type) where
  | null
  | bool (b : Bool)
  | num (n : N)
  | str (s : String)
  | arr (xs : List (Json N))
  | obj (ms : List (String × Json N))

namespace Json

variable {N M α : Type}

/-- Induction with a hypothesis for each element and for the value of each member. -/
@[elab_as_elim, induction_eliminator]
lemma induction {P : Json N → Prop} (null : P .null) (bool : ∀ b, P (.bool b))
    (num : ∀ n, P (.num n)) (str : ∀ s, P (.str s))
    (arr : ∀ xs, (∀ x ∈ xs, P x) → P (.arr xs))
    (obj : ∀ ms, (∀ m ∈ ms, P m.2) → P (.obj ms)) (v : Json N) : P v := by
  refine @Json.rec N P (fun xs => ∀ x ∈ xs, P x) (fun ms => ∀ m ∈ ms, P m.2) (fun m => P m.2)
    null bool num str arr obj ?_ ?_ ?_ ?_ ?_ v
  · exact fun x mem => absurd mem List.not_mem_nil
  · exact fun x xs ih ihs => List.forall_mem_cons.mpr ⟨ih, ihs⟩
  · exact fun m mem => absurd mem List.not_mem_nil
  · exact fun m ms ih ihs => List.forall_mem_cons.mpr ⟨ih, ihs⟩
  · exact fun k v ih => ih

/-- What to make of each kind of value. -/
structure Algebra (N α : Type) where
  null : α
  bool : Bool → α
  num : N → α
  str : String → α
  arr : List α → α
  obj : List (String × α) → α

mutual

/-- The result of an algebra on a value. -/
def fold (A : Algebra N α) : Json N → α
  | .null => A.null
  | .bool b => A.bool b
  | .num n => A.num n
  | .str s => A.str s
  | .arr xs => A.arr (foldElems A xs)
  | .obj ms => A.obj (foldMembers A ms)

/-- The results on elements. -/
def foldElems (A : Algebra N α) : List (Json N) → List α
  | [] => []
  | x :: xs => fold A x :: foldElems A xs

/-- The results on the values of members. -/
def foldMembers (A : Algebra N α) : List (String × Json N) → List (String × α)
  | [] => []
  | (k, v) :: ms => (k, fold A v) :: foldMembers A ms

end

/-- Members with their values replaced. -/
def mapMembers {β γ : Type} (f : β → γ) (ms : List (String × β)) : List (String × γ) :=
  ms.map fun m => (m.1, f m.2)

section Fold

variable (A : Algebra N α)

lemma foldElems_eq (xs : List (Json N)) : foldElems A xs = xs.map (fold A) := by
  induction xs with
  | nil => rfl
  | cons x xs ih => rw [foldElems, ih, List.map_cons]

lemma foldMembers_eq (ms : List (String × Json N)) :
    foldMembers A ms = mapMembers (fold A) ms := by
  induction ms with
  | nil => rfl
  | cons m ms ih => exact congrArg _ ih

lemma fold_arr (xs : List (Json N)) : fold A (.arr xs) = A.arr (xs.map (fold A)) := by
  rw [fold, foldElems_eq]

lemma fold_obj (ms : List (String × Json N)) :
    fold A (.obj ms) = A.obj (mapMembers (fold A) ms) := by
  rw [fold, foldMembers_eq]

end Fold

section Members

variable {β γ : Type} {f : β → γ} {ms ns : List (String × β)} {k : String}

@[simp] lemma mapMembers_keys (f : β → γ) (ms : List (String × β)) :
    (mapMembers f ms).map Prod.fst = ms.map Prod.fst := by
  simp [mapMembers, Function.comp_def]

lemma mapMembers_mapMembers {δ : Type} (g : γ → δ) (f : β → γ) (ms : List (String × β)) :
    mapMembers g (mapMembers f ms) = mapMembers (g ∘ f) ms :=
  List.map_map

lemma mapMembers_congr {g : β → γ} (h : ∀ m ∈ ms, f m.2 = g m.2) :
    mapMembers f ms = mapMembers g ms :=
  List.map_congr_left fun m hm => Prod.ext rfl (h m hm)

lemma mem_mapMembers {c : γ} : (k, c) ∈ mapMembers f ms ↔ ∃ b, (k, b) ∈ ms ∧ f b = c := by
  simp [mapMembers]

/-- Under distinct keys, a key has one value. -/
lemma value_unique (nodup : (ms.map Prod.fst).Nodup) {b c : β} (hb : (k, b) ∈ ms)
    (hc : (k, c) ∈ ms) : b = c :=
  congrArg Prod.snd (List.inj_on_of_nodup_map nodup hb hc rfl)

/-- The order of the keys. -/
def KeyLe (m n : String × β) : Prop := m.1 ≤ n.1

instance : DecidableRel (@KeyLe β) := fun m n => inferInstanceAs (Decidable (m.1 ≤ n.1))

instance : Std.Total (@KeyLe β) := ⟨fun m n => le_total m.1 n.1⟩

instance : IsTrans (String × β) KeyLe := ⟨fun _ _ _ => le_trans⟩

/-- Members in the order of their keys. -/
def sortMembers (ms : List (String × β)) : List (String × β) :=
  ms.insertionSort KeyLe

lemma sortMembers_perm (ms : List (String × β)) : (sortMembers ms).Perm ms :=
  List.perm_insertionSort ..

lemma sortMembers_pairwise (ms : List (String × β)) : (sortMembers ms).Pairwise KeyLe :=
  List.pairwise_insertionSort ..

lemma mem_sortMembers {m : String × β} : m ∈ sortMembers ms ↔ m ∈ ms :=
  (sortMembers_perm ms).mem_iff

lemma sortMembers_nodup (nodup : (ms.map Prod.fst).Nodup) : ((sortMembers ms).map Prod.fst).Nodup :=
  ((sortMembers_perm ms).map Prod.fst).nodup_iff.mpr nodup

/-- With distinct keys there is one way to order the members. -/
lemma eq_sortMembers (nodup : (ms.map Prod.fst).Nodup) (perm : ns.Perm ms)
    (ordered : ns.Pairwise KeyLe) : ns = sortMembers ms := by
  refine List.Perm.eq_of_pairwise ?_ ordered (sortMembers_pairwise ms)
    (perm.trans (sortMembers_perm ms).symm)
  intro m n hm hn le ge
  exact List.inj_on_of_nodup_map nodup (perm.mem_iff.mp hm) (mem_sortMembers.mp hn)
    (le_antisymm le ge)

lemma mapMembers_sortMembers (f : β → γ) (nodup : (ms.map Prod.fst).Nodup) :
    mapMembers f (sortMembers ms) = sortMembers (mapMembers f ms) := by
  refine eq_sortMembers (by simpa using nodup) ((sortMembers_perm ms).map _) ?_
  exact List.pairwise_map.mpr (sortMembers_pairwise ms)

end Members

/-- No object has a key twice. -/
inductive Distinct : Json N → Prop where
  | null : Distinct .null
  | bool {b} : Distinct (.bool b)
  | num {n} : Distinct (.num n)
  | str {s} : Distinct (.str s)
  | arr {xs} : (∀ x ∈ xs, Distinct x) → Distinct (.arr xs)
  | obj {ms} : (ms.map Prod.fst).Nodup → (∀ m ∈ ms, Distinct m.2) → Distinct (.obj ms)

/-- Equality up to the order of the members: objects have the same keys, and alike values under
each of them. -/
inductive Alike : Json N → Json N → Prop where
  | null : Alike .null .null
  | bool {b} : Alike (.bool b) (.bool b)
  | num {n} : Alike (.num n) (.num n)
  | str {s} : Alike (.str s) (.str s)
  | arr {xs ys} :
    xs.length = ys.length →
    (∀ (i : Nat) x y, xs[i]? = some x → ys[i]? = some y → Alike x y) →
    Alike (.arr xs) (.arr ys)
  | obj {ms ns} :
    (∀ k, k ∈ ms.map Prod.fst ↔ k ∈ ns.map Prod.fst) →
    (∀ k v w, (k, v) ∈ ms → (k, w) ∈ ns → Alike v w) →
    Alike (.obj ms) (.obj ns)

/-- The value with its numbers replaced. -/
def map (f : N → M) : Json N → Json M :=
  fold ⟨.null, .bool, fun n => .num (f n), .str, .arr, .obj⟩

/-- The value with its members in the order of their keys at every level. -/
def sorted : Json N → Json N :=
  fold ⟨.null, .bool, .num, .str, .arr, fun ms => .obj (sortMembers ms)⟩

section Equations

variable (f : N → M)

@[simp] lemma map_null : map f .null = .null := rfl

@[simp] lemma map_bool (b : Bool) : map f (.bool b) = .bool b := rfl

@[simp] lemma map_num (n : N) : map f (.num n) = .num (f n) := rfl

@[simp] lemma map_str (s : String) : map f (.str s) = .str s := rfl

@[simp] lemma map_arr (xs : List (Json N)) : map f (.arr xs) = .arr (xs.map (map f)) :=
  fold_arr ..

@[simp] lemma map_obj (ms : List (String × Json N)) :
    map f (.obj ms) = .obj (mapMembers (map f) ms) :=
  fold_obj ..

@[simp] lemma sorted_null : sorted (.null : Json N) = .null := rfl

@[simp] lemma sorted_bool (b : Bool) : sorted (.bool b : Json N) = .bool b := rfl

@[simp] lemma sorted_num (n : N) : sorted (.num n) = .num n := rfl

@[simp] lemma sorted_str (s : String) : sorted (.str s : Json N) = .str s := rfl

@[simp] lemma sorted_arr (xs : List (Json N)) : sorted (.arr xs) = .arr (xs.map sorted) :=
  fold_arr ..

@[simp] lemma sorted_obj (ms : List (String × Json N)) :
    sorted (.obj ms) = .obj (sortMembers (mapMembers sorted ms)) :=
  fold_obj ..

end Equations

variable {v a b : Json N}

lemma Distinct.sorted (h : v.Distinct) : v.sorted.Distinct := by
  induction h with
  | null | bool | num | str => constructor
  | arr _ ih =>
    rw [sorted_arr]
    refine .arr (List.forall_mem_map.mpr ih)
  | @obj ms nodup _ ih =>
    rw [sorted_obj]
    refine .obj (sortMembers_nodup (by simpa using nodup)) ?_
    rintro ⟨k, c⟩ mem
    obtain ⟨w, hw, rfl⟩ := mem_mapMembers.mp (mem_sortMembers.mp mem)
    exact ih _ hw

/-- A value is alike its sorted form. -/
lemma Distinct.sorted_alike (h : v.Distinct) : v.sorted.Alike v := by
  induction h with
  | null | bool | num | str => constructor
  | @arr xs _ ih =>
    rw [sorted_arr]
    refine .arr (List.length_map _) ?_
    intro i x y hx hy
    rw [List.getElem?_map, hy] at hx
    cases hx
    exact ih y (List.mem_of_getElem? hy)
  | @obj ms nodup _ ih =>
    rw [sorted_obj]
    refine .obj ?_ ?_
    · intro k
      rw [((sortMembers_perm _).map Prod.fst).mem_iff, mapMembers_keys]
    · intro k c w mem hw
      obtain ⟨u, hu, rfl⟩ := mem_mapMembers.mp (mem_sortMembers.mp mem)
      cases value_unique nodup hu hw
      exact ih _ hu

lemma Alike.sorted_eq (h : a.Alike b) (ha : a.Distinct) (hb : b.Distinct) :
    a.sorted = b.sorted := by
  induction h with
  | null | bool | num | str => rfl
  | @arr xs ys len _ ih =>
    obtain _ | _ | _ | _ | ha := ha
    obtain _ | _ | _ | _ | hb := hb
    rw [sorted_arr, sorted_arr]
    refine congrArg _ (List.ext_getElem (by simpa using len) fun i hi hi' => ?_)
    rw [List.getElem_map, List.getElem_map]
    rw [List.length_map] at hi hi'
    exact ih i _ _ (List.getElem?_eq_getElem hi) (List.getElem?_eq_getElem hi')
      (ha _ (List.getElem_mem hi)) (hb _ (List.getElem_mem hi'))
  | @obj ms ns keys _ ih =>
    obtain _ | _ | _ | _ | _ | ⟨nodup, ha⟩ := ha
    obtain _ | _ | _ | _ | _ | ⟨nodup', hb⟩ := hb
    rw [sorted_obj, sorted_obj]
    refine congrArg _ (eq_sortMembers (by simpa using nodup') ?_ (sortMembers_pairwise _))
    refine (sortMembers_perm _).trans ?_
    -- without a key twice, the members are determined by which there are
    have nodup_map := fun {l : List (String × Json N)} (h : (l.map Prod.fst).Nodup) =>
      List.Nodup.of_map Prod.fst ((mapMembers_keys sorted l).symm ▸ h)
    refine (List.perm_ext_iff_of_nodup (nodup_map nodup) (nodup_map nodup')).mpr ?_
    rintro ⟨k, c⟩
    rw [mem_mapMembers, mem_mapMembers]
    constructor
    · rintro ⟨v, hv, rfl⟩
      obtain ⟨⟨_, w⟩, hw, rfl⟩ := List.mem_map.mp ((keys k).mp (List.mem_map_of_mem hv))
      exact ⟨w, hw, (ih _ v w hv hw (ha _ hv) (hb _ hw)).symm⟩
    · rintro ⟨w, hw, rfl⟩
      obtain ⟨⟨_, v⟩, hv, rfl⟩ := List.mem_map.mp ((keys k).mpr (List.mem_map_of_mem hw))
      exact ⟨v, hv, ih _ v w hv hw (ha _ hv) (hb _ hw)⟩

lemma alike_of_sorted_eq (ha : a.Distinct) (hb : b.Distinct) (h : a.sorted = b.sorted) :
    a.Alike b := by
  induction ha generalizing b with
  | null =>
    cases hb with
    | null => exact .null
    | _ => simp at h
  | bool =>
    cases hb with
    | bool =>
      cases h
      exact .bool
    | _ => simp at h
  | num =>
    cases hb with
    | num =>
      cases h
      exact .num
    | _ => simp at h
  | str =>
    cases hb with
    | str =>
      cases h
      exact .str
    | _ => simp at h
  | @arr xs _ ih =>
    cases hb with
    | @arr ys hb =>
      rw [sorted_arr, sorted_arr] at h
      have eq : xs.map sorted = ys.map sorted := Json.arr.inj h
      refine .arr (by simpa using congrArg List.length eq) ?_
      intro i x y hx hy
      have at_i := congrArg (fun l => l[i]?) eq
      simp only [List.getElem?_map, hx, hy, Option.map_some, Option.some.injEq] at at_i
      exact ih x (List.mem_of_getElem? hx) (hb y (List.mem_of_getElem? hy)) at_i
    | _ => simp at h
  | @obj ms _ _ ih =>
    cases hb with
    | @obj ns nodup hb =>
      rw [sorted_obj, sorted_obj] at h
      have perm : (mapMembers sorted ms).Perm (mapMembers sorted ns) :=
        (sortMembers_perm _).symm.trans (Json.obj.inj h ▸ sortMembers_perm _)
      refine .obj ?_ ?_
      · intro k
        rw [← mapMembers_keys sorted ms, ← mapMembers_keys sorted ns, (perm.map Prod.fst).mem_iff]
      · intro k v w hv hw
        obtain ⟨u, hu, eq⟩ := mem_mapMembers.mp (perm.mem_iff.mp (mem_mapMembers.mpr ⟨v, hv, rfl⟩))
        cases value_unique nodup hu hw
        exact ih _ hv (hb _ hw) eq.symm
    | _ => simp at h

/-- Values without a key twice are alike if and only if their sorted forms are equal. -/
theorem sorted_eq_iff (ha : a.Distinct) (hb : b.Distinct) : a.sorted = b.sorted ↔ a.Alike b :=
  ⟨alike_of_sorted_eq ha hb, fun h => h.sorted_eq ha hb⟩

lemma eq_of_map_eq {β γ : Type} {g : β → γ} {xs ys : List β}
    (inj : ∀ x ∈ xs, ∀ y, g x = g y → x = y) (h : xs.map g = ys.map g) : xs = ys := by
  refine List.ext_getElem (by simpa using congrArg List.length h) fun i hi hi' => ?_
  have at_i := congrArg (fun l => l[i]?) h
  simp only [List.getElem?_map, List.getElem?_eq_getElem hi, List.getElem?_eq_getElem hi',
    Option.map_some, Option.some.injEq] at at_i
  exact inj _ (List.getElem_mem hi) _ at_i

lemma map_injective {f : N → M} (inj : f.Injective) : (map f).Injective := by
  intro a
  induction a with
  | null | bool | num | str =>
    intro b h
    cases b <;> simp_all [inj.eq_iff]
  | arr xs ih =>
    intro b h
    cases b with
    | arr ys =>
      rw [map_arr, map_arr] at h
      exact congrArg _ (eq_of_map_eq (fun x hx y => @ih x hx y) (Json.arr.inj h))
    | _ => simp at h
  | obj ms ih =>
    intro b h
    cases b with
    | obj ns =>
      rw [map_obj, map_obj] at h
      refine congrArg _ (eq_of_map_eq (fun m hm n e => ?_) (Json.obj.inj h))
      obtain ⟨key, value⟩ := Prod.mk.inj e
      exact Prod.ext key (ih m hm value)
    | _ => simp at h

end Json

end CherryPit
