import Mathlib.Data.List.AList
import Mathlib.Data.PEquiv
import Mathlib.Tactic

/-!
# Aliases of keys

A pass over a map that enters what stands under a key under an alias of the key as well, unless
something stands there already. The aliases are collected while the map is iterated, in an order
that is not known, and entered afterwards. If no two keys have the same alias, which is what a
partial equivalence says, the order makes no difference (`lookup_addAliases`).
-/

namespace CherryPit

/-- A hash map. -/
abbrev HashMap (K V : Type) := AList fun _ : K => V

/-- An order in which maps are iterated. -/
structure IterOrder (K V : Type) where
  entries : HashMap K V → List (Σ _ : K, V)
  perm : ∀ map, (entries map).Perm map.entries

variable {K V : Type} [DecidableEq K]

/-- Rust `map.entry(key).or_insert(value)`. -/
def orInsert (map : HashMap K V) (entry : K × V) : HashMap K V :=
  match map.lookup entry.1 with
  | some _ => map
  | none => map.insert entry.1 entry.2

/-- The values of these entries under the aliases of their keys, for aliases that are not there. -/
def collectAliases (aka : K → Option K) (map : HashMap K V) (entries : List (Σ _ : K, V)) :
    List (K × V) :=
  entries.filterMap fun entry => (aka entry.1).bind fun key =>
    if (map.lookup key).isSome then none else some (key, entry.2)

/-- One pass. -/
def addAliases (order : IterOrder K V) (aka : K → Option K) (map : HashMap K V) : HashMap K V :=
  (collectAliases aka map (order.entries map)).foldl orInsert map

variable {map : HashMap K V} {key : K}

lemma lookup_orInsert (entry : K × V) :
    (orInsert map entry).lookup key = (map.lookup key).or ([entry].lookup key) := by
  unfold orInsert
  by_cases same : key = entry.1
  · rcases there : map.lookup entry.1 with _ | value
    · rw [same, there, AList.lookup_insert, List.lookup_cons_self, Option.none_or]
    · rw [same, there, Option.some_or]
  · have other : [entry].lookup key = none := by
      rw [List.lookup_cons, beq_eq_false_iff_ne.mpr same]
      rfl
    rcases map.lookup entry.1 with _ | value
    · rw [AList.lookup_insert_ne same, other, Option.or_none]
    · rw [other, Option.or_none]

lemma lookup_foldl_orInsert (entries : List (K × V)) :
    (entries.foldl orInsert map).lookup key = (map.lookup key).or (entries.lookup key) := by
  induction entries generalizing map with
  | nil => rw [List.foldl_nil, List.lookup_nil, Option.or_none]
  | cons entry entries ih =>
    rw [List.foldl_cons, ih, lookup_orInsert, Option.or_assoc, ← List.lookup_append,
      List.singleton_append]

/-- What is collected for an alias is the value of the one key that has it. -/
lemma lookup_collectAliases (aka : K ≃. K) (free : map.lookup key = none)
    (entries : List (Σ _ : K, V)) :
    (collectAliases aka map entries).lookup key =
      (aka.symm key).bind fun original => entries.dlookup original := by
  induction entries with
  | nil => rcases aka.symm key with _ | original <;> rfl
  | cons entry entries ih =>
    obtain ⟨original, value⟩ := entry
    by_cases here : aka original = some key
    · have back : aka.symm key = some original := (aka.eq_some_iff).mpr here
      have kept : collectAliases aka map (⟨original, value⟩ :: entries) =
          (key, value) :: collectAliases aka map entries := by
        simp [collectAliases, here, free]
      rw [kept, List.lookup_cons_self, back, Option.bind_some, List.dlookup_cons_eq]
    · have skip : (collectAliases aka map (⟨original, value⟩ :: entries)).lookup key =
          (collectAliases aka map entries).lookup key := by
        rcases other : aka original with _ | key'
        · simp [collectAliases, other]
        · have ne : key ≠ key' := fun same => here (same ▸ other)
          by_cases there : (map.lookup key').isSome
          · simp [collectAliases, other, there]
          · have kept : collectAliases aka map (⟨original, value⟩ :: entries) =
                (key', value) :: collectAliases aka map entries := by
              simp [collectAliases, other, there]
            rw [kept, List.lookup_cons, beq_eq_false_iff_ne.mpr ne]
      rw [skip, ih]
      rcases back : aka.symm key with _ | original'
      · rfl
      · have ne : original' ≠ original := by
          rintro rfl
          exact here (aka.eq_some_iff.mp back)
        rw [Option.bind_some, Option.bind_some, List.dlookup_cons_ne _ _ ne]

/-- After a pass a key has what it had, or else what the key has of which it is the alias. -/
theorem lookup_addAliases (order : IterOrder K V) (aka : K ≃. K) (map : HashMap K V) (key : K) :
    (addAliases order aka map).lookup key =
      (map.lookup key).or ((aka.symm key).bind fun original => map.lookup original) := by
  rw [addAliases, lookup_foldl_orInsert]
  rcases free : map.lookup key with _ | value
  · have same : ∀ original, (order.entries map).dlookup original = map.lookup original := by
      intro original
      have nodup := (List.perm_nodupKeys (order.perm map)).mpr map.nodupKeys
      exact List.perm_dlookup original nodup (order.perm map)
    rw [lookup_collectAliases aka free]
    simp only [same]
  · rw [Option.some_or, Option.some_or]

end CherryPit
