import CherryPit.Data.JsonText

/-!
# Maps and texts of `serde_json`

The maps of `serde_json` are ordered by key and have each key once: `insert` replaces. `toText` is
the compact text of a value, with the escapes that `serde_json` writes. A reader of the text has the
value back, whatever strings are in it.
-/

namespace CherryPit.SerdeJson

open Json (Text parseChar parseEscape parseUnicode hex4)

variable {N : Type} {α : Type*}

/-! ## Maps -/

/-- The members with `k` at its place, and without what was there. -/
def insertMember (k : String) (v : α) (ms : List (String × α)) : List (String × α) :=
  ms.filter (·.1 < k) ++ (k, v) :: ms.filter (k < ·.1)

lemma insertMember_ordered (k : String) (v : α) {ms : List (String × α)}
    (ordered : ms.Pairwise (·.1 < ·.1)) : (insertMember k v ms).Pairwise (·.1 < ·.1) := by
  refine List.pairwise_append.mpr ⟨ordered.filter _, ?_, ?_⟩
  · refine List.pairwise_cons.mpr ⟨fun m mem => ?_, ordered.filter _⟩
    exact of_decide_eq_true (List.mem_filter.mp mem).2
  · intro m mem n mem'
    have below : m.1 < k := of_decide_eq_true (List.mem_filter.mp mem).2
    rcases List.mem_cons.mp mem' with rfl | mem'
    · exact below
    · exact below.trans (of_decide_eq_true (List.mem_filter.mp mem').2)

lemma lookup_filter (p : String → Bool) (k : String) (ms : List (String × α)) :
    (ms.filter fun m => p m.1).lookup k = if p k then ms.lookup k else none := by
  induction ms with
  | nil => simp
  | cons m ms ih =>
    obtain ⟨k', v⟩ := m
    by_cases same : k = k'
    · cases keep : p k' with
      | true => simp [keep, same]
      | false => simpa [keep, same] using ih
    · have skip : (k == k') = false := beq_false_of_ne same
      cases keep : p k' with
      | true => simp [List.lookup_cons, keep, skip, ih]
      | false => simp [List.lookup_cons, keep, skip, ih]

lemma lookup_insertMember (k k' : String) (v : α) (ms : List (String × α)) :
    (insertMember k v ms).lookup k' = if k' = k then some v else ms.lookup k' := by
  rw [insertMember, List.lookup_append, List.lookup_cons, lookup_filter (· < k),
    lookup_filter (k < ·)]
  rcases lt_trichotomy k' k with lt | rfl | gt
  · rw [beq_false_of_ne lt.ne]
    simp [lt, lt.ne, lt.not_gt]
  · simp
  · rw [beq_false_of_ne gt.ne']
    simp [gt, gt.ne', gt.not_gt]

lemma lookup_mapMembers {β γ : Type} (f : β → γ) (k : String) (ms : List (String × β)) :
    (Json.mapMembers f ms).lookup k = (ms.lookup k).map f := by
  induction ms with
  | nil => rfl
  | cons m ms ih =>
    obtain ⟨k', b⟩ := m
    rw [Json.mapMembers, List.map_cons, List.lookup_cons, List.lookup_cons]
    cases k == k' with
    | true => rfl
    | false => exact ih

/-- A `serde_json::Map`. -/
structure Map (N : Type) where
  members : List (String × Json N)
  ordered : members.Pairwise (·.1 < ·.1)

namespace Map

def new : Map N := ⟨[], .nil⟩

def insert (map : Map N) (k : String) (v : Json N) : Map N :=
  ⟨insertMember k v map.members, insertMember_ordered k v map.ordered⟩

def get (map : Map N) (k : String) : Option (Json N) := map.members.lookup k

lemma get_insert (map : Map N) (k k' : String) (v : Json N) :
    (map.insert k v).get k' = if k' = k then some v else map.get k' :=
  lookup_insertMember ..

end Map

/-! ## Texts -/

/-- The text of a character within a string. -/
def escape (c : Char) : Text :=
  if c = '"' then ['\\', '"']
  else if c = '\\' then ['\\', '\\']
  else if c.toNat = 8 then ['\\', 'b']
  else if c = '\t' then ['\\', 't']
  else if c = '\n' then ['\\', 'n']
  else if c.toNat = 12 then ['\\', 'f']
  else if c = '\r' then ['\\', 'r']
  else if c.toNat < 0x20 then
    ['\\', 'u', '0', '0', Nat.digitChar (c.toNat / 16), Nat.digitChar (c.toNat % 16)]
  else [c]

lemma hex4_control : ∀ n < 0x20,
    hex4 '0' '0' (Nat.digitChar (n / 16)) (Nat.digitChar (n % 16)) = some n := by
  decide

lemma parseChar_control {c : Char} (small : c.toNat < 0x20) (r : Text) :
    parseChar ('\\' :: 'u' :: '0' :: '0' :: Nat.digitChar (c.toNat / 16) ::
      Nat.digitChar (c.toNat % 16) :: r) = some (c, r) := by
  have plain : c.toNat < 0xD800 := by omega
  simp [parseChar, parseEscape, parseUnicode, hex4_control _ small, plain]

lemma escapes : Json.Escapes escape := by
  intro c r
  have named {n : Nat} (h : c.toNat = n) : c = Char.ofNat n := by rw [← h, Char.ofNat_toNat]
  unfold escape
  split_ifs with quote slash b t n f ret control
  · rw [quote]
    rfl
  · rw [slash]
    rfl
  · rw [named b]
    rfl
  · rw [t]
    rfl
  · rw [n]
    rfl
  · rw [named f]
    rfl
  · rw [ret]
    rfl
  · exact parseChar_control control r
  · simp [parseChar, control]

/-- The compact text of a value, for a way to write numbers. -/
def toText (num : N → Text) (v : Json N) : Text := Json.render escape num v

/-- A reader has the value back, with its numbers as texts. -/
lemma parse_toText {num : N → Text} (valid : ∀ n, Json.IsNumber (num n)) (v : Json N) :
    Json.parse (toText num v) = some (v.map num) :=
  Json.parse_render escapes valid v

end CherryPit.SerdeJson
