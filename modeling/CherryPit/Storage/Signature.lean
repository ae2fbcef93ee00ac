import CherryPit.Data.JsonText

/-!
# Snapshot signatures

Port of `cherry-pit-storage/src/signature.rs` (`canonical_json`, `escape_json_string`,
`build_snapshot_signature`).

Rust → Lean: a `serde_json::Value` is a JSON value in which no map has a key twice; numbers are
left abstract, with the way in which `Number::to_string` writes them. A string that is built is the
list of its characters. `str` is ordered by its UTF-8 bytes, which is the order of the characters.
`sort_unstable` sorts distinct keys, so it is any sort. SHA-256 is a parameter.

`canonical_json` sorts the keys at every level and prints without spaces, so its text is that of the
compact printer for the sorted value (`canonicalJson_eq`), and the parser reads it back.
-/

namespace CherryPit.Storage

open Json (Text)

/-- How numbers are written (Rust `Number::to_string`): different numbers differently, and as JSON
has them. -/
structure NumberFormat (N : Type) where
  toString : N → Text
  injective : toString.Injective
  valid : ∀ n, Json.IsNumber (toString n)

/-- A `serde_json::Value`. -/
structure Value (N : Type) where
  json : Json N
  distinct : json.Distinct

/-- Rust `char::is_control`: C0, DEL and C1. -/
def isControl (c : Char) : Bool :=
  c.toNat < 0x20 || (0x7F ≤ c.toNat && c.toNat < 0xA0)

/-- Lower-case hexadecimal with zeros in front (Rust `{:04x}`, `{:02x}`). -/
def hex (width n : Nat) : Text := (Nat.toDigits 16 n).leftpad width '0'

/-- What `escape_json_string` makes of one character. -/
def escapeChar : Char → Text
  | '"' => ['\\', '"']
  | '\\' => ['\\', '\\']
  | '\n' => ['\\', 'n']
  | '\r' => ['\\', 'r']
  | '\t' => ['\\', 't']
  | c => if isControl c then '\\' :: 'u' :: hex 4 c.toNat else [c]

/-- Rust `escape_json_string`. -/
def escapeJsonString (s : String) : Text := s.toList.flatMap escapeChar

/-- Rust `sort_unstable` on keys. -/
def sortUnstable (keys : List String) : List String := keys.insertionSort (· ≤ ·)

/-- An object with these keys, whose values have these texts. -/
def objectText (keys : List String) (texts : List (String × Text)) : Text :=
  let entries := keys.map fun k =>
    '"' :: (escapeJsonString k ++ '"' :: ':' :: (texts.lookup k).getD [])
  '{' :: ([','].intercalate entries ++ ['}'])

variable {N : Type}

mutual

/-- Rust `canonical_json`. -/
def canonicalJson (F : NumberFormat N) : Json N → Text
  | .obj map => objectText (sortUnstable (map.map Prod.fst)) (canonicalMembers F map)
  | .arr arr => '[' :: ([','].intercalate (canonicalElems F arr) ++ [']'])
  | .str s => '"' :: (escapeJsonString s ++ ['"'])
  | .num n => F.toString n
  | .bool true => ['t', 'r', 'u', 'e']
  | .bool false => ['f', 'a', 'l', 's', 'e']
  | .null => ['n', 'u', 'l', 'l']

/-- The texts of the elements of an array. -/
def canonicalElems (F : NumberFormat N) : List (Json N) → List Text
  | [] => []
  | x :: xs => canonicalJson F x :: canonicalElems F xs

/-- The texts of the values of a map. -/
def canonicalMembers (F : NumberFormat N) : List (String × Json N) → List (String × Text)
  | [] => []
  | (k, v) :: ms => (k, canonicalJson F v) :: canonicalMembers F ms

end

/-- The string that `build_snapshot_signature` hashes. -/
def snapshotText (F : NumberFormat N) : Option (Json N) → Text
  | some (.obj map) =>
    objectText (sortUnstable ((map.map Prod.fst).filter (· ≠ "run_timestamp")))
      (canonicalMembers F map)
  | some other => canonicalJson F other
  | none => ['{', '}']

/-- Rust `build_snapshot_signature`. -/
def buildSnapshotSignature (sha256 : List UInt8 → List UInt8) (F : NumberFormat N)
    (snapshot : Option (Json N)) : Text :=
  (sha256 (String.ofList (snapshotText F snapshot)).toUTF8.toList).flatMap fun byte =>
    hex 2 byte.toNat

/-- The value without the member `run_timestamp` if it is an object. -/
def withoutTimestamp : Json N → Json N
  | .obj ms => .obj (ms.filter (·.1 ≠ "run_timestamp"))
  | v => v

section Escapes

variable {c : Char}

lemma isControl_lt (h : isControl c = true) : c.toNat < 0xA0 := by
  simp only [isControl, Bool.or_eq_true, Bool.and_eq_true, decide_eq_true_eq] at h
  omega

/-- The code of a control character has two digits. -/
lemma hex_of_lt :
    ∀ n < 0xA0, hex 4 n = ['0', '0', Nat.digitChar (n / 16), Nat.digitChar (n % 16)] := by
  decide +kernel

lemma hexVal_digitChar : ∀ d < 16, Json.hexVal (Nat.digitChar d) = some d := by
  decide

lemma parseUnicode_hex (control : isControl c = true) (r : Text) :
    Json.parseUnicode (hex 4 c.toNat ++ r) = some (c, r) := by
  have lt := isControl_lt control
  have value : Json.hex4 '0' '0' (Nat.digitChar (c.toNat / 16)) (Nat.digitChar (c.toNat % 16)) =
      some c.toNat := by
    have zero : Json.hexVal '0' = some 0 := rfl
    simp only [Json.hex4, zero, hexVal_digitChar _ (show c.toNat / 16 < 16 by omega),
      hexVal_digitChar _ (show c.toNat % 16 < 16 by omega), Option.bind_eq_bind, Option.bind_some]
    exact congrArg some (by omega)
  rw [hex_of_lt _ lt]
  simp only [List.cons_append, List.nil_append, Json.parseUnicode, value, Option.bind_eq_bind,
    Option.bind_some, Char.ofNat_toNat]
  exact if_pos (.inl (by omega))

/-- Every character is read back. -/
lemma escapes_escapeChar : Json.Escapes escapeChar := by
  intro c r
  unfold escapeChar
  split
  case h_6 quote backslash _ _ _ =>
    split
    case isTrue control => exact parseUnicode_hex control r
    case isFalse plain =>
      have printable : ¬ c.toNat < 0x20 := fun lt => plain (by simp [isControl, lt])
      simp [Json.parseChar, printable]
  all_goals rfl

end Escapes

variable {F : NumberFormat N} {v a b : Json N}

lemma canonicalElems_eq (xs : List (Json N)) : canonicalElems F xs = xs.map (canonicalJson F) := by
  induction xs with
  | nil => rfl
  | cons x xs ih => rw [canonicalElems, ih, List.map_cons]

lemma canonicalMembers_eq (ms : List (String × Json N)) :
    canonicalMembers F ms = Json.mapMembers (canonicalJson F) ms := by
  induction ms with
  | nil => rfl
  | cons m ms ih => exact congrArg _ ih

section Objects

variable {α : Type} {ms ns : List (String × α)}

lemma lookup_of_mem (nodup : (ms.map Prod.fst).Nodup) {k : String} {x : α} (mem : (k, x) ∈ ms) :
    ms.lookup k = some x := by
  induction ms with
  | nil => exact absurd mem List.not_mem_nil
  | cons m ms ih =>
    obtain ⟨notin, nodup⟩ := List.nodup_cons.mp nodup
    rcases List.mem_cons.mp mem with rfl | mem
    · simp
    · have ne : k ≠ m.1 := fun eq => notin (eq ▸ List.mem_map_of_mem mem)
      rw [List.lookup_cons, beq_false_of_ne ne]
      exact ih nodup mem

/-- Sorting some of the keys of a map and looking them up gives those members in order. -/
lemma sortUnstable_lookup (nodup : (ms.map Prod.fst).Nodup) (sub : ns.Sublist ms) (d : α) :
    (sortUnstable (ns.map Prod.fst)).map (fun k => (k, (ms.lookup k).getD d)) =
      Json.sortMembers ns := by
  have keys : (ns.map Prod.fst).map (fun k => (k, (ms.lookup k).getD d)) = ns := by
    rw [List.map_map]
    refine (List.map_congr_left fun m hm => ?_).trans (List.map_id ns)
    simp [lookup_of_mem nodup (sub.subset hm)]
  refine Json.eq_sortMembers (nodup.sublist (sub.map Prod.fst)) ?_ ?_
  · exact ((List.perm_insertionSort ..).map _).trans (.of_eq keys)
  · exact List.pairwise_map.mpr (List.pairwise_insertionSort ..)

end Objects

/-- The text of an object is that of its members in order. -/
lemma objectText_eq {ms ns : List (String × Text)} (nodup : (ms.map Prod.fst).Nodup)
    (sub : ns.Sublist ms) :
    objectText (sortUnstable (ns.map Prod.fst)) ms =
      '{' :: ([','].intercalate ((Json.sortMembers ns).map (Json.renderMember escapeChar)) ++
        ['}']) := by
  rw [← sortUnstable_lookup nodup sub [], List.map_map, objectText]
  refine congrArg (fun entries => '{' :: ([','].intercalate entries ++ ['}'])) ?_
  refine List.map_congr_left fun k _ => ?_
  simp [Json.renderMember, Json.quote, escapeJsonString]

/-- The text is the compact form of the sorted value. -/
lemma canonicalJson_eq (h : v.Distinct) :
    canonicalJson F v = Json.render escapeChar F.toString v.sorted := by
  induction h with
  | null => rfl
  | @bool b => cases b <;> rfl
  | num => rfl
  | str => rfl
  | @arr xs _ ih =>
    rw [canonicalJson, canonicalElems_eq, Json.sorted_arr, Json.render_arr, List.map_map]
    rw [List.map_congr_left ih]
    rfl
  | @obj ms nodup _ ih =>
    have texts : Json.mapMembers (canonicalJson F) ms =
        Json.mapMembers (Json.render escapeChar F.toString) (Json.mapMembers Json.sorted ms) :=
      (Json.mapMembers_congr ih).trans (Json.mapMembers_mapMembers ..).symm
    have keys : ((Json.mapMembers (canonicalJson F) ms).map Prod.fst).Nodup := by simpa using nodup
    rw [canonicalJson, canonicalMembers_eq, ← Json.mapMembers_keys (canonicalJson F),
      objectText_eq keys (.refl _), Json.sorted_obj, Json.render_obj, Json.map_memberText,
      Json.mapMembers_sortMembers _ (by simpa using nodup), texts]

lemma parse_canonicalJson (h : v.Distinct) :
    Json.parse (canonicalJson F v) = some (v.sorted.map F.toString) := by
  rw [canonicalJson_eq h]
  exact Json.parse_render escapes_escapeChar F.valid v.sorted

lemma canonicalJson_eq_iff (ha : a.Distinct) (hb : b.Distinct) :
    canonicalJson F a = canonicalJson F b ↔ a.Alike b := by
  rw [← Json.sorted_eq_iff ha hb]
  constructor
  · intro eq
    have parsed := congrArg Json.parse eq
    rw [parse_canonicalJson ha, parse_canonicalJson hb] at parsed
    exact Json.map_injective F.injective (Option.some.inj parsed)
  · intro eq
    rw [canonicalJson_eq ha, canonicalJson_eq hb, eq]

/-- The canonical text determines the value up to the order of the members, and nothing else does:
a parser gets the value back, with its numbers as they are written. -/
theorem canonicalJson_lossless (F : NumberFormat N) :
    (∀ v : Value N, ∃ w : Value N, w.json.Alike v.json ∧
      Json.parse (canonicalJson F v.json) = some (w.json.map F.toString)) ∧
    ∀ a b : Value N, canonicalJson F a.json = canonicalJson F b.json ↔ a.json.Alike b.json := by
  constructor
  · intro v
    exact ⟨⟨v.json.sorted, v.distinct.sorted⟩, v.distinct.sorted_alike,
      parse_canonicalJson v.distinct⟩
  · intro a b
    exact canonicalJson_eq_iff a.distinct b.distinct

/-- Numbers that are what they are written as. -/
def verbatim : NumberFormat { t : Text // Json.IsNumber t } where
  toString := Subtype.val
  injective := Subtype.val_injective
  valid := Subtype.property

example : canonicalJson verbatim (.obj [("b", .obj [("d", .str "a\"b"), ("c", .bool true)]),
      ("a", .arr [.null, .str "\x7f"])]) =
    "\x7b\"a\":[null,\"\\u007f\"],\"b\":\x7b\"c\":true,\"d\":\"a\\\"b\"\x7d\x7d".toList := by
  decide

lemma withoutTimestamp_distinct (h : v.Distinct) : (withoutTimestamp v).Distinct := by
  cases h with
  | null | bool | num | str => constructor
  | arr h => exact .arr h
  | obj nodup h =>
    refine .obj (nodup.sublist (List.filter_sublist.map Prod.fst)) ?_
    exact fun m hm => h m (List.mem_of_mem_filter hm)

/-- The serializer of the top level agrees with the general one on what is left of the value. -/
lemma snapshotText_eq (h : v.Distinct) :
    snapshotText F (some v) = canonicalJson F (withoutTimestamp v) := by
  cases h with
  | null | bool | num | str | arr => rfl
  | @obj ms nodup _ =>
    let kept := ms.filter fun m => m.1 ≠ "run_timestamp"
    have sub : kept.Sublist ms := List.filter_sublist
    have texts : (Json.mapMembers (canonicalJson F) kept).Sublist
        (Json.mapMembers (canonicalJson F) ms) := sub.map _
    have names : (ms.map Prod.fst).filter (· ≠ "run_timestamp") =
        (Json.mapMembers (canonicalJson F) kept).map Prod.fst := by
      rw [List.filter_map, Json.mapMembers_keys]
      rfl
    have distinct : ((Json.mapMembers (canonicalJson F) ms).map Prod.fst).Nodup := by
      simpa using nodup
    -- both list the members that are kept, in the order of their keys
    rw [snapshotText, names, canonicalMembers_eq, objectText_eq distinct texts, withoutTimestamp,
      canonicalJson, canonicalMembers_eq, ← Json.mapMembers_keys (canonicalJson F),
      objectText_eq (distinct.sublist (texts.map Prod.fst)) (.refl _)]

/-- Snapshots have the same text if and only if they are equal, up to the order of the members at
every level, but for the time of the run. -/
theorem snapshotText_eq_iff (F : NumberFormat N) (a b : Value N) :
    snapshotText F (some a.json) = snapshotText F (some b.json) ↔
      (withoutTimestamp a.json).Alike (withoutTimestamp b.json) := by
  rw [snapshotText_eq a.distinct, snapshotText_eq b.distinct]
  exact canonicalJson_eq_iff (withoutTimestamp_distinct a.distinct)
    (withoutTimestamp_distinct b.distinct)

end CherryPit.Storage
