import CherryPit.Data.Split

/-!
# Percent-encoded text

UTF-8 by the encoder and the decoder of the standard library, and percent-decoding of bytes: an
escape, a percent sign and two hexadecimal digits, stands for one byte, and every other byte for
itself. A `PercentDecoder` is any function that reads bytes so. Decoding changes exactly the bytes
with an escape, and makes them fewer (`percentDecode_of_not_escaped`,
`Escaped.length_percentDecode`). What is decoded has an escape itself if three units of the source
stand for one (`escaped_percentDecode`).
-/

namespace CherryPit

/-! ## UTF-8 -/

/-- The encoding of a text. -/
def utf8 (text : List Char) : List UInt8 :=
  text.flatMap String.utf8EncodeChar

def decodeUtf8 (bytes : List UInt8) : Option (List Char) :=
  bytes.toByteArray.utf8Decode?.map Array.toList

@[simp]
lemma utf8_append (left right : List Char) : utf8 (left ++ right) = utf8 left ++ utf8 right :=
  List.flatMap_append

@[simp]
lemma utf8_cons (c : Char) (text : List Char) :
    utf8 (c :: text) = String.utf8EncodeChar c ++ utf8 text :=
  List.flatMap_cons

lemma utf8_intercalate (sep : List Char) (parts : List (List Char)) :
    utf8 (sep.intercalate parts) = (utf8 sep).intercalate (parts.map utf8) := by
  induction parts with
  | nil => rfl
  | cons first parts ih =>
    rcases parts with _ | ⟨second, parts⟩
    · simp
    · rw [List.intercalate_cons_cons, utf8_append, utf8_append, ih]
      exact List.intercalate_cons_cons.symm

lemma length_utf8_le {less text : List Char} (h : less.Sublist text) :
    (utf8 less).length ≤ (utf8 text).length :=
  (h.flatMap String.utf8EncodeChar).length_le

lemma decodeUtf8_utf8 (text : List Char) : decodeUtf8 (utf8 text) = some text := by
  have encoded : (utf8 text).toByteArray = text.utf8Encode := rfl
  rw [decodeUtf8, encoded, List.utf8Decode?_utf8Encode]
  rfl

/-- What decodes is the encoding of what it decodes to, and nothing else decodes. -/
lemma decodeUtf8_eq_some {bytes : List UInt8} {text : List Char} :
    decodeUtf8 bytes = some text ↔ utf8 text = bytes := by
  constructor
  · intro decoded
    obtain ⟨chars, found, -⟩ := Option.map_eq_some_iff.mp decoded
    obtain ⟨source, encoded⟩ := ByteArray.isSome_utf8Decode?_iff.mp (Option.isSome_of_eq_some found)
    have eq : bytes = utf8 source := List.toByteArray_inj.mp encoded
    rw [eq, decodeUtf8_utf8] at decoded
    rw [eq, Option.some.inj decoded]
  · rintro rfl
    exact decodeUtf8_utf8 text

lemma utf8_injective : Function.Injective utf8 := by
  intro left right eq
  have decoded := decodeUtf8_utf8 left
  rw [eq, decodeUtf8_utf8] at decoded
  exact (Option.some.inj decoded).symm

/-! ## Percent-decoding -/

def percentSign : UInt8 := 37

/-- The value of a hexadecimal digit. -/
def hexValue (b : UInt8) : Option UInt8 :=
  if 48 ≤ b ∧ b ≤ 57 then some (b - 48)
  else if 65 ≤ b ∧ b ≤ 70 then some (b - 55)
  else if 97 ≤ b ∧ b ≤ 102 then some (b - 87)
  else none

/-- The byte that two hexadecimal digits give. -/
def escapedByte (high low : UInt8) : Option UInt8 :=
  match hexValue high, hexValue low with
  | some h, some l => some (16 * h + l)
  | _, _ => none

lemma escapedByte_sign_left (low : UInt8) : escapedByte percentSign low = none := rfl

lemma escapedByte_sign_right (high : UInt8) : escapedByte high percentSign = none := by
  rw [escapedByte]
  split
  next other => cases other
  next => rfl

/-- The bytes at the front that stand for one byte, before the rest: an escape or one byte. -/
inductive Stands : List UInt8 → UInt8 → List UInt8 → Prop
  | escape {high low byte rest} : escapedByte high low = some byte →
      Stands [percentSign, high, low] byte rest
  | plain {b rest} :
      (∀ high low after, b = percentSign → rest = high :: low :: after →
        escapedByte high low = none) →
      Stands [b] b rest

/-- A decoder of percent-encoded bytes (Rust `percent_encoding::percent_decode_str`): it takes what
stands for one byte after the other. -/
structure PercentDecoder where
  decode : List UInt8 → List UInt8
  nil : decode [] = []
  stands : ∀ {source byte rest}, Stands source byte rest →
    decode (source ++ rest) = byte :: decode rest

variable {bytes source rest : List UInt8} {byte : UInt8}

/-- Such a decoder, that can be run. -/
def percentDecode : List UInt8 → List UInt8
  | b :: high :: low :: rest =>
    match if b = percentSign then escapedByte high low else none with
    | some byte => byte :: percentDecode rest
    | none => b :: percentDecode (high :: low :: rest)
  -- fewer than three bytes hold no escape
  | bytes => bytes

lemma Stands.percentDecode (stands : Stands source byte rest) :
    percentDecode (source ++ rest) = byte :: percentDecode rest := by
  cases stands with
  | @escape high low _ _ some =>
    show CherryPit.percentDecode (percentSign :: high :: low :: rest) = _
    rw [CherryPit.percentDecode, if_pos rfl, some]
  | plain unescaped =>
    show CherryPit.percentDecode (byte :: rest) = _
    match rest, unescaped with
    | [], _ | [_], _ => rfl
    | high :: low :: after, unescaped =>
      rw [CherryPit.percentDecode]
      have none : (if byte = percentSign then escapedByte high low else none) = none := by
        split
        next sign => exact unescaped high low after sign rfl
        next => rfl
      rw [none]

/-- There is such a decoder. -/
def percentDecoder : PercentDecoder := ⟨percentDecode, rfl, Stands.percentDecode⟩

variable {decoder : PercentDecoder}

/-- Every byte at the front is part of what stands for one byte. -/
lemma exists_stands (b : UInt8) (tail : List UInt8) :
    ∃ source byte rest, b :: tail = source ++ rest ∧ Stands source byte rest := by
  by_cases escaped : ∃ high low after byte, b = percentSign ∧ tail = high :: low :: after ∧
      escapedByte high low = some byte
  · obtain ⟨high, low, after, byte, rfl, rfl, some⟩ := escaped
    exact ⟨[percentSign, high, low], byte, after, rfl, .escape some⟩
  · refine ⟨[b], b, tail, rfl, .plain fun high low after sign eq => ?_⟩
    rcases some : escapedByte high low with _ | byte
    · rfl
    · exact absurd ⟨high, low, after, byte, sign, eq, some⟩ escaped

lemma Stands.length_pos (stands : Stands source byte rest) : 0 < source.length := by
  cases stands <;> exact Nat.succ_pos _

/-- Induction along the units of the source. -/
lemma stands_induction {motive : List UInt8 → Prop} (nil : motive [])
    (unit : ∀ {source byte rest}, Stands source byte rest → motive rest → motive (source ++ rest))
    (bytes : List UInt8) : motive bytes := by
  induction size : bytes.length using Nat.strong_induction_on generalizing bytes with
  | _ size ih =>
    match bytes with
    | [] => exact nil
    | b :: tail =>
      obtain ⟨source, byte, rest, eq, stands⟩ := exists_stands b tail
      rw [eq] at size ⊢
      rw [List.length_append] at size
      have pos := stands.length_pos
      exact unit stands (ih rest.length (by omega) rest rfl)

/-- A percent sign is the first of the bytes that it is read with. -/
lemma Stands.append_sign (stands : Stands source byte rest) (more : List UInt8) :
    Stands source byte (rest ++ percentSign :: more) := by
  cases stands with
  | escape some => exact .escape some
  | plain unescaped =>
    refine .plain fun high low after sign eq => ?_
    match rest, unescaped, eq with
    | [], _, eq =>
      obtain ⟨rfl, -⟩ := List.cons.inj eq
      exact escapedByte_sign_left low
    | [_], _, eq =>
      obtain ⟨-, eq⟩ := List.cons.inj eq
      obtain ⟨rfl, -⟩ := List.cons.inj eq
      exact escapedByte_sign_right high
    | first :: second :: rest, unescaped, eq =>
      obtain ⟨first, eq⟩ := List.cons.inj eq
      obtain ⟨second, -⟩ := List.cons.inj eq
      rw [← first, ← second]
      exact unescaped _ _ rest sign rfl

lemma percentDecode_append_sign (before more : List UInt8) :
    decoder.decode (before ++ percentSign :: more) =
      decoder.decode before ++ decoder.decode (percentSign :: more) := by
  induction before using stands_induction with
  | nil => rw [decoder.nil, List.nil_append, List.nil_append]
  | unit stands ih =>
    rw [List.append_assoc, decoder.stands (stands.append_sign more), decoder.stands stands, ih]
    rfl

lemma length_percentDecode_le (decoder : PercentDecoder) (bytes : List UInt8) :
    (decoder.decode bytes).length ≤ bytes.length := by
  induction bytes using stands_induction with
  | nil => rw [decoder.nil]
  | unit stands ih =>
    have pos := stands.length_pos
    rw [decoder.stands stands, List.length_append, List.length_cons]
    omega

/-! ## Escapes -/

/-- Three bytes in a row are an escape. -/
def Escaped (bytes : List UInt8) : Prop :=
  ∃ high low, (escapedByte high low).isSome ∧ [percentSign, high, low] <:+: bytes

/-- Decoding takes two bytes away for each escape. -/
lemma Escaped.length_percentDecode (escaped : Escaped bytes) (decoder : PercentDecoder) :
    (decoder.decode bytes).length + 2 ≤ bytes.length := by
  obtain ⟨high, low, isSome, before, after, rfl⟩ := escaped
  obtain ⟨byte, some⟩ := Option.isSome_iff_exists.mp isSome
  have first := length_percentDecode_le decoder before
  have last := length_percentDecode_le decoder after
  have eq : before ++ [percentSign, high, low] ++ after =
      before ++ percentSign :: high :: low :: after := List.append_assoc _ _ _
  rw [eq, percentDecode_append_sign]
  have unit : decoder.decode (percentSign :: high :: low :: after) = byte :: decoder.decode after :=
    decoder.stands (.escape some)
  rw [unit]
  simp only [List.length_append, List.length_cons]
  omega

lemma percentDecode_of_not_escaped (unescaped : ¬ Escaped bytes) :
    decoder.decode bytes = bytes := by
  induction bytes using stands_induction with
  | nil => exact decoder.nil
  | @unit source byte rest stands ih =>
    have last : ¬ Escaped rest := by
      rintro ⟨high, low, isSome, escape⟩
      exact unescaped ⟨high, low, isSome, escape.trans (List.suffix_append _ _).isInfix⟩
    rw [decoder.stands stands, ih last]
    cases stands with
    | escape some =>
      exact absurd ⟨_, _, Option.isSome_of_eq_some some, (List.prefix_append _ _).isInfix⟩ unescaped
    | plain => rfl

lemma Escaped.mem (escaped : Escaped bytes) : percentSign ∈ bytes := by
  obtain ⟨high, low, -, escape⟩ := escaped
  exact escape.subset List.mem_cons_self

lemma hexValue_of_escapedByte {high low : UInt8} (isSome : (escapedByte high low).isSome) :
    (hexValue high).isSome ∧ (hexValue low).isSome := by
  rw [escapedByte] at isSome
  split at isSome
  next first last => simp [first, last]
  next => cases isSome

/-- An escape does not reach over a byte that is no part of one. -/
lemma escaped_intercalate {sep : UInt8} {parts : List (List UInt8)} (ne : sep ≠ percentSign)
    (none : hexValue sep = none) :
    Escaped ([sep].intercalate parts) ↔ ∃ part ∈ parts, Escaped part := by
  have absent : ∀ {high low}, (escapedByte high low).isSome → sep ∉ [percentSign, high, low] := by
    intro high low isSome mem
    obtain ⟨first, last⟩ := hexValue_of_escapedByte isSome
    simp only [List.mem_cons, List.not_mem_nil, or_false] at mem
    rcases mem with sign | rfl | rfl
    · exact ne sign
    · rw [none] at first
      cases first
    · rw [none] at last
      cases last
  constructor
  · rintro ⟨high, low, isSome, escape⟩
    obtain ⟨part, mem, escape⟩ := (infix_intercalate (by simp) (absent isSome)).mp escape
    exact ⟨part, mem, high, low, isSome, escape⟩
  · rintro ⟨part, mem, high, low, isSome, escape⟩
    exact ⟨high, low, isSome, (infix_intercalate (by simp) (absent isSome)).mpr ⟨part, mem, escape⟩⟩

/-- What stands for three bytes in a row that are an escape. -/
def EscapedTwice (bytes : List UInt8) : Prop :=
  ∃ before sign high low after h l,
    bytes = before ++ (sign ++ (high ++ (low ++ after))) ∧
    Stands sign percentSign (high ++ (low ++ after)) ∧ Stands high h (low ++ after) ∧
    Stands low l after ∧ (escapedByte h l).isSome

lemma exists_stands_of_percentDecode {tail : List UInt8}
    (decoded : decoder.decode bytes = byte :: tail) :
    ∃ source rest, bytes = source ++ rest ∧ Stands source byte rest ∧
      decoder.decode rest = tail := by
  match bytes with
  | [] => cases decoder.nil.symm.trans decoded
  | b :: tail' =>
    obtain ⟨source, byte', rest, eq, stands⟩ := exists_stands b tail'
    rw [eq, decoder.stands stands] at decoded
    obtain ⟨rfl, last⟩ := List.cons.inj decoded
    exact ⟨source, rest, eq, stands, last⟩

/-- What is decoded comes from a cut of the source. -/
lemma exists_append_of_percentDecode {left right : List UInt8}
    (decoded : decoder.decode bytes = left ++ right) :
    ∃ before after, bytes = before ++ after ∧ decoder.decode after = right := by
  induction left generalizing bytes with
  | nil => exact ⟨[], bytes, rfl, decoded⟩
  | cons byte left ih =>
    obtain ⟨source, rest, rfl, -, decoded⟩ := exists_stands_of_percentDecode decoded
    obtain ⟨before, after, rfl, last⟩ := ih decoded
    exact ⟨source ++ before, after, (List.append_assoc _ _ _).symm, last⟩

lemma Stands.eq_cons_sign (stands : Stands source percentSign rest) :
    ∃ tail, source = percentSign :: tail := by
  cases stands with
  | escape => exact ⟨_, rfl⟩
  | plain => exact ⟨_, rfl⟩

/-- What is decoded has an escape if the source has what stands for one. -/
lemma escaped_percentDecode : Escaped (decoder.decode bytes) ↔ EscapedTwice bytes := by
  constructor
  · rintro ⟨h, l, isSome, left, right, eq⟩
    rw [List.append_assoc] at eq
    obtain ⟨before, after, rfl, decoded⟩ := exists_append_of_percentDecode eq.symm
    obtain ⟨sign, after, rfl, standsSign, decoded⟩ := exists_stands_of_percentDecode decoded
    obtain ⟨high, after, rfl, standsHigh, decoded⟩ := exists_stands_of_percentDecode decoded
    obtain ⟨low, after, rfl, standsLow, -⟩ := exists_stands_of_percentDecode decoded
    exact ⟨before, sign, high, low, after, h, l, rfl, standsSign, standsHigh, standsLow, isSome⟩
  · rintro ⟨before, sign, high, low, after, h, l, rfl, standsSign, standsHigh, standsLow, isSome⟩
    refine ⟨h, l, isSome, decoder.decode before, decoder.decode after, ?_⟩
    have decoded := decoder.stands standsSign
    rw [decoder.stands standsHigh, decoder.stands standsLow] at decoded
    -- decoding may be cut before the sign, wherever it stands
    obtain ⟨tail, rfl⟩ := standsSign.eq_cons_sign
    rw [List.cons_append] at decoded ⊢
    rw [percentDecode_append_sign, decoded, List.append_assoc]
    rfl

end CherryPit
