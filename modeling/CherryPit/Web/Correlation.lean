import CherryPit.Core.Event
import CherryPit.Web.Pages

/-!
# Correlation of requests

Port of `extract_correlation` and `parse_traceparent` (`middleware/correlation.rs`). The reader of
UUIDs is a parameter.

The digits of a `traceparent` are read by the standard library's integer parser, which takes a plus
sign in front of a number for part of it. What is accepted are the values of `Traceparent`
(`parseTraceparent_some`), three fields of the documented widths each of which may begin with a plus
sign; the documented format is that without one (`Plain`).
-/

namespace CherryPit

/-- Rust `CorrelationContext::none`. -/
def CorrelationContext.none : CorrelationContext := ⟨.none, .none⟩

/-- Rust `CorrelationContext::correlated`. -/
def CorrelationContext.correlated (correlation : Uuid) : CorrelationContext :=
  ⟨some correlation, .none⟩

/-- Rust `CorrelationContext::new`. -/
def CorrelationContext.new (correlation causation : Uuid) : CorrelationContext :=
  ⟨some correlation, some causation⟩

namespace Web

variable {c : Char}

def parseTraceparent (value : List Char) : Option CorrelationContext :=
  if value.length ≠ 55 then none
  else match value.splitOn '-' with
    | [version, traceIdHex, parentSpanHex, flags] =>
      if version ≠ "00".toList then none
      else if traceIdHex.length ≠ 32 ∨ parentSpanHex.length ≠ 16 ∨ flags.length ≠ 2 then none
      else do
        let traceId ← fromStrRadix 16 (2 ^ 128 - 1) traceIdHex
        let parentSpan ← fromStrRadix 16 (2 ^ 64 - 1) parentSpanHex
        let _ ← fromStrRadix 16 (2 ^ 8 - 1) flags
        if traceId = 0 ∨ parentSpan = 0 then none
        else some (.new (BitVec.ofNat 128 traceId) (BitVec.ofNat 128 parentSpan))
    | _ => none

/-- What is taken from `X-Correlation-ID`. -/
def fromCorrelationId (parseUuid : List Char → Option Uuid) (headers : HeaderMap) :
    CorrelationContext :=
  match ((headers.get "x-correlation-id").bind toStr).bind fun s => parseUuid (trim s) with
  | some uuid => .correlated uuid
  | none => .none

def extractCorrelation (parseUuid : List Char → Option Uuid) (headers : HeaderMap) :
    CorrelationContext :=
  match ((headers.get "traceparent").bind toStr).bind parseTraceparent with
  | some ctx => ctx
  | none => fromCorrelationId parseUuid headers

/-! ## What is accepted -/

/-- Hexadecimal digits, perhaps after a plus sign, of this length together. -/
structure HexField (n : Nat) where
  plus : Bool
  digits : List Char
  hex : ∀ c ∈ digits, (toDigit 16 c).isSome
  length : (sign plus ++ digits).length = n

namespace HexField

variable {n max k : Nat}

def text (field : HexField n) : List Char := sign field.plus ++ field.digits

def value (field : HexField n) : Nat := numeral 16 field.digits

lemma not_mem_text (field : HexField n) (plus : c ≠ '+') (other : toDigit 16 c = none) :
    c ∉ field.text := by
  intro mem
  rcases List.mem_append.mp mem with mem | mem
  · rcases sign : field.plus with _ | _
    · rw [sign] at mem
      cases mem
    · rw [sign] at mem
      exact plus (List.mem_singleton.mp mem)
  · have digit := field.hex c mem
    rw [other] at digit
    cases digit

lemma value_lt (field : HexField n) : field.value < 16 ^ n := by
  have length : field.digits.length ≤ n :=
    calc field.digits.length ≤ (sign field.plus ++ field.digits).length := by
          rw [List.length_append]
          exact Nat.le_add_left _ _
      _ = n := field.length
  exact (numeral_lt field.hex).trans_le (Nat.pow_le_pow_right (by decide) length)

/-- A field is read as its digits. -/
lemma fromStrRadix_text (field : HexField n) (long : 2 ≤ n) (bound : max + 1 = 16 ^ n) :
    fromStrRadix 16 max field.text = some field.value := by
  have some : field.digits ≠ [] := by
    intro none
    have length := field.length
    rw [none, sign] at length
    split at length
    · simp at length
      omega
    · simp at length
      omega
  have lt := field.value_lt
  exact (fromStrRadix_some (by decide)).mpr
    ⟨field.plus, field.digits, rfl, some, field.hex, rfl, by omega⟩

/-- Nothing else is read. -/
lemma exists_field {written : List Char} (length : written.length = n)
    (read : fromStrRadix 16 max written = some k) :
    ∃ field : HexField n, written = field.text ∧ k = field.value := by
  obtain ⟨plus, digits, rfl, -, hex, rfl, -⟩ := (fromStrRadix_some (by decide)).mp read
  exact ⟨⟨plus, digits, hex, length⟩, rfl, rfl⟩

/-- The number of a field of 16 digits is one of 64 bits. -/
lemma zeroExtend_value (field : HexField 16) :
    (BitVec.ofNat 64 field.value).setWidth 128 = BitVec.ofNat 128 field.value := by
  have lt : field.value < 2 ^ 64 := field.value_lt
  apply BitVec.eq_of_toNat_eq
  rw [BitVec.toNat_setWidth, BitVec.toNat_ofNat, BitVec.toNat_ofNat, Nat.mod_eq_of_lt lt]

/-- A plus sign is seen. -/
lemma plus_iff (field : HexField n) : field.plus = true ↔ field.text.head? = some '+' := by
  rw [text]
  rcases field.plus with _ | _
  · refine iff_of_false Bool.false_ne_true fun head => ?_
    have mem : '+' ∈ field.digits := List.mem_of_mem_head? head
    cases field.hex '+' mem
  · exact iff_of_true rfl rfl

end HexField

/-- A `traceparent` that is accepted. -/
structure Traceparent where
  traceId : HexField 32
  parentId : HexField 16
  flags : HexField 2
  traceId_ne : traceId.value ≠ 0
  parentId_ne : parentId.value ≠ 0

namespace Traceparent

/-- The fields of a `traceparent`, its version included. -/
def fields (t : Traceparent) : List (List Char) :=
  ["00".toList, t.traceId.text, t.parentId.text, t.flags.text]

def text (t : Traceparent) : List Char := ['-'].intercalate t.fields

/-- The identities that a `traceparent` stands for. -/
def context (t : Traceparent) : CorrelationContext :=
  .new (BitVec.ofNat 128 t.traceId.value) ((BitVec.ofNat 64 t.parentId.value).setWidth 128)

/-- The documented format: no field has a plus sign. -/
def Plain (t : Traceparent) : Prop :=
  t.traceId.plus = false ∧ t.parentId.plus = false ∧ t.flags.plus = false

variable {t t' : Traceparent}

lemma splitOn_text : t.text.splitOn '-' = t.fields := by
  refine List.splitOn_intercalate '-' ?_ (List.cons_ne_nil _ _)
  intro field mem
  simp only [fields, List.mem_cons, List.not_mem_nil, or_false] at mem
  rcases mem with rfl | rfl | rfl | rfl
  · decide
  · exact t.traceId.not_mem_text (by decide) rfl
  · exact t.parentId.not_mem_text (by decide) rfl
  · exact t.flags.not_mem_text (by decide) rfl

lemma length_text : t.text.length = 55 := by
  have traceId : t.traceId.text.length = 32 := t.traceId.length
  have parentId : t.parentId.text.length = 16 := t.parentId.length
  have flags : t.flags.text.length = 2 := t.flags.length
  simp [text, fields, List.intercalate_cons_cons, traceId, parentId, flags]

end Traceparent

/-- Exactly these values are accepted. -/
lemma parseTraceparent_some {value : List Char} {ctx : CorrelationContext} :
    parseTraceparent value = some ctx ↔ ∃ t : Traceparent, value = t.text ∧ ctx = t.context := by
  constructor
  · intro accepted
    unfold parseTraceparent at accepted
    rw [Option.ite_none_left_eq_some] at accepted
    obtain ⟨-, accepted⟩ := accepted
    split at accepted
    next version traceIdHex parentSpanHex flags cut =>
      rw [Option.ite_none_left_eq_some, Option.ite_none_left_eq_some] at accepted
      obtain ⟨version, widths, accepted⟩ := accepted
      simp only [not_or, ne_eq, not_not] at version widths
      obtain ⟨width1, width2, width3⟩ := widths
      obtain ⟨traceId, read1, accepted⟩ := Option.bind_eq_some_iff.mp accepted
      obtain ⟨parentSpan, read2, accepted⟩ := Option.bind_eq_some_iff.mp accepted
      obtain ⟨flag, read3, nonzero⟩ := Option.bind_eq_some_iff.mp accepted
      obtain ⟨ne, same⟩ := Option.ite_none_left_eq_some.mp nonzero
      obtain ⟨ne1, ne2⟩ := not_or.mp ne
      obtain ⟨field1, rfl, rfl⟩ := HexField.exists_field width1 read1
      obtain ⟨field2, rfl, rfl⟩ := HexField.exists_field width2 read2
      obtain ⟨field3, rfl, -⟩ := HexField.exists_field width3 read3
      refine ⟨⟨field1, field2, field3, ne1, ne2⟩, ?_, ?_⟩
      · rw [Traceparent.text, Traceparent.fields, ← version, ← cut, List.intercalate_splitOn]
      · rw [← Option.some_inj.mp same, Traceparent.context, HexField.zeroExtend_value]
    next => cases accepted
  · rintro ⟨t, rfl, rfl⟩
    have read1 : fromStrRadix 16 (2 ^ 128 - 1) t.traceId.text = some t.traceId.value :=
      t.traceId.fromStrRadix_text (by decide) (by decide)
    have read2 : fromStrRadix 16 (2 ^ 64 - 1) t.parentId.text = some t.parentId.value :=
      t.parentId.fromStrRadix_text (by decide) (by decide)
    have read3 : fromStrRadix 16 (2 ^ 8 - 1) t.flags.text = some t.flags.value :=
      t.flags.fromStrRadix_text (by decide) (by decide)
    have widths : ¬ (t.traceId.text.length ≠ 32 ∨ t.parentId.text.length ≠ 16 ∨
        t.flags.text.length ≠ 2) := by
      simp only [HexField.text, t.traceId.length, t.parentId.length, t.flags.length, ne_eq,
        not_true_eq_false, or_self, not_false_eq_true]
    have nonzero : ¬ (t.traceId.value = 0 ∨ t.parentId.value = 0) :=
      not_or.mpr ⟨t.traceId_ne, t.parentId_ne⟩
    rw [parseTraceparent, if_neg (not_not.mpr t.length_text), t.splitOn_text]
    simp only [Traceparent.fields, ne_eq, not_true_eq_false, if_false, widths, read1, read2, read3,
      nonzero, Option.bind_eq_bind, Option.bind_some, Traceparent.context,
      HexField.zeroExtend_value]

/-! ## The documented format -/

/-- The text of the `traceparent` of a request. -/
def traceparentOf (headers : HeaderMap) : Option (List Char) :=
  (headers.get "traceparent").bind toStr

/-- A request without its `traceparent`. -/
def withoutTraceparent (headers : HeaderMap) : HeaderMap :=
  headers.filter (·.1 ≠ "traceparent")

/-- The documentation of `extract_correlation`: both identities exactly for a `traceparent` in the
documented format, those that it gives, and for any other what there is without it. -/
structure AsDocumented (parseUuid : List Char → Option Uuid) (headers : HeaderMap) : Prop where
  both : ((extractCorrelation parseUuid headers).correlationId.isSome ∧
      (extractCorrelation parseUuid headers).causationId.isSome) ↔
    ∃ t : Traceparent, t.Plain ∧ traceparentOf headers = some t.text
  given : ∀ t : Traceparent, t.Plain → traceparentOf headers = some t.text →
    extractCorrelation parseUuid headers = t.context
  other : (∀ t : Traceparent, t.Plain → traceparentOf headers ≠ some t.text) →
    extractCorrelation parseUuid headers =
        extractCorrelation parseUuid (withoutTraceparent headers) ∧
      extractCorrelation parseUuid headers = fromCorrelationId parseUuid headers

section Documented

variable (parseUuid : List Char → Option Uuid) {headers headers' : HeaderMap} {t t' : Traceparent}

lemma extractCorrelation_of_traceparent (h : traceparentOf headers = some t.text) :
    extractCorrelation parseUuid headers = t.context := by
  have accepted := parseTraceparent_some.mpr ⟨t, rfl, rfl⟩
  rw [traceparentOf] at h
  rw [extractCorrelation, h, Option.bind_some, accepted]

lemma extractCorrelation_of_other (h : ∀ t : Traceparent, traceparentOf headers ≠ some t.text) :
    extractCorrelation parseUuid headers = fromCorrelationId parseUuid headers := by
  have refused : (traceparentOf headers).bind parseTraceparent = none := by
    rw [Option.eq_none_iff_forall_ne_some]
    intro ctx accepted
    obtain ⟨value, read, accepted⟩ := Option.bind_eq_some_iff.mp accepted
    obtain ⟨t, rfl, -⟩ := parseTraceparent_some.mp accepted
    exact h t read
  rw [traceparentOf] at refused
  rw [extractCorrelation, refused]

lemma get_withoutTraceparent {name : String} (ne : name ≠ "traceparent") :
    (withoutTraceparent headers).get name = headers.get name :=
  HeaderMap.lookup_filter_of_ne ne

lemma extractCorrelation_without :
    extractCorrelation parseUuid (withoutTraceparent headers) =
      fromCorrelationId parseUuid headers := by
  have absent : (withoutTraceparent headers).get "traceparent" = none :=
    HeaderMap.lookup_filter_self
  rw [extractCorrelation, absent, fromCorrelationId, fromCorrelationId,
    get_withoutTraceparent (by decide)]
  rfl

lemma causationId_fromCorrelationId : (fromCorrelationId parseUuid headers).causationId = none := by
  rw [fromCorrelationId]
  split <;> rfl

/-- The format can be read off the text. -/
lemma Traceparent.Plain.of_text (plain : t.Plain) (same : t.text = t'.text) : t'.Plain := by
  have fields : t.fields = t'.fields := by rw [← splitOn_text, same, splitOn_text]
  have keeps : ∀ {n} {field field' : HexField n}, field.text = field'.text →
      field.plus = false → field'.plus = false := by
    intro n field field' same plain
    rw [Bool.eq_false_iff, ne_eq, HexField.plus_iff] at plain ⊢
    rwa [← same]
  simp only [Traceparent.fields, List.cons.injEq, true_and, and_true] at fields
  obtain ⟨traceId, parentId, flags⟩ := fields
  exact ⟨keeps traceId plain.1, keeps parentId plain.2.1, keeps flags plain.2.2⟩

lemma toLower_table :
    ∀ n < 128, ∀ d ∈ toDigit 16 (Char.ofNat n), (Char.ofNat n).toLower = Nat.digitChar d := by
  decide

/-- Digits with the same value differ in case only. -/
lemma toLower_of_toDigit {d : Nat} (digit : toDigit 16 c = some d) :
    c.toLower = Nat.digitChar d := by
  have row := toLower_table c.toNat (toNat_lt_of_toDigit digit) d
  rw [Char.ofNat_toNat] at row
  exact row digit

/-- Fields with the same value differ in case only, if they have no plus sign. -/
lemma HexField.toAsciiLowercase_text {n : Nat} {field field' : HexField n}
    (plain : field.plus = false) (plain' : field'.plus = false)
    (same : field.value = field'.value) :
    toAsciiLowercase field.text = toAsciiLowercase field'.text := by
  have text : field.text = field.digits := by
    rw [HexField.text, plain]
    rfl
  have text' : field'.text = field'.digits := by
    rw [HexField.text, plain']
    rfl
  have length : field.digits.length = field'.digits.length := by
    rw [← text, ← text']
    exact field.length.trans field'.length.symm
  have lower : ∀ {digits : List Char}, (∀ c ∈ digits, (toDigit 16 c).isSome) →
      toAsciiLowercase digits =
        (digits.map (toDigit 16)).map fun d => Nat.digitChar (d.getD 0) := by
    intro digits hex
    rw [toAsciiLowercase, List.map_map, List.map_inj_left]
    intro c mem
    obtain ⟨d, digit⟩ := Option.isSome_iff_exists.mp (hex c mem)
    rw [Function.comp_apply, digit, toLower_of_toDigit digit]
    rfl
  rw [text, text', lower field.hex, lower field'.hex,
    numeral_inj length field.hex field'.hex same]

/-- Values in the documented format with the same identities differ in case only, flags apart. -/
lemma Traceparent.eq_of_context (plain : t.Plain) (plain' : t'.Plain)
    (same : t.context = t'.context) :
    toAsciiLowercase t.traceId.text = toAsciiLowercase t'.traceId.text ∧
      toAsciiLowercase t.parentId.text = toAsciiLowercase t'.parentId.text := by
  have number : ∀ {a b : Nat}, a < 2 ^ 128 → b < 2 ^ 128 → BitVec.ofNat 128 a = BitVec.ofNat 128 b →
      a = b := by
    intro a b lt lt' eq
    have eq := congrArg BitVec.toNat eq
    rwa [BitVec.toNat_ofNat, BitVec.toNat_ofNat, Nat.mod_eq_of_lt lt, Nat.mod_eq_of_lt lt'] at eq
  rw [context, context, HexField.zeroExtend_value, HexField.zeroExtend_value] at same
  injection same with traceId parentId
  have narrow : ∀ field : HexField 16, field.value < 2 ^ 128 := fun field =>
    field.value_lt.trans (by decide)
  constructor
  · refine HexField.toAsciiLowercase_text plain.1 plain'.1 ?_
    exact number t.traceId.value_lt t'.traceId.value_lt (Option.some_inj.mp traceId)
  · refine HexField.toAsciiLowercase_text plain.2.1 plain'.2.1 ?_
    exact number (narrow _) (narrow _) (Option.some_inj.mp parentId)

end Documented

/-- The identities of a request are extracted as documented exactly if its `traceparent` is not
accepted for a plus sign, and then the `traceparent` can be recovered from them up to case. -/
theorem extractCorrelation_documented_iff (parseUuid : List Char → Option Uuid)
    (headers : HeaderMap) :
    (AsDocumented parseUuid headers ↔
      ∀ t : Traceparent, traceparentOf headers = some t.text → t.Plain) ∧
    ∀ (headers' : HeaderMap) (t t' : Traceparent), t.Plain → t'.Plain →
      traceparentOf headers = some t.text → traceparentOf headers' = some t'.text →
      extractCorrelation parseUuid headers = extractCorrelation parseUuid headers' →
      toAsciiLowercase t.traceId.text = toAsciiLowercase t'.traceId.text ∧
        toAsciiLowercase t.parentId.text = toAsciiLowercase t'.parentId.text := by
  refine ⟨⟨?_, ?_⟩, ?_⟩
  · intro documented t written
    have both := extractCorrelation_of_traceparent parseUuid written
    obtain ⟨t', plain, written'⟩ := documented.both.mp (by rw [both]; exact ⟨rfl, rfl⟩)
    exact plain.of_text (Option.some_inj.mp (written'.symm.trans written))
  · intro plain
    by_cases there : ∃ t : Traceparent, traceparentOf headers = some t.text
    · obtain ⟨t, written⟩ := there
      have ids := extractCorrelation_of_traceparent parseUuid written
      refine ⟨iff_of_true ?_ ⟨t, plain t written, written⟩, ?_, ?_⟩
      · rw [ids]
        exact ⟨rfl, rfl⟩
      · intro t' _ written'
        exact extractCorrelation_of_traceparent parseUuid written'
      · intro other
        exact absurd written (other t (plain t written))
    · have absent : ∀ t : Traceparent, traceparentOf headers ≠ some t.text := not_exists.mp there
      have ids := extractCorrelation_of_other parseUuid absent
      refine ⟨iff_of_false ?_ ?_, ?_, ?_⟩
      · rw [ids, causationId_fromCorrelationId]
        rintro ⟨-, ⟨⟩⟩
      · rintro ⟨t, -, written⟩
        exact absent t written
      · intro t _ written
        exact absurd written (absent t)
      · intro _
        rw [extractCorrelation_without]
        exact ⟨ids, ids⟩
  · intro headers' t t' plain plain' written written' same
    rw [extractCorrelation_of_traceparent parseUuid written,
      extractCorrelation_of_traceparent parseUuid written'] at same
    exact Traceparent.eq_of_context plain plain' same

/-- A `traceparent` in the documented format. -/
def plainTraceparent : String := "00-0af7651916cd43dd8448eb211c80319c-00f067aa0ba902b7-01"

/-- One with a plus sign in the place of a digit. -/
def signedTraceparent : String := "00-+af7651916cd43dd8448eb211c80319c-00f067aa0ba902b7-01"

/-- A plus sign in front of 31 digits is accepted, and stands for a zero. -/
theorem plus_sign_accepted :
    extractCorrelation (fun _ => none) [("traceparent", bytes signedTraceparent)] =
        .new 0x0af7651916cd43dd8448eb211c80319c#128 0x00f067aa0ba902b7#128 ∧
      extractCorrelation (fun _ => none) [("traceparent", bytes plainTraceparent)] =
        .new 0x0af7651916cd43dd8448eb211c80319c#128 0x00f067aa0ba902b7#128 ∧
      extractCorrelation (fun _ => none)
        (withoutTraceparent [("traceparent", bytes signedTraceparent)]) = .none ∧
      toAsciiLowercase signedTraceparent.toList ≠ toAsciiLowercase plainTraceparent.toList := by
  refine ⟨?_, ?_, ?_, ?_⟩
  all_goals decide

end Web

end CherryPit
