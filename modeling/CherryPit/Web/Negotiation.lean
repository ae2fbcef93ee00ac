import CherryPit.Data.Single
import CherryPit.Web.Fields
import CherryPit.Web.Representation
import CherryPit.Web.Surface

/-!
# Negotiation of the encoding

What `negotiate_encoding` (`middleware/compression.rs`) makes of the values that RFC 9110 (sections
12.4.2 and 12.5.3) allows for `Accept-Encoding`. Only the first line is read, and in it `zstd` and
`q` are recognised in lower case only (`negotiateEncoding_iff`). A refusal in another line or in
another spelling is therefore overlooked when the first line has a `zstd` that passes
(`refusals_respected_iff`), and the order of the lines matters as soon as some line has one that
passes. Within one line the order of the entries does not matter.
-/

namespace CherryPit.Web

/-! ## The values -/

/-- The characters of a token. -/
def isTchar (c : Char) : Bool :=
  c.isAlphanum || "!#$%&'*+-.^_`|~".toList.contains c

/-- A weight: zero or one, with at most three decimals. -/
structure QValue where
  one : Bool
  decimals : Option (List Char)
  short : (decimals.getD []).length ≤ 3
  digits : ∀ c ∈ decimals.getD [], if one then c = '0' else c.isDigit

/-- The parameter of a weight, with the whitespace around its semicolon. -/
structure Weight where
  before : List Char
  after : List Char
  upper : Bool
  value : QValue
  ows_before : IsOws before
  ows_after : IsOws after

/-- An entry of the list: the name of a coding, or an asterisk, and its weight. -/
structure Coding where
  name : List Char
  weight : Option Weight
  ne_nil : name ≠ []
  token : ∀ c ∈ name, isTchar c

def QValue.text (value : QValue) : List Char :=
  (if value.one then '1' else '0') :: pointed value.decimals

def QValue.IsZero (value : QValue) : Prop :=
  value.one = false ∧ ∀ c ∈ value.decimals.getD [], c = '0'

instance QValue.decidableIsZero : DecidablePred QValue.IsZero := fun value =>
  have := List.decidableBAll (fun c : Char => c = '0') (value.decimals.getD [])
  inferInstanceAs (Decidable (value.one = false ∧ ∀ c ∈ value.decimals.getD [], c = '0'))

def Weight.param (weight : Weight) : List Char :=
  (if weight.upper then 'Q' else 'q') :: '=' :: weight.value.text

def Weight.text (weight : Weight) : List Char :=
  weight.before ++ ';' :: (weight.after ++ weight.param)

def Coding.text (coding : Coding) : List Char :=
  coding.name ++ (coding.weight.map Weight.text).getD []

/-- A line of `Accept-Encoding`. -/
abbrev AcceptEncoding := List (Place Coding)

def AcceptEncoding.value (line : AcceptEncoding) : List UInt8 :=
  bytes (String.ofList (listText Coding.text line))

/-- The request has these lines. -/
def Accepts (headers : HeaderMap) (lines : List AcceptEncoding) : Prop :=
  headers.getAll "accept-encoding" = lines.map AcceptEncoding.value

/-! ## What they mean -/

/-- Names are compared without regard to case. -/
def Coding.IsZstd (coding : Coding) : Prop := toAsciiLowercase coding.name = "zstd".toList

/-- The weight is zero; it is one if there is none. -/
def Coding.IsZero (coding : Coding) : Prop := ∃ weight ∈ coding.weight, weight.value.IsZero

instance Coding.decidableIsZstd : DecidablePred Coding.IsZstd := fun coding =>
  inferInstanceAs (Decidable (toAsciiLowercase coding.name = "zstd".toList))

instance Coding.decidableIsZero : DecidablePred Coding.IsZero := fun coding =>
  inferInstanceAs (Decidable (∃ weight ∈ coding.weight, weight.value.IsZero))

/-- The lines make up one list. -/
def listed (lines : List AcceptEncoding) : List Coding := lines.flatMap elements

/-- RFC 9110: zstd is listed with a weight that is not zero, and never with zero. -/
def Wanted (codings : List Coding) : Prop :=
  (∃ coding ∈ codings, coding.IsZstd ∧ ¬ coding.IsZero) ∧
    ∀ coding ∈ codings, coding.IsZstd → ¬ coding.IsZero

/-- The entries that are taken to be about zstd. -/
def Coding.IsSpelled (coding : Coding) : Prop := coding.name = "zstd".toList

/-- The weight is not seen to be zero. -/
def Coding.Passes (coding : Coding) : Prop :=
  ∀ weight ∈ coding.weight, weight.upper = false → ¬ weight.value.IsZero

instance Coding.decidableIsSpelled : DecidablePred Coding.IsSpelled := fun coding =>
  inferInstanceAs (Decidable (coding.name = "zstd".toList))

instance Coding.decidablePasses : DecidablePred Coding.Passes := fun coding =>
  inferInstanceAs (Decidable (∀ weight ∈ coding.weight, weight.upper = false →
    ¬ weight.value.IsZero))

/-- What is required of the entries that are recognised. -/
def Chosen (codings : List Coding) : Prop :=
  (∃ coding ∈ codings, coding.IsSpelled) ∧ ∀ coding ∈ codings, coding.IsSpelled → coding.Passes

instance Chosen.decidable : DecidablePred Chosen := fun codings =>
  inferInstanceAs (Decidable ((∃ coding ∈ codings, coding.IsSpelled) ∧
    ∀ coding ∈ codings, coding.IsSpelled → coding.Passes))

/-- What is assumed of the parser of floats: it reads weights. -/
def Codecs.ReadsWeights (codecs : Codecs) : Prop :=
  ∀ value : QValue, codecs.parseF32 value.text = some (decide (¬ value.IsZero))

/-! ## Entries -/

section Entries

variable {codecs : Codecs} {coding : Coding} {weight : Weight} {value : QValue} {c : Char}

/-- A visible character that does not separate entries or parameters. -/
structure IsInner (c : Char) : Prop where
  ge : 33 ≤ c.toNat
  lt : c.toNat < 127
  ne_comma : c ≠ ','
  ne_semicolon : c ≠ ';'

lemma IsInner.isWhitespace_eq_false (inner : IsInner c) : c.isWhitespace = false := by
  rw [Bool.eq_false_iff]
  intro space
  have ge := inner.ge
  rcases isWhitespace_iff.mp space with rfl | rfl | rfl | rfl <;> exact absurd ge (by decide)

lemma isVisible_of_range (ge : 32 ≤ c.toNat) (lt : c.toNat < 127) : isVisible c := by
  have byte : (UInt8.ofNat c.toNat).toNat = c.toNat := by
    rw [UInt8.toNat_ofNat', Nat.mod_eq_of_lt (by omega)]
  simp only [isVisible, isVisibleAscii, Bool.or_eq_true, Bool.and_eq_true, decide_eq_true_eq,
    UInt8.le_iff_toNat_le, UInt8.lt_iff_toNat_lt, byte]
  exact .inl ⟨ge, lt⟩

lemma isInner_of_isAlphanum (letter : c.isAlphanum) : IsInner c := by
  have bounds : 48 ≤ c.toNat ∧ c.toNat ≤ 122 := by
    rcases Bool.or_eq_true_iff.mp letter with alpha | digit
    · rcases Bool.or_eq_true_iff.mp alpha with upper | lower
      · have range : 65 ≤ c.toNat ∧ c.toNat ≤ 90 := of_decide_eq_true upper
        omega
      · obtain ⟨low, high⟩ := Bool.and_eq_true_iff.mp lower
        have ge : 97 ≤ c.toNat := of_decide_eq_true low
        exact ⟨by omega, of_decide_eq_true high⟩
    · obtain ⟨low, high⟩ := Bool.and_eq_true_iff.mp digit
      have le : c.toNat ≤ 57 := of_decide_eq_true high
      exact ⟨of_decide_eq_true low, by omega⟩
  constructor
  · omega
  · omega
  · rintro rfl
    cases letter
  · rintro rfl
    cases letter

lemma isInner_of_isTchar (tchar : isTchar c) : IsInner c := by
  rw [isTchar, Bool.or_eq_true] at tchar
  rcases tchar with letter | symbol
  · exact isInner_of_isAlphanum letter
  · rw [List.contains_iff_mem] at symbol
    have spec : "!#$%&'*+-.^_`|~".toList.all fun c =>
        33 ≤ c.toNat ∧ c.toNat < 127 ∧ c ≠ ',' ∧ c ≠ ';' := by decide
    obtain ⟨ge, lt, comma, semicolon⟩ := of_decide_eq_true (List.all_eq_true.mp spec c symbol)
    exact ⟨ge, lt, comma, semicolon⟩

lemma QValue.isInner (mem : c ∈ value.text) : IsInner c := by
  have digit : ∀ {c : Char}, c.isDigit → IsInner c := fun digit =>
    isInner_of_isAlphanum (Bool.or_eq_true_iff.mpr (.inr digit))
  rw [text, List.mem_cons] at mem
  rcases mem with rfl | mem
  · cases value.one <;> exact digit rfl
  · rw [pointed] at mem
    rcases decimals : value.decimals with _ | digits
    · rw [decimals] at mem
      cases mem
    · rw [decimals] at mem
      rcases List.mem_cons.mp mem with rfl | mem
      · exact isInner_of_isTchar rfl
      · have digits := value.digits c (by rwa [decimals])
        split at digits
        · rw [digits]
          exact digit rfl
        · exact digit digits

lemma Weight.isInner (mem : c ∈ weight.param) : IsInner c := by
  rw [param, List.mem_cons, List.mem_cons] at mem
  rcases mem with rfl | rfl | mem
  · cases weight.upper <;> exact isInner_of_isTchar rfl
  · exact ⟨by decide, by decide, by decide, by decide⟩
  · exact QValue.isInner mem

lemma Coding.isInner (mem : c ∈ coding.name) : IsInner c :=
  isInner_of_isTchar (coding.token c mem)

lemma Coding.text_of_weight (has : coding.weight = some weight) :
    coding.text = coding.name ++ weight.before ++ ';' :: (weight.after ++ weight.param) := by
  rw [text, has, List.append_assoc]
  rfl

lemma Coding.text_of_none (has : coding.weight = none) : coding.text = coding.name := by
  rw [text, has]
  exact List.append_nil _

/-- What an entry consists of. -/
lemma Coding.mem_text (mem : c ∈ coding.text) : (c = ' ' ∨ c = '\t') ∨ c = ';' ∨ IsInner c := by
  rcases has : coding.weight with _ | weight
  · rw [text_of_none has] at mem
    exact .inr (.inr (isInner mem))
  · rw [text_of_weight has] at mem
    simp only [List.mem_append, List.mem_cons] at mem
    rcases mem with (name | before) | rfl | after | param
    · exact .inr (.inr (isInner name))
    · exact .inl (weight.ows_before c before)
    · exact .inr (.inl rfl)
    · exact .inl (weight.ows_after c after)
    · exact .inr (.inr (weight.isInner param))

lemma Weight.trimmed_param : Trimmed weight.param :=
  .of_forall fun _ mem => (weight.isInner mem).isWhitespace_eq_false

lemma Coding.trimmed_name : Trimmed coding.name :=
  .of_forall fun _ mem => (isInner mem).isWhitespace_eq_false

lemma Coding.trimmed_text : Trimmed coding.text := by
  constructor
  · intro c head
    rw [text, List.head?_append_of_ne_nil _ coding.ne_nil] at head
    exact coding.trimmed_name.first c head
  · intro c last
    rcases has : coding.weight with _ | weight
    · rw [text_of_none has] at last
      exact coding.trimmed_name.last c last
    · have ne : weight.param ≠ [] := List.cons_ne_nil _ _
      rw [text_of_weight has, List.append_cons, ← List.append_assoc,
        List.getLast?_append_of_ne_nil _ ne] at last
      exact weight.trimmed_param.last c last

lemma Coding.comma_not_mem_text : ',' ∉ coding.text := by
  intro mem
  rcases coding.mem_text mem with (h | h) | h | inner
  · cases h
  · cases h
  · cases h
  · exact inner.ne_comma rfl

/-- The weight that is read of a parameter: only a lower-case `q` is recognised. -/
lemma quality_param (reads : codecs.ReadsWeights) :
    (weight.param.splitOn ';').findSome? (fun param =>
      if "q=".toList <+: trim param then codecs.parseF32 (trim ((trim param).drop 2)) else none) =
    if weight.upper then none else some (decide (¬ weight.value.IsZero)) := by
  have whole : ';' ∉ weight.param := fun mem => (weight.isInner mem).ne_semicolon rfl
  have value : Trimmed weight.value.text :=
    .of_forall fun _ mem => (QValue.isInner mem).isWhitespace_eq_false
  rw [List.splitOn_eq_singleton whole, List.findSome?_singleton,
    trim_of_trimmed Weight.trimmed_param]
  rcases upper : weight.upper with _ | _
  · have lower : weight.param = "q=".toList ++ weight.value.text := by
      rw [Weight.param, upper]
      rfl
    have dropped : ("q=".toList ++ weight.value.text).drop 2 = weight.value.text := rfl
    rw [lower, if_pos (List.prefix_append _ _), dropped, trim_of_trimmed value, reads]
    rfl
  · rw [if_neg]
    · rfl
    · intro lower
      rw [Weight.param, upper] at lower
      cases (List.cons_prefix_cons.mp lower).1

/-- What an entry says of zstd. -/
lemma zstdAccepted_text (reads : codecs.ReadsWeights) {place : Place Coding}
    (element : place.element = some coding) :
    zstdAccepted codecs (place.text Coding.text) =
      if coding.name = "zstd".toList then some (decide coding.Passes) else none := by
  have trimmed : trim (place.text Coding.text) = coding.text := by
    rw [Place.trim_text fun coding => coding.trimmed_text, element]
    rfl
  rw [zstdAccepted, trimmed]
  rcases has : coding.weight with _ | weight
  · have whole : ';' ∉ coding.name := fun mem => (Coding.isInner mem).ne_semicolon rfl
    have passes : coding.Passes := by
      rw [Coding.Passes, has]
      exact nofun
    rw [Coding.text_of_none has, splitOnce_eq_none.mpr whole, decide_eq_true passes]
    exact ite_not ..
  · have before : ';' ∉ coding.name ++ weight.before :=
      List.not_mem_append (fun mem => (Coding.isInner mem).ne_semicolon rfl)
        (weight.ows_before.not_mem (by decide) (by decide))
    have cut : splitOnce [';'] coding.text =
        some (coding.name ++ weight.before, weight.after ++ weight.param) :=
      splitOnce_singleton.mpr ⟨Coding.text_of_weight has, before⟩
    have name : trim (coding.name ++ weight.before) = coding.name :=
      trim_padded isOws_nil weight.ows_before coding.trimmed_name
    have param : trim (weight.after ++ weight.param) = weight.param := by
      have padded := trim_padded weight.ows_after isOws_nil weight.trimmed_param
      rwa [List.append_nil] at padded
    have passes : coding.Passes ↔ (weight.upper = false → ¬ weight.value.IsZero) := by
      rw [Coding.Passes, has]
      simp
    rw [cut]
    simp only [name, param, Option.bind_some, quality_param reads, passes]
    by_cases zstd : coding.name = "zstd".toList
    · rw [if_neg (not_not.mpr zstd), if_pos zstd]
      rcases weight.upper with _ | _ <;> simp
    · rw [if_pos zstd, if_neg zstd]

/-- A place without an entry says nothing. -/
lemma zstdAccepted_of_ows {text : List Char} (ows : IsOws text) :
    zstdAccepted codecs text = none := by
  rw [zstdAccepted, trim_of_ows ows]
  rfl

end Entries

/-! ## Lines -/

section Lines

variable {codecs : Codecs} {places : AcceptEncoding} {headers : HeaderMap}
  {lines : List AcceptEncoding}

/-- There is no comma within a place. -/
lemma exists_part_place {P : List Char → Prop} {Q : Coding → Prop}
    (blank : ∀ {text}, IsOws text → ¬ P text)
    (entry : ∀ {place : Place Coding} {coding}, place.element = some coding →
      (P (place.text Coding.text) ↔ Q coding)) (place : Place Coding) :
    (∃ part ∈ (place.text Coding.text).splitOn ',', P part) ↔
      ∃ coding ∈ place.element, Q coding := by
  rcases element : place.element with _ | coding
  · have ows : IsOws (place.text Coding.text) := Place.isOws_text element
    rw [List.splitOn_eq_singleton (comma_not_mem_ows ows)]
    simp [blank ows]
  · have whole : ',' ∉ place.text Coding.text := by
      rw [Place.text, element]
      exact List.not_mem_append (comma_not_mem_ows place.ows_before)
        (List.not_mem_append coding.comma_not_mem_text (comma_not_mem_ows place.ows_after))
    rw [List.splitOn_eq_singleton whole]
    simp [entry element]

/-- The answers of the entries of a line. -/
lemma mem_answers (reads : codecs.ReadsWeights) {answer : Bool} :
    answer ∈ ((listText Coding.text places).splitOn ',').filterMap (zstdAccepted codecs) ↔
      ∃ coding ∈ elements places, coding.IsSpelled ∧ decide coding.Passes = answer := by
  rw [List.mem_filterMap]
  have blank : ∀ {text}, IsOws text → zstdAccepted codecs text ≠ some answer := by
    intro text ows
    rw [zstdAccepted_of_ows ows]
    exact (Option.some_ne_none answer).symm
  refine exists_part_iff (blank isOws_nil) (exists_part_place blank ?_)
  intro place coding element
  rw [zstdAccepted_text reads element, Coding.IsSpelled, Option.ite_none_right_eq_some,
    Option.some_inj]

/-- Rust `to_str` reads the line. -/
lemma toStr_value : toStr (AcceptEncoding.value places) = some (listText Coding.text places) := by
  have spec : ∀ c ∈ listText Coding.text places, isVisible c ∧ c.toNat < 256 := by
    intro c mem
    by_cases comma : c = ','
    · rw [comma]
      decide
    · rcases mem_listText comma mem with (rfl | rfl) | ⟨coding, -, mem⟩
      · decide
      · decide
      · rcases coding.mem_text mem with (rfl | rfl) | rfl | inner
        · decide
        · decide
        · decide
        · have lt := inner.lt
          exact ⟨isVisible_of_range (Nat.le_of_succ_le inner.ge) lt, by omega⟩
  have visible : (listText Coding.text places).all isVisible = true :=
    List.all_eq_true.mpr fun c mem => (spec c mem).1
  rw [AcceptEncoding.value, toStr_bytes fun c mem => (spec c mem).2, if_pos visible]

/-- Without parameters an entry that is `zstd` is looked for. -/
lemma any_trim_eq (plain : ';' ∉ listText Coding.text places) :
    ((listText Coding.text places).splitOn ',').any (fun part => trim part = "zstd".toList) = true ↔
      Chosen (elements places) := by
  have bare : ∀ coding ∈ elements places, coding.weight = none := by
    intro coding mem
    rw [Option.eq_none_iff_forall_ne_some]
    intro weight has
    refine plain (mem_listText_of_mem (by decide) mem ?_)
    rw [Coding.text_of_weight has]
    exact List.mem_append_right _ List.mem_cons_self
  have passes : ∀ coding ∈ elements places, coding.IsSpelled → coding.Passes := by
    intro coding mem _ weight has
    rw [bare coding mem] at has
    cases has
  have blank : ∀ {text}, IsOws text → trim text ≠ "zstd".toList := by
    intro text ows
    rw [trim_of_ows ows]
    decide
  have entry : ∀ {place : Place Coding} {coding}, place.element = some coding →
      (trim (place.text Coding.text) = "zstd".toList ↔ coding.text = "zstd".toList) := by
    intro place coding element
    rw [Place.trim_text fun coding => coding.trimmed_text, element]
    rfl
  simp only [List.any_eq_true, decide_eq_true_eq]
  rw [exists_part_iff (blank isOws_nil) (exists_part_place blank entry), Chosen,
    and_iff_left passes]
  refine exists_congr fun coding => and_congr_right fun mem => ?_
  rw [Coding.text_of_none (bare coding mem), Coding.IsSpelled]

/-- What is chosen for a line. -/
lemma negotiateEncoding_iff (reads : codecs.ReadsWeights) :
    negotiateEncoding codecs (AcceptEncoding.value places) = .zstd ↔ Chosen (elements places) := by
  rw [negotiateEncoding, toStr_value]
  dsimp only
  by_cases semicolon : ';' ∈ listText Coding.text places
  · have other : listText Coding.text places ≠ "zstd".toList := by
      intro eq
      rw [eq] at semicolon
      exact absurd semicolon (by decide)
    have passing : (true ∈ ((listText Coding.text places).splitOn ',').filterMap
        (zstdAccepted codecs)) ↔ ∃ coding ∈ elements places, coding.IsSpelled ∧ coding.Passes := by
      simp only [mem_answers reads, decide_eq_true_eq]
    have refusing : (false ∈ ((listText Coding.text places).splitOn ',').filterMap
        (zstdAccepted codecs)) ↔
        ∃ coding ∈ elements places, coding.IsSpelled ∧ ¬ coding.Passes := by
      simp only [mem_answers reads, decide_eq_false_iff_not]
    rw [if_neg other, if_neg (not_not.mpr semicolon)]
    by_cases refused : ∃ coding ∈ elements places, coding.IsSpelled ∧ ¬ coding.Passes
    · rw [if_pos (refusing.mpr refused)]
      obtain ⟨coding, mem, spelled, fails⟩ := refused
      exact iff_of_false Encoding.noConfusion fun chosen => fails (chosen.2 coding mem spelled)
    · have all : ∀ coding ∈ elements places, coding.IsSpelled → coding.Passes := by
        simpa using refused
      have some_iff : Chosen (elements places) ↔
          ∃ coding ∈ elements places, coding.IsSpelled ∧ coding.Passes := by
        rw [Chosen, and_iff_left all]
        exact exists_congr fun coding => and_congr_right fun mem =>
          (and_iff_left_of_imp (all coding mem)).symm
      rw [if_neg (mt refusing.mp refused), some_iff, ← passing]
      split
      next accepted => exact iff_of_true rfl accepted
      next accepted => exact iff_of_false Encoding.noConfusion accepted
  · rw [if_pos semicolon, ← any_trim_eq semicolon]
    by_cases whole : listText Coding.text places = "zstd".toList
    · rw [if_pos whole, whole]
      exact iff_of_true rfl (by decide)
    · rw [if_neg whole]
      split
      next found => exact iff_of_true rfl found
      next found => exact iff_of_false Encoding.noConfusion found

/-- What is chosen for a request: only its first line counts. -/
lemma acceptedEncoding_iff (reads : codecs.ReadsWeights) (accepts : Accepts headers lines) :
    acceptedEncoding codecs headers = .zstd ↔ Chosen (elements (lines.headD [])) := by
  rw [acceptedEncoding, HeaderMap.get_eq_head?_getAll, accepts, List.head?_map]
  rcases lines with _ | ⟨places, lines⟩
  · refine iff_of_false Encoding.noConfusion ?_
    rintro ⟨⟨coding, mem, -⟩, -⟩
    cases mem
  · exact negotiateEncoding_iff reads

/-- The choice does not depend on the order. -/
lemma Chosen.perm {codings codings' : List Coding} (perm : codings.Perm codings') :
    Chosen codings ↔ Chosen codings' := by
  simp only [Chosen, perm.mem_iff]

end Lines

/-! ## Answers -/

/-- The encoding of an answer. -/
def Response.encoding (response : Response) : Option (List UInt8) :=
  response.headers.get "content-encoding"

/-- The pages of a surface were made by its constructors. -/
def Surface.Built (codecs : Codecs) : Surface → Prop
  | .serve _ (some cache) =>
    ∀ key page, cache key = some page → ∃ filename body, page = .new codecs filename body
  | .serve _ none | .projection _ => True

section Answers

variable {codecs : Codecs} {headers : HeaderMap} {status : Nat} {response : Response} {skip : Bool}

/-- A page of the serve surface is encoded if zstd is chosen. -/
lemma CachedPage.servePage_zstd {page : CachedPage} {zstd : List UInt8}
    (changed : ifNoneMatchMatches headers page.etag = false)
    (chosen : acceptedEncoding codecs headers = .zstd) (has : page.body.zstd = some zstd) :
    page.servePage codecs headers status skip = ⟨status, page.headersZstd, zstd⟩ := by
  have sent : ¬ (skip = false ∧ ifNoneMatchMatches headers page.etag = true) := by
    rw [changed]
    exact fun unchanged => Bool.false_ne_true unchanged.2
  rw [servePage, if_neg sent, chosen, variant_zstd has]

/-- It is encoded only then. -/
lemma CachedPage.servePage_encoding {filename : List Char} {body : List UInt8}
    (identity : acceptedEncoding codecs headers ≠ .zstd) :
    ((CachedPage.new codecs filename body).servePage codecs headers status skip).encoding =
      none := by
  have raw : (CachedPage.new codecs filename body).headersRaw.get "content-encoding" = none := by
    have eq : (CachedPage.new codecs filename body).headersRaw =
        withSvgCsp (withVary (sentHeaders codecs filename body body)
          (precompressed codecs filename body).isSome) (contentTypeForExt (extension filename)) :=
      rfl
    rw [eq, get_withSvgCsp_of_ne (by decide), get_withVary_of_ne (by decide), sentHeaders_encoding]
  rw [servePage]
  split
  · exact get_notModifiedHeaders_eq_none (by decide)
  · rw [variant_raw fun zstd => absurd zstd identity]
    rcases (CachedPage.new codecs filename body).body.identityBytes codecs with _ | served
    · rfl
    · exact raw

/-- Without `zstd` the page is sent as it is. -/
lemma PageEntry.servePage_encoding {page : PageEntry}
    (identity : acceptedEncoding codecs headers ≠ .zstd) :
    (page.servePage codecs headers status).encoding = none := by
  have plain : page.bodyZstd.filter (fun _ => acceptedEncoding codecs headers = .zstd) = none := by
    rw [Option.filter_eq_none_iff]
    intro zstd _
    simpa using identity
  rw [servePage, plain]
  split
  · exact get_notModifiedHeaders_eq_none (by decide)
  · show (withVary _ _).get "content-encoding" = none
    rw [get_withVary_of_ne (by decide), get_withLength_of_ne (by decide),
      get_pageHeaders_eq_none (by decide)]

lemma securityHeaders_encoding {csp : List UInt8} :
    (securityHeaders csp response).encoding = response.encoding := by
  rw [securityHeaders, Response.encoding, HeaderMap.get_insert_of_ne (by decide),
    HeaderMap.get_insert_of_ne (by decide), HeaderMap.get_insert_of_ne (by decide)]
  split
  · simp [Response.encoding]
  · simp [Response.encoding]

lemma projectionDefaultCsp_encoding :
    (projectionDefaultCsp response).encoding = response.encoding := by
  rw [projectionDefaultCsp]
  split
  · rfl
  · exact HeaderMap.get_insert_of_ne (by decide)

/-- No answer is encoded unless zstd is chosen. -/
lemma respond_encoding {surface : Surface} (built : surface.Built codecs) {request : Request}
    (identity : acceptedEncoding codecs request.headers ≠ .zstd) :
    (surface.respond codecs request).encoding = none := by
  match surface with
  | .serve options cache =>
    rw [Surface.respond, securityHeaders_encoding, cacheFallback]
    split
    · rfl
    · split
      · rfl
      · split
        · rfl
        · split
          · rfl
          next cache =>
            have encoding : ∀ {key page}, cache key = some page → ∀ status skip,
                (page.servePage codecs request.headers status skip).encoding = none := by
              intro key page found status skip
              obtain ⟨filename, body, rfl⟩ := built key page found
              exact CachedPage.servePage_encoding identity
            split
            next found => exact encoding found 200 false
            next =>
              split
              next found =>
                obtain ⟨errorKey, -, found⟩ := Option.bind_eq_some_iff.mp found
                exact encoding found 404 true
              next => rfl
  | .projection snapshot =>
    rw [Surface.respond, projectionDefaultCsp_encoding]
    unfold snapshotGet
    split
    · rfl
    · split
      · rfl
      · split
        · exact PageEntry.servePage_encoding identity
        · rfl

end Answers

/-! ## Refusals -/

/-- No answer to a request with these lines is encoded unless that is wanted. -/
def Respected (codecs : Codecs) (lines : List AcceptEncoding) : Prop :=
  ∀ headers, Accepts headers lines → ∀ surface : Surface, surface.Built codecs → ∀ method key,
    (surface.respond codecs ⟨method, key, headers⟩).encoding = some (bytes "zstd") →
      Wanted (listed lines)

/-- A refusal that is overlooked. -/
def Overlooked (lines : List AcceptEncoding) : Prop :=
  Chosen (elements (lines.headD [])) ∧ ∃ coding ∈ listed lines, coding.IsZstd ∧ coding.IsZero

instance Overlooked.decidable : DecidablePred Overlooked := fun lines =>
  inferInstanceAs (Decidable (Chosen (elements (lines.headD [])) ∧
    ∃ coding ∈ listed lines, coding.IsZstd ∧ coding.IsZero))

/-- The choice depends on the codings that are listed, and not on their order. -/
def OrderFree (codecs : Codecs) (lines : List AcceptEncoding) : Prop :=
  ∀ lines', (listed lines).Perm (listed lines') →
    ∀ headers headers', Accepts headers lines → Accepts headers' lines' →
      acceptedEncoding codecs headers = acceptedEncoding codecs headers'

/-- No coding that is listed in any line is spelled `zstd` and not seen to be refused. -/
def Steady (lines : List AcceptEncoding) : Prop :=
  ∀ coding ∈ listed lines, coding.IsSpelled → ¬ coding.Passes

instance Steady.decidable : DecidablePred Steady := fun lines =>
  inferInstanceAs (Decidable (∀ coding ∈ listed lines, coding.IsSpelled → ¬ coding.Passes))

/-- A surface with one page. -/
def servedOnly (codecs : Codecs) (body : List UInt8) : Surface :=
  .serve ⟨none, none, false⟩ (some fun _ => some (.new codecs "a.html".toList body))

def projectedOnly (codecs : Codecs) (body : List UInt8) : Surface :=
  .projection (some fun _ => some (.new codecs "a.html".toList body))

/-- A request with these lines and nothing else. -/
def requestOf (lines : List AcceptEncoding) : Request :=
  ⟨"GET", some "a.html", lines.map fun places => ("accept-encoding", places.value)⟩

section Refusals

variable {codecs : Codecs} {body : List UInt8} {lines : List AcceptEncoding}

lemma accepts_requestOf : Accepts (requestOf lines).headers lines := by
  rw [Accepts, HeaderMap.getAll, requestOf, List.filterMap_map, ← List.filterMap_eq_map]
  rfl

lemma ifNoneMatchMatches_requestOf {etag : List UInt8} :
    ifNoneMatchMatches (requestOf lines).headers etag = false := by
  have none : (requestOf lines).headers.getAll "if-none-match" = [] := by
    rw [HeaderMap.getAll, requestOf, List.filterMap_map, List.filterMap_eq_nil_iff]
    intro places _
    rfl
  rw [ifNoneMatchMatches, none]
  rfl

lemma built_servedOnly : (servedOnly codecs body).Built codecs := by
  rintro key page ⟨⟩
  exact ⟨_, _, rfl⟩

lemma precompressed_html (compresses : (compressZstd codecs body).isSome) :
    ∃ zstd, precompressed codecs "a.html".toList body = some zstd := by
  rw [precompressed, if_pos (by decide)]
  exact Option.isSome_iff_exists.mp compresses

/-- A chosen encoding is sent. -/
lemma servedOnly_encoding (compresses : (compressZstd codecs body).isSome)
    (zstd : acceptedEncoding codecs (requestOf lines).headers = .zstd) :
    ((servedOnly codecs body).respond codecs (requestOf lines)).encoding = some (bytes "zstd") := by
  obtain ⟨sent, has⟩ := precompressed_html compresses
  have answer : cacheFallback codecs ⟨none, none, false⟩
      (some fun _ => some (.new codecs "a.html".toList body)) (requestOf lines) =
      (CachedPage.new codecs "a.html".toList body).servePage codecs (requestOf lines).headers 200
        false := by
    rw [cacheFallback, if_neg fun method => method.1 rfl]
    rfl
  rw [servedOnly, Surface.respond, securityHeaders_encoding, answer,
    CachedPage.servePage_zstd ifNoneMatchMatches_requestOf zstd (CachedPage.zstd_new.trans has),
    Response.encoding, CachedPage.headersZstd_new has,
    get_withSvgCsp_of_ne (by decide), get_withVary_of_ne (by decide), HeaderMap.get_insert_self]

lemma projectedOnly_encoding (compresses : (compressZstd codecs body).isSome)
    (zstd : acceptedEncoding codecs (requestOf lines).headers = .zstd) :
    ((projectedOnly codecs body).respond codecs (requestOf lines)).encoding =
      some (bytes "zstd") := by
  obtain ⟨sent, has⟩ := precompressed_html compresses
  have answer : (projectedOnly codecs body).respond codecs (requestOf lines) =
      projectionDefaultCsp ((PageEntry.new codecs "a.html".toList body).servePage codecs
        (requestOf lines).headers 200) := rfl
  have encoded : sentZstd codecs "a.html".toList body (requestOf lines).headers = some sent := by
    rw [sentZstd, has]
    exact Option.filter_some_pos (decide_eq_true zstd)
  rw [answer, projectionDefaultCsp_encoding, PageEntry.servePage_new, representation,
    ifNoneMatchMatches_requestOf, if_neg Bool.false_ne_true, encoded, Response.encoding,
    get_withVary_of_ne (by decide), HeaderMap.get_insert_self]

lemma Coding.IsSpelled.isZstd {coding : Coding} (spelled : coding.IsSpelled) : coding.IsZstd := by
  rw [Coding.IsZstd, spelled]
  decide

lemma mem_listed {coding : Coding} (mem : coding ∈ elements (lines.headD [])) :
    coding ∈ listed lines := by
  rcases lines with _ | ⟨places, lines⟩
  · cases mem
  · exact List.mem_append_left _ mem

/-- Zstd is not chosen when no line has a coding that passes. -/
lemma Steady.not_chosen (steady : Steady lines) : ¬ Chosen (elements (lines.headD [])) := by
  rintro ⟨⟨coding, mem, spelled⟩, passes⟩
  exact steady coding (mem_listed mem) spelled (passes coding mem spelled)

/-- There are two choices. -/
lemma acceptedEncoding_congr {headers headers' : HeaderMap}
    (iff : acceptedEncoding codecs headers = .zstd ↔ acceptedEncoding codecs headers' = .zstd) :
    acceptedEncoding codecs headers = acceptedEncoding codecs headers' := by
  rcases left : acceptedEncoding codecs headers with _ | _
  · exact (iff.mp left).symm
  · rcases right : acceptedEncoding codecs headers' with _ | _
    · cases left.symm.trans (iff.mpr right)
    · rfl

/-- The elements of a plain list. -/
lemma elements_map_of (codings : List Coding) : elements (codings.map .of) = codings := by
  rw [elements, List.filterMap_map]
  exact List.filterMap_some

/-- Refusals are respected exactly if none is overlooked. -/
lemma respected_iff (reads : codecs.ReadsWeights) (compresses : (compressZstd codecs body).isSome) :
    Respected codecs lines ↔ ¬ Overlooked lines := by
  constructor
  · rintro respected ⟨chosen, coding, mem, zstd, zero⟩
    have accepted := (acceptedEncoding_iff reads accepts_requestOf).mpr chosen
    have wanted := respected _ accepts_requestOf _ built_servedOnly _ _
      (servedOnly_encoding compresses accepted)
    exact wanted.2 coding mem zstd zero
  · intro overlooked headers accepts surface built method key encoded
    have accepted : acceptedEncoding codecs headers = .zstd := by
      by_contra identity
      rw [respond_encoding built identity] at encoded
      cases encoded
    have chosen := (acceptedEncoding_iff reads accepts).mp accepted
    have refused : ∀ coding ∈ listed lines, coding.IsZstd → ¬ coding.IsZero :=
      fun coding mem zstd zero => overlooked ⟨chosen, coding, mem, zstd, zero⟩
    obtain ⟨coding, mem, spelled⟩ := chosen.1
    have accepted := refused coding (mem_listed mem) spelled.isZstd
    exact ⟨⟨coding, mem_listed mem, spelled.isZstd, accepted⟩, refused⟩

/-- A coding that passes is chosen if it has the first line for itself, and not if that line is
empty. -/
lemma orderFree_iff (reads : codecs.ReadsWeights) : OrderFree codecs lines ↔ Steady lines := by
  constructor
  · intro free coding mem spelled passes
    obtain ⟨before, after, eq⟩ := List.append_of_mem mem
    let first : List AcceptEncoding := [[.of coding], (before ++ after).map .of]
    let last : List AcceptEncoding := [[], (listed lines).map .of]
    have toFirst : (listed lines).Perm (listed first) := by
      have all : listed first = coding :: (elements ((before ++ after).map .of) ++ []) := rfl
      rw [all, elements_map_of, List.append_nil, eq]
      exact List.perm_middle
    have toLast : (listed lines).Perm (listed last) := by
      have all : listed last = elements ((listed lines).map .of) ++ [] := rfl
      rw [all, elements_map_of, List.append_nil]
    have chosen : Chosen (elements (first.headD [])) := by
      refine ⟨⟨coding, List.mem_singleton_self _, spelled⟩, fun other mem _ => ?_⟩
      rw [List.mem_singleton.mp mem]
      exact passes
    have zstd := (acceptedEncoding_iff reads accepts_requestOf).mpr chosen
    rw [← free first toFirst _ _ accepts_requestOf accepts_requestOf,
      free last toLast _ _ accepts_requestOf accepts_requestOf,
      acceptedEncoding_iff reads accepts_requestOf] at zstd
    obtain ⟨_, mem, _⟩ := zstd.1
    cases mem
  · intro steady lines' perm headers headers' accepts accepts'
    have steady' : Steady lines' := fun coding mem => steady coding (perm.mem_iff.mpr mem)
    refine acceptedEncoding_congr ?_
    rw [acceptedEncoding_iff reads accepts, acceptedEncoding_iff reads accepts']
    exact iff_of_false steady.not_chosen steady'.not_chosen

/-- When refusals are respected and the order of the codings does not matter: exactly if no line has
a coding that passes. Refusals alone are respected exactly if none is overlooked, and within the
first line, which is all that counts, the order never matters. -/
theorem refusals_respected_iff (reads : codecs.ReadsWeights) (body : List UInt8)
    (compresses : (compressZstd codecs body).isSome) (lines : List AcceptEncoding) :
    (Respected codecs lines ∧ OrderFree codecs lines ↔ Steady lines) ∧
    (Respected codecs lines ↔ ¬ Overlooked lines) ∧
    (OrderFree codecs lines ↔ Steady lines) ∧
    ∀ lines' : List AcceptEncoding,
      (elements (lines.headD [])).Perm (elements (lines'.headD [])) →
      ∀ headers headers', Accepts headers lines → Accepts headers' lines' →
        acceptedEncoding codecs headers = acceptedEncoding codecs headers' := by
  refine ⟨?_, respected_iff reads compresses, orderFree_iff reads, ?_⟩
  · rw [respected_iff reads compresses, orderFree_iff reads]
    exact and_iff_right_of_imp fun steady overlooked => steady.not_chosen overlooked.1
  · intro lines' perm headers headers' accepts accepts'
    refine acceptedEncoding_congr ?_
    rw [acceptedEncoding_iff reads accepts, acceptedEncoding_iff reads accepts', Chosen.perm perm]

/-- Rust's `f32` parser reads weights. -/
lemma readsWeights_of_parsePositive (floats : codecs.parseF32 = parsePositive) :
    codecs.ReadsWeights := by
  intro value
  have digits : ∀ c ∈ value.decimals.getD [], c.isDigit := by
    intro c mem
    have digit := value.digits c mem
    split at digit
    · rw [digit]
      rfl
    · exact digit
  have few : (value.decimals.getD []).length ≤ 45 := le_trans value.short (by decide)
  have whole : IsNumeral [if value.one then '1' else '0'] := by
    cases value.one
    · exact ⟨List.cons_ne_nil _ _, List.forall_mem_singleton.mpr rfl⟩
    · exact ⟨List.cons_ne_nil _ _, List.forall_mem_singleton.mpr rfl⟩
  have text : value.text = [if value.one then '1' else '0'] ++ pointed value.decimals := rfl
  rw [floats, text, parsePositive_decimal whole digits few, Option.some_inj, Bool.eq_iff_iff,
    decide_eq_true_eq, QValue.IsZero]
  cases value.one <;> simp

/-- A codec that stores, with the standard library's parser of floats. -/
def weighing : Codecs := { stored with parseF32 := parsePositive }

lemma readsWeights_weighing : weighing.ReadsWeights := readsWeights_of_parsePositive rfl

/-- A name in letters, with an optional weight of zero in this spelling. -/
def Coding.of (name : String) (letters : name.toList ≠ [] ∧ ∀ c ∈ name.toList, isTchar c)
    (refusal : Option Bool) : Coding where
  name := name.toList
  weight := refusal.map fun upper =>
    ⟨[], [], upper, ⟨false, none, Nat.zero_le 3, fun _ mem => absurd mem List.not_mem_nil⟩,
      isOws_nil, isOws_nil⟩
  ne_nil := letters.1
  token := letters.2

lemma letters_zstd : "zstd".toList ≠ [] ∧ ∀ c ∈ "zstd".toList, isTchar c :=
  ⟨List.cons_ne_nil _ _, List.all_eq_true.mp rfl⟩

lemma letters_shouted : "ZSTD".toList ≠ [] ∧ ∀ c ∈ "ZSTD".toList, isTchar c :=
  ⟨List.cons_ne_nil _ _, List.all_eq_true.mp rfl⟩

lemma letters_gzip : "gzip".toList ≠ [] ∧ ∀ c ∈ "gzip".toList, isTchar c :=
  ⟨List.cons_ne_nil _ _, List.all_eq_true.mp rfl⟩

/-- `zstd` -/
def zstdEntry : Place Coding := .of (.of "zstd" letters_zstd none)

/-- `gzip` -/
def gzipEntry : Place Coding := .of (.of "gzip" letters_gzip none)

/-- `zstd;q=0` -/
def zstdRefused : Place Coding := .of (.of "zstd" letters_zstd (some false))

/-- `ZSTD;q=0` -/
def shoutedRefused : Place Coding := .of (.of "ZSTD" letters_shouted (some false))

/-- `zstd;Q=0` -/
def upperRefused : Place Coding := .of (.of "zstd" letters_zstd (some true))

/-- Requests whose refusal is overlooked: in another line, of another spelling, with another
spelling of the parameter. -/
def overlookedLines : List (List AcceptEncoding) :=
  [[[zstdEntry], [zstdRefused]], [[zstdEntry, shoutedRefused]], [[upperRefused]]]

/-- A client that refuses zstd in one line and names another coding in the next. -/
theorem refusals_respected_refused :
    weighing.ReadsWeights ∧ (compressZstd weighing []).isSome ∧
      Respected weighing [[zstdRefused, gzipEntry], [shoutedRefused]] ∧
      OrderFree weighing [[zstdRefused, gzipEntry], [shoutedRefused]] ∧
      Respected weighing [[zstdEntry, gzipEntry, zstdRefused]] := by
  have steady : Steady [[zstdRefused, gzipEntry], [shoutedRefused]] := by decide
  have seen : ¬ Overlooked [[zstdEntry, gzipEntry, zstdRefused]] := by decide
  have both := (refusals_respected_iff readsWeights_weighing [] rfl _).1.mpr steady
  exact ⟨readsWeights_weighing, rfl, both.1, both.2,
    (refusals_respected_iff readsWeights_weighing [] rfl _).2.1.mpr seen⟩

/-- A client that refuses zstd receives it, and the order of the lines decides about the choice. -/
theorem refusal_overlooked :
    (∀ lines ∈ overlookedLines, ∀ surface ∈ [servedOnly weighing [], projectedOnly weighing []],
      (surface.respond weighing (requestOf lines)).encoding = some (bytes "zstd") ∧
        ∃ coding ∈ listed lines, coding.IsZstd ∧ coding.IsZero) ∧
    (listed [[zstdEntry], [gzipEntry]]).Perm (listed [[gzipEntry], [zstdEntry]]) ∧
    acceptedEncoding weighing (requestOf [[zstdEntry], [gzipEntry]]).headers = .zstd ∧
    acceptedEncoding weighing (requestOf [[gzipEntry], [zstdEntry]]).headers = .identity := by
  have overlooked : ∀ lines ∈ overlookedLines, Overlooked lines := by decide
  have chosen : ∀ {lines}, Chosen (elements (lines.headD [])) →
      acceptedEncoding weighing (requestOf lines).headers = .zstd := fun chosen =>
    (acceptedEncoding_iff readsWeights_weighing accepts_requestOf).mpr chosen
  refine ⟨?_, List.Perm.swap _ _ _, chosen (by decide), by decide⟩
  intro lines mem surface shown
  obtain ⟨first, refused⟩ := overlooked lines mem
  refine ⟨?_, refused⟩
  simp only [List.mem_cons, List.not_mem_nil, or_false] at shown
  rcases shown with rfl | rfl
  · exact servedOnly_encoding rfl (chosen first)
  · exact projectedOnly_encoding rfl (chosen first)

end Refusals

end CherryPit.Web
