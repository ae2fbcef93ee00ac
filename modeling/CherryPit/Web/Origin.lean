import CherryPit.Web.Authority
import CherryPit.Web.Headers

/-!
# The origin check of a WebSocket upgrade

`validate_ws_origin` decides from the `Origin` and `Host` headers whether a WebSocket upgrade may go
on: the authority of the origin and the host are parsed and compared.

The parser accepts spellings that are no unambiguous authorities, and drops the brackets and the
plus signs that make them so. The check admits exactly the upgrades it is for if and only if no such
spelling makes an origin and a host match (`same_origin_iff`).
-/

namespace CherryPit.Web

inductive WebSocketOriginPolicy where
  | strict
  | allowAbsent
  deriving DecidableEq

/-- The default port of a scheme. -/
def defaultPort (scheme : List Char) : Option Nat :=
  if toAsciiLowercase scheme = "https".toList then some 443
  else if toAsciiLowercase scheme = "http".toList then some 80
  else none

/-- The default port and the authority of an origin. -/
def splitOrigin (origin : List Char) : Option (Nat × List Char) := do
  let (scheme, afterScheme) ← splitOnce "://".toList origin
  let port ← defaultPort scheme
  return (port, match splitOnce ['/'] afterScheme with
    | some (head, _) => head
    | none => afterScheme)

def validateWsOrigin (headers : HeaderMap) (policy : WebSocketOriginPolicy) : Bool :=
  match headers.get "origin" with
  | none => policy = .allowAbsent
  | some origin =>
    let same := do
      let originStr ← toStr origin
      let (port, originAuthority) ← splitOrigin originStr
      let hostHdr ← headers.get "host"
      let hostStr ← toStr hostHdr
      let origin ← Authority.parse originAuthority port
      let host ← Authority.parse hostStr port
      return decide (origin = host)
    same.getD false

/-! ## Same origin -/

/-- The text of a host, brackets included, that can be taken in one way only. -/
def HostText (host : List Char) : Prop :=
  (∃ inner, host = '[' :: (inner ++ [']']) ∧ isIpv6 inner) ∨
    (host ≠ [] ∧ ∀ c ∈ host, c ∉ ['@', ':', '[', ']'])

/-- An unambiguous authority, with its host and its port. -/
def Unambiguous (raw host : List Char) (port : Option Nat) : Prop :=
  HostText host ∧
    ((raw = host ∧ port = none) ∨
      ∃ digits, raw = host ++ ':' :: digits ∧ IsNumeral digits ∧ decimal digits ≤ 65535 ∧
        port = some (decimal digits))

/-- An origin is `scheme://authority` or `scheme://authority/...`, under a scheme with a default
port. -/
def Names (origin : List Char) (default : Nat) (authority : List Char) : Prop :=
  ∃ scheme rest, origin = scheme ++ ("://".toList ++ (authority ++ rest)) ∧
    (toAsciiLowercase scheme = "https".toList ∧ default = 443 ∨
      toAsciiLowercase scheme = "http".toList ∧ default = 80) ∧
    '/' ∉ authority ∧ (rest = [] ∨ ∃ path, rest = '/' :: path)

/-- An origin and a host that are the same. -/
def SameOrigin (origin host : List Char) : Prop :=
  ∃ default authority h h' port port', Names origin default authority ∧
    Unambiguous authority h port ∧ Unambiguous host h' port' ∧
    toAsciiLowercase h = toAsciiLowercase h' ∧ port.getD default = port'.getD default

/-- What the check is for: a page of the same origin, or no page at all where that is allowed. -/
def Admissible (headers : HeaderMap) (policy : WebSocketOriginPolicy) : Prop :=
  match headers.get "origin" with
  | none => policy = .allowAbsent
  | some origin => ∃ host, headers.get "host" = some host ∧
      SameOrigin (asciiText origin) (asciiText host)

/-- An origin and a host whose hosts, but for brackets and case, and ports, but for plus signs, are
the same, while one of them has a plus sign or has brackets around no IPv6 literal. -/
def Confusable (origin host : List Char) : Prop :=
  ∃ default, ∃ s s' : Spelling, Names origin default s.text ∧ s'.text = host ∧
    s.Matches s' default ∧ ¬ (s.Regular ∧ s'.Regular)

/-- The values that are read are visible ASCII. -/
def VisibleAscii (headers : HeaderMap) : Prop :=
  ∀ name ∈ ["origin", "host"], ∀ value ∈ headers.get name, value.all isVisibleAscii

section SameOrigin

variable {raw host origin authority : List Char} {port : Option Nat} {s s' : Spelling} {d : Nat}

lemma hostText_iff :
    HostText host ↔ ∃ bracketed inner, host = brackets bracketed inner ∧ inner ≠ [] ∧
      ('@' ∉ inner ∧ '[' ∉ inner ∧ ']' ∉ inner) ∧ (bracketed = false → ':' ∉ inner) ∧
      (bracketed = true → isIpv6 inner) := by
  constructor
  · rintro (⟨inner, rfl, literal⟩ | ⟨ne, chars⟩)
    · have only {c : Char} (h : ipv6Char c = false) : c ∉ inner := by
        intro mem
        cases h.symm.trans (ipv6Char_of_isIpv6 literal mem)
      exact ⟨true, inner, rfl, List.ne_nil_of_mem (colon_mem_of_isIpv6 literal),
        ⟨only rfl, only rfl, only rfl⟩, nofun, fun _ => literal⟩
    · have none {c : Char} (h : c ∈ ['@', ':', '[', ']']) : c ∉ host := fun mem => chars c mem h
      exact ⟨false, host, rfl, ne, ⟨none (by decide), none (by decide), none (by decide)⟩,
        fun _ => none (by decide), nofun⟩
  · rintro ⟨bracketed, inner, rfl, ne, ⟨userinfo, opening, closing⟩, colon, literal⟩
    cases bracketed with
    | true => exact .inl ⟨inner, rfl, literal rfl⟩
    | false =>
      refine .inr ⟨ne, fun c mem special => ?_⟩
      simp only [List.mem_cons, List.not_mem_nil, or_false] at special
      rcases special with rfl | rfl | rfl | rfl
      · exact userinfo mem
      · exact colon rfl mem
      · exact opening mem
      · exact closing mem

/-- The unambiguous authorities are the regular spellings. -/
lemma unambiguous_iff :
    Unambiguous raw host port ↔
      ∃ s : Spelling, s.text = raw ∧ s.Regular ∧ s.hostText = host ∧
        (s.port.map fun p => decimal p.2) = port := by
  rw [Unambiguous, hostText_iff]
  constructor
  · rintro ⟨⟨bracketed, inner, rfl, ne, chars, colon, literal⟩, ⟨rfl, rfl⟩ |
      ⟨digits, rfl, numeral, le, rfl⟩⟩
    · exact ⟨⟨bracketed, inner, none, ne, chars, colon, nofun⟩, List.append_nil _,
        ⟨literal, nofun⟩, rfl, rfl⟩
    · refine ⟨⟨bracketed, inner, some (false, digits), ne, chars, colon, ?_⟩, rfl,
        ⟨literal, ?_⟩, rfl, rfl⟩
      · rintro p ⟨⟩
        exact ⟨numeral, le⟩
      · rintro p ⟨⟩
        rfl
  · rintro ⟨s, rfl, ⟨literal, unsigned⟩, rfl, rfl⟩
    refine ⟨⟨s.bracketed, s.host, rfl, s.host_ne, s.host_chars, s.host_colon, literal⟩, ?_⟩
    rcases eq : s.port with - | ⟨plus, digits⟩
    · have text : s.portText = none := by rw [Spelling.portText, eq]; rfl
      exact .inl ⟨by rw [Spelling.text, text, portPart, List.append_nil], rfl⟩
    · obtain ⟨numeral, le⟩ := s.port_digits _ eq
      have text : s.portText = some digits := by
        rw [Spelling.portText, eq, Option.map_some, unsigned _ eq]
        rfl
      exact .inr ⟨digits, by rw [Spelling.text, text, portPart], numeral, le, rfl⟩

lemma defaultPort_some {scheme : List Char} :
    defaultPort scheme = some d ↔
      (toAsciiLowercase scheme = "https".toList ∧ d = 443 ∨
        toAsciiLowercase scheme = "http".toList ∧ d = 80) := by
  rw [defaultPort]
  constructor
  · intro h
    split at h
    next https =>
      cases h
      exact .inl ⟨https, rfl⟩
    next =>
      split at h
      next http =>
        cases h
        exact .inr ⟨http, rfl⟩
      next => cases h
  · rintro (⟨https, rfl⟩ | ⟨http, rfl⟩)
    · exact if_pos https
    · have ne : toAsciiLowercase scheme ≠ "https".toList := http ▸ by decide
      rw [if_neg ne, if_pos http]

lemma splitOrigin_some : splitOrigin origin = some (d, authority) ↔ Names origin d authority := by
  constructor
  · intro h
    obtain ⟨⟨scheme, after⟩, cut, h⟩ := Option.bind_eq_some_iff.mp h
    obtain ⟨port, known, h⟩ := Option.bind_eq_some_iff.mp h
    obtain ⟨rfl, rfl⟩ := Prod.mk.inj (Option.some_inj.mp h)
    have eq := splitOnce_eq cut
    have scheme := defaultPort_some.mp known
    split
    next head path slash =>
      obtain ⟨rfl, absent⟩ := splitOnce_singleton.mp slash
      exact ⟨_, '/' :: path, eq, scheme, absent, .inr ⟨path, rfl⟩⟩
    next slash =>
      exact ⟨_, [], by rw [eq, List.append_nil], scheme, splitOnce_eq_none.mp slash, .inl rfl⟩
  · rintro ⟨scheme, rest, rfl, known, absent, tail⟩
    have colon : ':' ∉ scheme := by
      rw [← mem_toAsciiLowercase rfl]
      rcases known with ⟨eq, -⟩ | ⟨eq, -⟩ <;> rw [eq] <;> decide
    refine Option.bind_eq_some_iff.mpr ⟨_, splitOnce_append colon, ?_⟩
    refine Option.bind_eq_some_iff.mpr ⟨_, defaultPort_some.mpr known, ?_⟩
    obtain rfl | ⟨path, rfl⟩ := tail
    · show some (d, _) = _
      rw [List.append_nil, splitOnce_eq_none.mpr absent]
    · show some (d, _) = _
      rw [splitOnce_singleton.mpr ⟨rfl, absent⟩]

/-- An IPv6 literal has a colon, so its host is not the same as one without brackets. -/
lemma bracketed_le (h : s.Regular) (hosts : toAsciiLowercase s.host = toAsciiLowercase s'.host)
    (form : s.bracketed = true) : s'.bracketed = true := by
  by_contra plain
  have colon : ':' ∈ toAsciiLowercase s.host :=
    (mem_toAsciiLowercase rfl).mpr (colon_mem_of_isIpv6 (h.1 form))
  rw [hosts, mem_toAsciiLowercase rfl] at colon
  exact s'.host_colon (Bool.eq_false_of_not_eq_true plain) colon

/-- Between regular spellings, hosts are compared as with their brackets. -/
lemma matches_iff (h : s.Regular) (h' : s'.Regular) :
    s.Matches s' d ↔ toAsciiLowercase s.hostText = toAsciiLowercase s'.hostText ∧
      s.portOr d = s'.portOr d := by
  refine and_congr_left fun _ => ?_
  rw [Spelling.hostText, Spelling.hostText, toAsciiLowercase_brackets, toAsciiLowercase_brackets]
  constructor
  · intro hosts
    have form : s.bracketed = s'.bracketed := by
      rw [Bool.eq_iff_iff]
      exact ⟨bracketed_le h hosts, bracketed_le h' hosts.symm⟩
    rw [form, hosts]
  · exact brackets_inj (mt (mem_toAsciiLowercase rfl).mp s.host_chars.2.1)
      (mt (mem_toAsciiLowercase rfl).mp s'.host_chars.2.1)

lemma sameOrigin_iff :
    SameOrigin origin host ↔ ∃ default, ∃ s s' : Spelling, Names origin default s.text ∧
      s'.text = host ∧ s.Matches s' default ∧ s.Regular ∧ s'.Regular := by
  constructor
  · rintro ⟨d, authority, h, h', port, port', names, origin, host, hosts, ports⟩
    obtain ⟨s, rfl, regular, rfl, rfl⟩ := unambiguous_iff.mp origin
    obtain ⟨s', rfl, regular', rfl, rfl⟩ := unambiguous_iff.mp host
    exact ⟨d, s, s', names, rfl, (matches_iff regular regular').mpr ⟨hosts, ports⟩, regular,
      regular'⟩
  · rintro ⟨d, s, s', names, rfl, same, regular, regular'⟩
    obtain ⟨hosts, ports⟩ := (matches_iff regular regular').mp same
    exact ⟨d, s.text, s.hostText, s'.hostText, _, _, names,
      unambiguous_iff.mpr ⟨s, rfl, regular, rfl, rfl⟩,
      unambiguous_iff.mpr ⟨s', rfl, regular', rfl, rfl⟩, hosts, ports⟩

/-- An origin and a host that the check takes for the same. -/
def Accepted (origin host : List Char) : Prop :=
  ∃ default, ∃ s s' : Spelling, Names origin default s.text ∧ s'.text = host ∧
    s.Matches s' default

lemma accepted_iff : Accepted origin host ↔ SameOrigin origin host ∨ Confusable origin host := by
  rw [sameOrigin_iff, Accepted, Confusable]
  constructor
  · rintro ⟨d, s, s', names, text, same⟩
    by_cases regular : s.Regular ∧ s'.Regular
    · exact .inl ⟨d, s, s', names, text, same, regular⟩
    · exact .inr ⟨d, s, s', names, text, same, regular⟩
  · rintro (⟨d, s, s', names, text, same, -⟩ | ⟨d, s, s', names, text, same, -⟩) <;>
      exact ⟨d, s, s', names, text, same⟩

lemma not_sameOrigin_of_confusable (h : Confusable origin host) : ¬ SameOrigin origin host := by
  rw [sameOrigin_iff]
  rintro ⟨d', t, t', names', text', -, regular⟩
  obtain ⟨d, s, s', names, text, -, irregular⟩ := h
  have same := (splitOrigin_some.mpr names).symm.trans (splitOrigin_some.mpr names')
  obtain ⟨-, eq⟩ := Prod.mk.inj (Option.some_inj.mp same)
  obtain rfl := Spelling.text_inj eq
  obtain rfl := Spelling.text_inj (text.trans text'.symm)
  exact irregular regular

end SameOrigin

section Check

variable {headers : HeaderMap} {policy : WebSocketOriginPolicy} {value origin host : List UInt8}

lemma toStr_eq (h : value.all isVisibleAscii) : toStr value = some (asciiText value) :=
  if_pos h

lemma validate_some (present : headers.get "origin" = some origin)
    (visible : VisibleAscii headers) :
    validateWsOrigin headers policy = true ↔
      ∃ host, headers.get "host" = some host ∧ Accepted (asciiText origin) (asciiText host) := by
  have originStr := toStr_eq (visible "origin" (by decide) origin present)
  have hostStr {host} (h : headers.get "host" = some host) :=
    toStr_eq (visible "host" (by decide) host h)
  have getD {o : Option Bool} : o.getD false = true ↔ o = some true := by
    cases o <;> simp
  simp only [validateWsOrigin, present, getD, originStr, Option.bind_eq_bind, Option.bind_some,
    Option.bind_eq_some_iff]
  constructor
  · rintro ⟨⟨d, authority⟩, cut, host, hostHdr, text, eq, a, parsed, a', parsed', same⟩
    cases (hostStr hostHdr).symm.trans eq
    obtain ⟨s, rfl, rfl⟩ := Spelling.exists_of_parse parsed
    obtain ⟨s', eq, rfl⟩ := Spelling.exists_of_parse parsed'
    have same := of_decide_eq_true (Option.some_inj.mp same)
    exact ⟨host, hostHdr, d, s, s', splitOrigin_some.mp cut, eq, Spelling.authority_inj.mp same⟩
  · rintro ⟨host, hostHdr, d, s, s', names, eq, same⟩
    have parsed' : Authority.parse (asciiText host) d = some (s'.authority d) := by
      rw [← eq, Spelling.parse_text]
    refine ⟨_, splitOrigin_some.mpr names, host, hostHdr, _, hostStr hostHdr, _,
      Spelling.parse_text, _, parsed', ?_⟩
    exact congrArg some (decide_eq_true (Spelling.authority_inj.mpr same))

/-- For header values of visible ASCII: the check admits exactly the upgrades it is for, if and only
if no sign or bracket makes an origin and a host look the same. -/
theorem same_origin_iff (visible : VisibleAscii headers) :
    (validateWsOrigin headers policy = true ↔ Admissible headers policy) ↔
      ∀ origin host, headers.get "origin" = some origin → headers.get "host" = some host →
        ¬ Confusable (asciiText origin) (asciiText host) := by
  rcases present : headers.get "origin" with - | origin
  · refine iff_of_true ?_ nofun
    rw [validateWsOrigin, Admissible, present]
    exact decide_eq_true_iff
  · rw [validate_some present visible, Admissible, present]
    constructor
    · rintro same _ host ⟨⟩ hostHdr confusable
      obtain ⟨host', hostHdr', sameOrigin⟩ :=
        same.mp ⟨host, hostHdr, accepted_iff.mpr (.inr confusable)⟩
      cases hostHdr.symm.trans hostHdr'
      exact not_sameOrigin_of_confusable confusable sameOrigin
    · intro clear
      refine exists_congr fun host => and_congr_right fun hostHdr => ?_
      rw [accepted_iff, or_iff_left (clear origin host rfl hostHdr)]

end Check

/-- Headers with an origin and a host. -/
def fromPage (origin host : String) : HeaderMap :=
  [("host", bytes host), ("origin", bytes origin)]

/-- Without brackets and plus signs nothing is confusable: here letters differ in case and a default
port is filled in. -/
theorem same_origin_iff_plain :
    validateWsOrigin (fromPage "https://Example.com:443/app" "example.com") .strict = true ∧
    Admissible (fromPage "https://Example.com:443/app" "example.com") .strict := by
  have visible : VisibleAscii (fromPage "https://Example.com:443/app" "example.com") := by
    unfold VisibleAscii
    decide
  have admitted :
      validateWsOrigin (fromPage "https://Example.com:443/app" "example.com") .strict = true := by
    decide
  refine ⟨admitted, ((same_origin_iff visible).mpr ?_).mp admitted⟩
  rintro _ _ ⟨⟩ ⟨⟩ ⟨d, s, s', names, text, -, irregular⟩
  have origin := splitOrigin_some.mpr names
  obtain ⟨-, text'⟩ := Prod.mk.inj (Option.some_inj.mp origin)
  refine irregular ⟨Spelling.regular_of_not_mem ?_ ?_, Spelling.regular_of_not_mem ?_ ?_⟩
  · rw [← text']
    decide
  · rw [← text']
    decide
  · rw [text]
    decide
  · rw [text]
    decide

/-- A host in brackets, and a port with a plus sign, are taken for the host and the port without
them. -/
theorem confused_origins :
    (validateWsOrigin (fromPage "http://[example.com]" "example.com") .strict = true ∧
      ¬ Admissible (fromPage "http://[example.com]" "example.com") .strict) ∧
    (validateWsOrigin (fromPage "https://example.com:+443" "example.com") .strict = true ∧
      ¬ Admissible (fromPage "https://example.com:+443" "example.com") .strict) := by
  have chars : '@' ∉ "example.com".toList ∧ '[' ∉ "example.com".toList ∧
      ']' ∉ "example.com".toList := by
    decide
  have numeral : IsNumeral "443".toList ∧ decimal "443".toList ≤ 65535 := by
    have value : decimal "443".toList = 443 := rfl
    refine ⟨⟨by decide, List.all_eq_true.mp rfl⟩, ?_⟩
    omega
  let host : Spelling := ⟨false, "example.com".toList, none, by decide, chars, by decide, nofun⟩
  let bracketed : Spelling := ⟨true, "example.com".toList, none, by decide, chars, nofun, nofun⟩
  let signed : Spelling := ⟨false, "example.com".toList, some (true, "443".toList), by decide,
    chars, by decide, fun p eq => Option.some_inj.mp eq ▸ numeral⟩
  refine ⟨⟨by decide, ?_⟩, by decide, ?_⟩
  · rintro ⟨_, ⟨⟩, same⟩
    refine not_sameOrigin_of_confusable ⟨80, bracketed, host, ?_, rfl, ?_, ?_⟩ same
    · exact splitOrigin_some.mp rfl
    · exact ⟨rfl, rfl⟩
    · rintro ⟨⟨literal, -⟩, -⟩
      have literal : isIpv6 "example.com".toList := literal rfl
      exact absurd literal (by decide)
  · rintro ⟨_, ⟨⟩, same⟩
    refine not_sameOrigin_of_confusable ⟨443, signed, host, ?_, rfl, ?_, ?_⟩ same
    · exact splitOrigin_some.mp rfl
    · exact ⟨rfl, rfl⟩
    · rintro ⟨⟨-, unsigned⟩, -⟩
      cases unsigned _ rfl

end CherryPit.Web
