import CherryPit.Data.Ipv6

/-!
# Authorities

`Authority::parse` reads a host and a port from the text of an authority: it splits the text at
brackets or at the last colon, reads the port as a number and normalises both.

What it accepts is described by the ways to write an authority (`Spelling`): every accepted text has
exactly one (`exists_of_parse`, `text_inj`), and two of them give the same authority if their hosts
are the same but for brackets and case and their ports are the same number (`authority_inj`). Among
the accepted spellings are two that are no unambiguous authorities, which `Regular` leaves out: a
plus sign before the digits of the port, and brackets around a text that is no IPv6 literal.
-/

namespace CherryPit.Web

/-! ## ASCII letters -/

def toAsciiLowercase (text : List Char) : List Char :=
  text.map Char.toLower

/-- Only letters have another lower case. -/
lemma toLower_eq {x c : Char} (h : c.isAlpha = false) : x.toLower = c ↔ x = c := by
  obtain ⟨upper, lower⟩ := Bool.or_eq_false_iff.mp h
  unfold Char.toLower
  split
  next up =>
    refine iff_of_false ?_ ?_
    · rintro rfl
      change (decide _ && decide _) = false at lower
      simp only [Bool.and_eq_false_iff, decide_eq_false_iff_not, ge_iff_le,
        UInt32.le_iff_toNat_le, UInt32.toNat_add] at lower up
      have a : 'A'.val.toNat = 65 := rfl
      have z : 'Z'.val.toNat = 90 := rfl
      have a' : 'a'.val.toNat = 97 := rfl
      have z' : 'z'.val.toNat = 122 := rfl
      have shift : ('a'.val - 'A'.val).toNat = 32 := rfl
      omega
    · rintro rfl
      exact of_decide_eq_false upper up
  next => rfl

/-- Lowering a text changes no character but letters. -/
lemma mem_toAsciiLowercase {c : Char} {text : List Char} (h : c.isAlpha = false) :
    c ∈ toAsciiLowercase text ↔ c ∈ text := by
  rw [toAsciiLowercase, List.mem_map]
  constructor
  · rintro ⟨x, mem, eq⟩
    exact (toLower_eq h).mp eq ▸ mem
  · intro mem
    exact ⟨c, mem, (toLower_eq h).mpr rfl⟩

/-! ## Authorities -/

structure Authority where
  host : List Char
  port : Option Nat
  deriving DecidableEq

/-- The host and the port of an authority that starts with a bracket, which is left out here. -/
def splitBracketed (rest : List Char) : Option (List Char × Option (List Char)) := do
  let (inner, after) ← splitOnce [']'] rest
  if inner = [] ∨ '[' ∈ inner then none
  else match after with
    | [] => some (inner, none)
    | ':' :: port => some (inner, some port)
    | _ => none

/-- The parts before and after the last colon. -/
def splitPort (raw : List Char) : List Char × Option (List Char) :=
  match rsplitOnce ':' raw with
  | some (host, port) => (host, some port)
  | none => (raw, none)

/-- The host and the port of an authority without brackets. -/
def splitPlain (raw : List Char) : Option (List Char × Option (List Char)) :=
  if '[' ∈ raw ∨ ']' ∈ raw then none
  else
    let (host, port) := splitPort raw
    if host = [] ∨ ':' ∈ host then none else some (host, port)

/-- The text of the host, without brackets, and that of the port. -/
def splitAuthority : List Char → Option (List Char × Option (List Char))
  | '[' :: rest => splitBracketed rest
  | raw => splitPlain raw

/-- The port, unless it is the default one. -/
def parsePort (defaultPort : Nat) : Option (List Char) → Option (Option Nat)
  | some port => do
    let parsed ← parseUnsigned 65535 port
    return if parsed ≠ defaultPort then some parsed else none
  | none => some none

def Authority.parse (raw : List Char) (defaultPort : Nat) : Option Authority :=
  if raw = [] ∨ '@' ∈ raw then none
  else do
    let (host, portStr) ← splitAuthority raw
    let port ← parsePort defaultPort portStr
    return { host := toAsciiLowercase host, port }

/-! ## What the splits accept -/

/-- The end of an authority: a colon and the port, if there is one. -/
def portPart : Option (List Char) → List Char
  | none => []
  | some port => ':' :: port

/-- A host, in brackets or not. -/
def brackets (bracketed : Bool) (host : List Char) : List Char :=
  if bracketed then '[' :: (host ++ [']']) else host

section Splits

variable {raw rest host : List Char} {port : Option (List Char)}

lemma splitBracketed_some :
    splitBracketed rest = some (host, port) ↔
      rest = host ++ ']' :: portPart port ∧ host ≠ [] ∧ '[' ∉ host ∧ ']' ∉ host := by
  constructor
  · intro h
    obtain ⟨⟨inner, after⟩, cut, found⟩ := Option.bind_eq_some_iff.mp h
    obtain ⟨rfl, closing⟩ := splitOnce_singleton.mp cut
    change (if inner = [] ∨ '[' ∈ inner then none else _) = _ at found
    split at found
    next => cases found
    next ok =>
      obtain ⟨ne, opening⟩ := not_or.mp ok
      split at found
      next =>
        cases found
        exact ⟨rfl, ne, opening, closing⟩
      next =>
        cases found
        exact ⟨rfl, ne, opening, closing⟩
      next => cases found
  · rintro ⟨rfl, ne, opening, closing⟩
    refine Option.bind_eq_some_iff.mpr ⟨_, splitOnce_append closing, ?_⟩
    show (if host = [] ∨ '[' ∈ host then none else _) = _
    rw [if_neg (not_or.mpr ⟨ne, opening⟩)]
    rcases port with - | port <;> rfl

lemma splitPort_eq :
    splitPort raw = (host, port) ↔
      raw = host ++ portPart port ∧ (∀ p ∈ port, ':' ∉ p) ∧ (port = none → ':' ∉ host) := by
  rw [splitPort]
  constructor
  · intro h
    split at h
    next before after cut =>
      obtain ⟨rfl, once⟩ := rsplitOnce_some.mp cut
      cases h
      exact ⟨rfl, fun p eq => Option.some_inj.mp eq ▸ once, nofun⟩
    next cut =>
      cases h
      exact ⟨(List.append_nil raw).symm, nofun, fun _ => rsplitOnce_eq_none.mp cut⟩
  · rintro ⟨rfl, once, plain⟩
    rcases port with - | port
    · rw [portPart, List.append_nil, rsplitOnce_eq_none.mpr (plain rfl)]
    · rw [portPart, rsplitOnce_some.mpr ⟨rfl, once port rfl⟩]

lemma splitPlain_some :
    splitPlain raw = some (host, port) ↔
      raw = host ++ portPart port ∧ host ≠ [] ∧ ':' ∉ host ∧ (∀ p ∈ port, ':' ∉ p) ∧
        '[' ∉ raw ∧ ']' ∉ raw := by
  rw [splitPlain]
  constructor
  · intro h
    split at h
    next => cases h
    next brackets =>
      obtain ⟨opening, closing⟩ := not_or.mp brackets
      rcases parts : splitPort raw with ⟨before, after⟩
      simp only [parts] at h
      split at h
      next => cases h
      next ok =>
        cases h
        obtain ⟨ne, colon⟩ := not_or.mp ok
        obtain ⟨eq, once, -⟩ := splitPort_eq.mp parts
        exact ⟨eq, ne, colon, once, opening, closing⟩
  · rintro ⟨eq, ne, colon, once, opening, closing⟩
    rw [if_neg (not_or.mpr ⟨opening, closing⟩), splitPort_eq.mpr ⟨eq, once, fun _ => colon⟩]
    exact if_neg (not_or.mpr ⟨ne, colon⟩)

lemma splitAuthority_plain (h : '[' ∉ raw) : splitAuthority raw = splitPlain raw := by
  unfold splitAuthority
  split
  next => exact absurd List.mem_cons_self h
  next => rfl

lemma splitAuthority_some (h : splitAuthority raw = some (host, port)) :
    ∃ bracketed, raw = brackets bracketed host ++ portPart port ∧ host ≠ [] ∧
      '[' ∉ host ∧ ']' ∉ host ∧ (bracketed = false → ':' ∉ host) := by
  unfold splitAuthority at h
  split at h
  next rest =>
    obtain ⟨rfl, ne, opening, closing⟩ := splitBracketed_some.mp h
    refine ⟨true, ?_, ne, opening, closing, nofun⟩
    rw [brackets, if_pos rfl, List.cons_append, List.append_assoc, List.singleton_append]
  next =>
    obtain ⟨rfl, ne, colon, -, opening, closing⟩ := splitPlain_some.mp h
    exact ⟨false, rfl, ne, fun mem => opening (List.mem_append_left _ mem),
      fun mem => closing (List.mem_append_left _ mem), fun _ => colon⟩

lemma parsePort_some {d : Nat} {q : Option Nat} (h : parsePort d port = some q) :
    ∃ p : Option (Bool × List Char), (p.map fun p => sign p.1 ++ p.2) = port ∧
      (∀ p' ∈ p, IsNumeral p'.2 ∧ decimal p'.2 ≤ 65535) := by
  rcases port with - | port
  · exact ⟨none, rfl, nofun⟩
  · obtain ⟨n, read, -⟩ := Option.bind_eq_some_iff.mp h
    obtain ⟨plus, digits, rfl, numeral, rfl, le⟩ := parseUnsigned_some.mp read
    exact ⟨some (plus, digits), rfl, fun p eq => Option.some_inj.mp eq ▸ ⟨numeral, le⟩⟩

lemma toAsciiLowercase_brackets {bracketed : Bool} :
    toAsciiLowercase (brackets bracketed host) = brackets bracketed (toAsciiLowercase host) := by
  cases bracketed with
  | false => rfl
  | true =>
    show '['.toLower :: (host ++ [']']).map Char.toLower = _
    rw [List.map_append]
    rfl

lemma brackets_inj {b b' : Bool} {host' : List Char} (h : '[' ∉ host) (h' : '[' ∉ host')
    (eq : brackets b host = brackets b' host') : host = host' := by
  cases b <;> cases b'
  · exact eq
  · have mem : '[' ∈ brackets false host := eq ▸ List.mem_cons_self
    exact absurd mem h
  · have mem : '[' ∈ brackets false host' := eq ▸ List.mem_cons_self
    exact absurd mem h'
  · exact List.append_cancel_right (List.cons_inj_right '[' |>.mp eq)

end Splits

/-! ## Spellings -/

/-- A way to write an authority that the parser accepts. -/
@[ext]
structure Spelling where
  bracketed : Bool
  host : List Char
  /-- Whether there is a plus sign, and the digits. -/
  port : Option (Bool × List Char)
  host_ne : host ≠ []
  host_chars : '@' ∉ host ∧ '[' ∉ host ∧ ']' ∉ host
  host_colon : bracketed = false → ':' ∉ host
  port_digits : ∀ p ∈ port, IsNumeral p.2 ∧ decimal p.2 ≤ 65535

namespace Spelling

/-- The host with its brackets. -/
def hostText (s : Spelling) : List Char :=
  brackets s.bracketed s.host

/-- The port with its plus sign. -/
def portText (s : Spelling) : Option (List Char) :=
  s.port.map fun p => sign p.1 ++ p.2

def text (s : Spelling) : List Char :=
  s.hostText ++ portPart s.portText

/-- The port, or the default one. -/
def portOr (s : Spelling) (default : Nat) : Nat :=
  (s.port.map fun p => decimal p.2).getD default

/-- No plus sign, and nothing in brackets but an IPv6 literal. -/
def Regular (s : Spelling) : Prop :=
  (s.bracketed → isIpv6 s.host) ∧ ∀ p ∈ s.port, p.1 = false

/-- Two spellings that the check takes for the same, under a default port. -/
def Matches (s s' : Spelling) (default : Nat) : Prop :=
  toAsciiLowercase s.host = toAsciiLowercase s'.host ∧ s.portOr default = s'.portOr default

variable {s s' : Spelling} {c : Char} {raw port : List Char} {d : Nat} {a : Authority}

/-- A port is written with digits and a plus sign. -/
lemma not_mem_portText (h : s.portText = some port) (digit : c.isDigit = false) (ne : c ≠ '+') :
    c ∉ port := by
  obtain ⟨⟨plus, digits⟩, eq, rfl⟩ := Option.map_eq_some_iff.mp h
  intro mem
  rcases List.mem_append.mp mem with mem | mem
  · cases plus with
    | true => exact ne (List.mem_singleton.mp mem)
    | false => cases mem
  · cases digit.symm.trans ((s.port_digits _ eq).1.2 c mem)

lemma not_mem_text (host : c ∉ s.hostText) (digit : c.isDigit = false) (plus : c ≠ '+')
    (colon : c ≠ ':') : c ∉ s.text := by
  rw [text, List.mem_append, not_or]
  refine ⟨host, ?_⟩
  rcases h : s.portText with - | port
  · exact List.not_mem_nil
  · exact List.not_mem_cons_of_ne_of_not_mem colon (not_mem_portText h digit plus)

lemma text_ne_nil : s.text ≠ [] := by
  intro nil
  obtain ⟨host, -⟩ := List.append_eq_nil_iff.mp nil
  rw [hostText, brackets] at host
  split at host
  next => cases host
  next => exact s.host_ne host

lemma at_not_mem_text : '@' ∉ s.text := by
  refine not_mem_text ?_ rfl (by decide) (by decide)
  rw [hostText, brackets]
  split
  next =>
    have absent := s.host_chars.1
    simp [absent]
  next => exact s.host_chars.1

lemma hostText_plain (h : s.bracketed = false) : s.hostText = s.host :=
  if_neg (h ▸ Bool.false_ne_true)

lemma text_bracketed (h : s.bracketed = true) :
    s.text = '[' :: (s.host ++ ']' :: portPart s.portText) := by
  rw [text, hostText, brackets, if_pos h, List.cons_append, List.append_assoc,
    List.singleton_append]

/-- The parser finds the parts of a spelling. -/
lemma splitAuthority_text : splitAuthority s.text = some (s.host, s.portText) := by
  obtain ⟨-, opening, closing⟩ := s.host_chars
  rcases form : s.bracketed with - | -
  · have host := hostText_plain form
    have opening : '[' ∉ s.text := not_mem_text (host ▸ opening) rfl (by decide) (by decide)
    have closing : ']' ∉ s.text := not_mem_text (host ▸ closing) rfl (by decide) (by decide)
    have once : ∀ p ∈ s.portText, ':' ∉ p := fun p eq => not_mem_portText eq rfl (by decide)
    rw [splitAuthority_plain opening, splitPlain_some]
    exact ⟨by rw [text, host], s.host_ne, s.host_colon form, once, opening, closing⟩
  · rw [text_bracketed form]
    exact splitBracketed_some.mpr ⟨rfl, s.host_ne, opening, closing⟩

lemma bracketed_iff : s.bracketed = true ↔ '[' ∈ s.text := by
  constructor
  · intro h
    rw [text_bracketed h]
    exact List.mem_cons_self
  · intro mem
    by_contra h
    have host := hostText_plain (Bool.eq_false_of_not_eq_true h)
    exact not_mem_text (host ▸ s.host_chars.2.1) rfl (by decide) (by decide) mem

/-- Only brackets and plus signs make a spelling irregular. -/
lemma regular_of_not_mem (opening : '[' ∉ s.text) (plus : '+' ∉ s.text) : s.Regular := by
  refine ⟨fun form => absurd (bracketed_iff.mp form) opening, ?_⟩
  rintro ⟨- | -, digits⟩ eq
  · rfl
  · refine absurd (List.mem_append_right _ ?_) plus
    have port : s.portText = some ('+' :: digits) := by rw [portText, Option.mem_def.mp eq]; rfl
    rw [port]
    exact List.mem_cons_of_mem _ List.mem_cons_self

lemma portText_inj (h : s.portText = s'.portText) : s.port = s'.port := by
  rcases eq : s.port with - | ⟨plus, digits⟩ <;> rcases eq' : s'.port with - | ⟨plus', digits'⟩ <;>
    rw [portText, portText, eq, eq'] at h
  · cases h
  · cases h
  · have plain := (s.port_digits _ eq).1.ne_plus
    have plain' := (s'.port_digits _ eq').1.ne_plus
    have same : sign plus ++ digits = sign plus' ++ digits' := Option.some_inj.mp h
    cases plus <;> cases plus'
    · exact congrArg (fun digits => some (false, digits)) same
    · exact absurd (same ▸ List.mem_cons_self : '+' ∈ sign false ++ digits) plain
    · exact absurd (same ▸ List.mem_cons_self : '+' ∈ sign false ++ digits') plain'
    · exact congrArg (fun digits => some (true, digits)) (List.cons_inj_right '+' |>.mp same)

/-- Two spellings of one text are the same. -/
lemma text_inj (h : s.text = s'.text) : s = s' := by
  have parts := splitAuthority_text (s := s)
  rw [h, splitAuthority_text, Option.some_inj, Prod.mk.injEq] at parts
  refine Spelling.ext ?_ parts.1.symm (portText_inj parts.2.symm)
  rw [Bool.eq_iff_iff, bracketed_iff, bracketed_iff, h]

/-- What a spelling is parsed to. -/
def authority (s : Spelling) (default : Nat) : Authority where
  host := toAsciiLowercase s.host
  port := if s.portOr default ≠ default then some (s.portOr default) else none

/-- The ports are equal after normalisation if they are equal after filling in the default. -/
lemma authority_inj : s.authority d = s'.authority d ↔ s.Matches s' d := by
  rw [authority, authority, Authority.mk.injEq, Matches]
  refine and_congr_right fun _ => ?_
  constructor
  · intro h
    split at h <;> split at h
    · exact Option.some_inj.mp h
    · cases h
    · cases h
    next eq eq' => exact (not_not.mp eq).trans (not_not.mp eq').symm
  · intro h
    rw [h]

lemma parsePort_text : parsePort d s.portText = some (s.authority d).port := by
  rcases eq : s.port with - | ⟨plus, digits⟩
  · have default : s.portOr d = d := by rw [portOr, eq]; rfl
    rw [portText, authority, default, eq, if_neg (not_not.mpr rfl)]
    rfl
  · obtain ⟨numeral, le⟩ := s.port_digits _ eq
    have port : s.portOr d = decimal digits := by rw [portOr, eq]; rfl
    have read := parseUnsigned_some.mpr ⟨plus, digits, rfl, numeral, rfl, le⟩
    rw [portText, authority, port, eq]
    exact Option.bind_eq_some_iff.mpr ⟨_, read, rfl⟩

lemma parse_text : Authority.parse s.text d = some (s.authority d) := by
  rw [Authority.parse, if_neg (not_or.mpr ⟨text_ne_nil, at_not_mem_text⟩), splitAuthority_text]
  exact Option.bind_eq_some_iff.mpr
    ⟨_, rfl, Option.bind_eq_some_iff.mpr ⟨_, parsePort_text, rfl⟩⟩

/-- Everything that is accepted is a spelling. -/
lemma exists_of_parse (h : Authority.parse raw d = some a) :
    ∃ s : Spelling, s.text = raw ∧ s.authority d = a := by
  have accepted := h
  rw [Authority.parse, Option.ite_none_left_eq_some, not_or] at h
  obtain ⟨⟨-, userinfo⟩, h⟩ := h
  obtain ⟨⟨host, port⟩, parts, h⟩ := Option.bind_eq_some_iff.mp h
  obtain ⟨q, read, -⟩ := Option.bind_eq_some_iff.mp h
  obtain ⟨bracketed, rfl, ne, opening, closing, colon⟩ := splitAuthority_some parts
  obtain ⟨p, rfl, digits⟩ := parsePort_some read
  have plain : '@' ∉ host := by
    intro mem
    refine userinfo (List.mem_append_left _ ?_)
    cases bracketed
    · exact mem
    · exact List.mem_cons_of_mem _ (List.mem_append_left _ mem)
  let s : Spelling := ⟨bracketed, host, p, ne, ⟨plain, opening, closing⟩, colon, digits⟩
  have parsed : Authority.parse s.text d = some a := accepted
  rw [parse_text, Option.some_inj] at parsed
  exact ⟨s, rfl, parsed⟩

end Spelling

end CherryPit.Web
