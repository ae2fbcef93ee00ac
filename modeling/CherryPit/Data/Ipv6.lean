import CherryPit.Data.Numeral
import CherryPit.Data.Split

/-!
# IPv6 literals

The textual form of an IPv6 address, as RFC 3986 has it inside the brackets of a host: eight groups
of up to four hexadecimal digits, of which `::` may stand for one or more, and the last two of which
may be written as an IPv4 address. Such a text has a colon in it (`colon_mem_of_isIpv6`) and nothing
else but digits, dots and colons (`ipv6Char_of_isIpv6`).
-/

namespace CherryPit

/-- A hexadecimal digit. -/
def isHexDigit (c : Char) : Bool :=
  c.isDigit || ('a' ≤ c.toLower && c.toLower ≤ 'f')

/-- A group of an IPv6 address: 16 bits. -/
def isGroup (g : List Char) : Bool :=
  g ≠ [] && g.length ≤ 4 && g.all isHexDigit

/-- A part of an IPv4 address: 8 bits, without leading zeros. -/
def isOctet (o : List Char) : Bool :=
  o ≠ [] && o.all Char.isDigit && decimal o ≤ 255 && (o.length = 1 || o.head? ≠ some '0')

def isIpv4 (t : List Char) : Bool :=
  (t.splitOn '.').length = 4 && (t.splitOn '.').all isOctet

/-- The number of groups that the parts between colons stand for. Only the last part may be an IPv4
address, and only where `v4` allows it. -/
def countGroups (v4 : Bool) : List (List Char) → Option Nat
  | [] => some 0
  | [g] => if isGroup g then some 1 else if v4 && isIpv4 g then some 2 else none
  | g :: rest => if isGroup g then (countGroups v4 rest).map (· + 1) else none

/-- The number of groups in a text without `::`. -/
def groupsIn (v4 : Bool) (t : List Char) : Option Nat :=
  if t = [] then some 0 else countGroups v4 (t.splitOn ':')

def isIpv6 (t : List Char) : Bool :=
  match splitOnce [':', ':'] t with
  | none => groupsIn true t = some 8
  | some (before, after) =>
    match groupsIn false before, groupsIn true after with
    | some m, some n => m + n ≤ 7
    | _, _ => false

example : isIpv6 "2001:db8::8a2e:370:7334".toList ∧ isIpv6 "::ffff:192.0.2.1".toList ∧
    ¬ isIpv6 "example.com".toList ∧ ¬ isIpv6 "1::2::3".toList := by
  decide

/-- The characters of an IPv6 literal. -/
def ipv6Char (c : Char) : Bool :=
  isHexDigit c || c = '.' || c = ':'

variable {c : Char} {t g : List Char} {gs : List (List Char)} {v4 : Bool} {n : Nat}

/-- Every character of a text that was cut is the separator or in one of the parts. -/
lemma mem_splitOn (sep : Char) (h : c ∈ t) : c = sep ∨ ∃ part ∈ t.splitOn sep, c ∈ part := by
  induction t with
  | nil => cases h
  | cons x t ih =>
    have rest (mem : c ∈ t) := ih mem
    have cut : (x :: t).splitOn sep =
        if x == sep then [] :: t.splitOn sep else (t.splitOn sep).modifyHead (List.cons x) :=
      List.splitOnP_cons_eq_if_modifyHead x t
    obtain ⟨first, others, parts⟩ := List.exists_cons_of_ne_nil (List.splitOnP_ne_nil (· == sep) t)
    change t.splitOn sep = first :: others at parts
    rw [cut, parts]
    rw [parts] at rest
    split
    next eq =>
      rcases List.mem_cons.mp h with rfl | mem
      · exact .inl (eq_of_beq eq)
      · obtain here | ⟨part, within, mem⟩ := rest mem
        · exact .inl here
        · exact .inr ⟨part, List.mem_cons_of_mem _ within, mem⟩
    next =>
      refine (List.mem_cons.mp h).elim (fun eq => .inr ⟨x :: first, List.mem_cons_self, ?_⟩) ?_
      · exact eq ▸ List.mem_cons_self
      intro mem
      obtain here | ⟨part, within, mem⟩ := rest mem
      · exact .inl here
      · rcases List.mem_cons.mp within with rfl | within
        · exact .inr ⟨x :: part, List.mem_cons_self, List.mem_cons_of_mem _ mem⟩
        · exact .inr ⟨part, List.mem_cons_of_mem _ within, mem⟩

lemma ipv6Char_of_isGroup (h : isGroup g) (mem : c ∈ g) : ipv6Char c := by
  simp only [isGroup, Bool.and_eq_true, List.all_eq_true] at h
  rw [ipv6Char, h.2 c mem]
  rfl

lemma ipv6Char_of_isIpv4 (h : isIpv4 g) (mem : c ∈ g) : ipv6Char c := by
  simp only [isIpv4, isOctet, Bool.and_eq_true, List.all_eq_true] at h
  obtain rfl | ⟨octet, within, mem⟩ := mem_splitOn '.' mem
  · rfl
  · have digit : c.isDigit := (h.2 octet within).1.1.2 c mem
    rw [ipv6Char, isHexDigit, digit]
    rfl

lemma countGroups_parts (h : countGroups v4 gs = some n) : ∀ g ∈ gs, isGroup g ∨ isIpv4 g := by
  fun_induction countGroups v4 gs generalizing n with
  | case1 => exact fun g mem => absurd mem List.not_mem_nil
  | case2 g group => exact List.forall_mem_singleton.mpr (.inl group)
  | case3 g _ last => exact List.forall_mem_singleton.mpr (.inr (Bool.and_eq_true_iff.mp last).2)
  | case4 => cases h
  | case5 g rest _ group ih =>
    obtain ⟨k, rest, -⟩ := Option.map_eq_some_iff.mp h
    exact List.forall_mem_cons.mpr ⟨.inl group, ih rest⟩
  | case6 => cases h

lemma ipv6Char_of_groupsIn (h : groupsIn v4 t = some n) (mem : c ∈ t) : ipv6Char c := by
  rw [groupsIn, if_neg (List.ne_nil_of_mem mem)] at h
  obtain rfl | ⟨part, within, mem⟩ := mem_splitOn ':' mem
  · rfl
  · obtain group | last := countGroups_parts h part within
    · exact ipv6Char_of_isGroup group mem
    · exact ipv6Char_of_isIpv4 last mem

/-- Nothing but digits, dots and colons. -/
lemma ipv6Char_of_isIpv6 (h : isIpv6 t) (mem : c ∈ t) : ipv6Char c := by
  unfold isIpv6 at h
  split at h
  next => exact ipv6Char_of_groupsIn (of_decide_eq_true h) mem
  next before after cut =>
    split at h
    next m n left right =>
      rw [splitOnce_eq cut, List.mem_append, List.mem_append] at mem
      rcases mem with mem | mem | mem
      · exact ipv6Char_of_groupsIn left mem
      · simp only [List.mem_cons, List.not_mem_nil, or_false, or_self] at mem
        rw [mem]
        rfl
      · exact ipv6Char_of_groupsIn right mem
    next => cases h

/-- One part is at most two groups. -/
lemma countGroups_singleton (h : countGroups v4 [g] = some n) : n ≤ 2 := by
  rw [countGroups] at h
  split at h
  next =>
    cases h
    exact Nat.le_succ 1
  next =>
    split at h
    next =>
      cases h
      exact le_rfl
    next => cases h

lemma colon_mem_of_isIpv6 (h : isIpv6 t) : ':' ∈ t := by
  unfold isIpv6 at h
  split at h
  next =>
    have eight : groupsIn true t = some 8 := of_decide_eq_true h
    by_contra absent
    rw [groupsIn, List.splitOn_eq_singleton absent] at eight
    split at eight
    next => cases eight
    next => exact absurd (countGroups_singleton eight) (by decide)
  next before after cut =>
    rw [splitOnce_eq cut]
    exact List.mem_append_right _ List.mem_cons_self

end CherryPit
