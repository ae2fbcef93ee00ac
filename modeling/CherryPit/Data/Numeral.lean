import Mathlib.Tactic

/-!
# Numerals

`fromStrRadix` reads an unsigned number up to a bound, one digit at a time, as the standard
library's integer parser does: a leading plus sign is allowed, and reading ends in an error as soon
as the number read so far exceeds the bound. What it accepts is a numeral, perhaps after a plus
sign, whose value is within the bound (`fromStrRadix_some`). Numerals of one length have the same
value only if they have the same digits (`numeral_inj`). `parseUnsigned` is the decimal case.
-/

namespace CherryPit

/-- A plus sign, if there is one. -/
def sign (plus : Bool) : List Char :=
  if plus then ['+'] else []

/-! ## Any radix -/

/-- Rust `char::to_digit`. -/
def toDigit (radix : Nat) (c : Char) : Option Nat :=
  (if c.isDigit then some (c.toNat - '0'.toNat)
    else if 'a' ≤ c ∧ c ≤ 'z' then some (c.toNat - 'a'.toNat + 10)
    else if 'A' ≤ c ∧ c ≤ 'Z' then some (c.toNat - 'A'.toNat + 10)
    else none).filter (· < radix)

/-- The number that a numeral continues to, read from left to right. -/
def numeralFrom (radix n : Nat) (digits : List Char) : Nat :=
  digits.foldl (fun n c => radix * n + (toDigit radix c).getD 0) n

/-- The value of a numeral. -/
def numeral (radix : Nat) (digits : List Char) : Nat :=
  numeralFrom radix 0 digits

/-- One more digit. -/
def pushDigit (radix max n : Nat) (c : Char) : Option Nat :=
  (toDigit radix c).bind fun digit =>
    if radix * n + digit ≤ max then some (radix * n + digit) else none

/-- Rust `from_str_radix` of an unsigned type with this greatest number. -/
def fromStrRadix (radix max : Nat) : List Char → Option Nat
  | [] => none
  | ['+'] => none
  | '+' :: digits => digits.foldlM (pushDigit radix max) 0
  | digits => digits.foldlM (pushDigit radix max) 0

section Radix

variable {radix max n n' k : Nat} {c : Char} {s digits digits' : List Char} {d : Nat}

lemma toDigit_lt (h : toDigit radix c = some d) : d < radix :=
  of_decide_eq_true (Option.filter_eq_some_iff.mp h).2

/-- Digits are ASCII characters. -/
lemma toNat_lt_of_toDigit (h : toDigit radix c = some d) : c.toNat < 128 := by
  obtain ⟨value, -⟩ := Option.filter_eq_some_iff.mp h
  split at value
  next digit =>
    have le : c.toNat ≤ 57 := of_decide_eq_true (Bool.and_eq_true_iff.mp digit).2
    omega
  next =>
    split at value
    next lower =>
      have le : c.toNat ≤ 122 := lower.2
      omega
    next =>
      obtain ⟨upper, -⟩ := Option.ite_none_right_eq_some.mp value
      have le : c.toNat ≤ 90 := upper.2
      omega

lemma numeralFrom_cons (h : toDigit radix c = some d) :
    numeralFrom radix n (c :: digits) = numeralFrom radix (radix * n + d) digits := by
  rw [numeralFrom, List.foldl_cons, h]
  rfl

lemma pushDigit_some :
    pushDigit radix max n c = some k ↔
      (toDigit radix c).isSome ∧ k = numeralFrom radix n [c] ∧ k ≤ max := by
  rw [pushDigit, numeralFrom, List.foldl_cons, List.foldl_nil]
  rcases toDigit radix c with _ | d
  · simp
  · rw [Option.bind_some, Option.ite_none_right_eq_some, Option.some_inj, Option.getD_some]
    constructor
    · rintro ⟨le, rfl⟩
      exact ⟨rfl, rfl, le⟩
    · rintro ⟨-, rfl, le⟩
      exact ⟨le, rfl⟩

lemma le_numeralFrom (pos : 0 < radix) : n ≤ numeralFrom radix n digits := by
  induction digits generalizing n with
  | nil => exact le_rfl
  | cons c digits ih =>
    calc n ≤ radix * n := Nat.le_mul_of_pos_left n pos
      _ ≤ radix * n + (toDigit radix c).getD 0 := Nat.le_add_right _ _
      _ ≤ numeralFrom radix n (c :: digits) := ih

lemma pushDigits_some (pos : 0 < radix) (start : n ≤ max) :
    digits.foldlM (pushDigit radix max) n = some k ↔
      (∀ c ∈ digits, (toDigit radix c).isSome) ∧ numeralFrom radix n digits = k ∧ k ≤ max := by
  induction digits generalizing n with
  | nil =>
    constructor
    · intro h
      cases h
      exact ⟨fun c mem => absurd mem List.not_mem_nil, rfl, start⟩
    · rintro ⟨-, eq, -⟩
      exact congrArg some eq
  | cons c digits ih =>
    rw [List.foldlM_cons, List.forall_mem_cons]
    constructor
    · intro h
      obtain ⟨m, first, rest⟩ := Option.bind_eq_some_iff.mp h
      obtain ⟨digit, rfl, le⟩ := pushDigit_some.mp first
      obtain ⟨all, eq, bound⟩ := (ih le).mp rest
      exact ⟨⟨digit, all⟩, eq, bound⟩
    · rintro ⟨⟨digit, all⟩, eq, bound⟩
      have le : numeralFrom radix n [c] ≤ max :=
        le_trans ((le_numeralFrom pos).trans_eq eq) bound
      exact Option.bind_eq_some_iff.mpr
        ⟨_, pushDigit_some.mpr ⟨digit, rfl, le⟩, (ih le).mpr ⟨all, eq, bound⟩⟩

/-- What is accepted, and its value. -/
lemma fromStrRadix_some (pos : 0 < radix) :
    fromStrRadix radix max s = some n ↔
      ∃ plus digits, s = sign plus ++ digits ∧ digits ≠ [] ∧
        (∀ c ∈ digits, (toDigit radix c).isSome) ∧ numeral radix digits = n ∧ n ≤ max := by
  constructor
  · intro h
    unfold fromStrRadix at h
    split at h
    next => cases h
    next => cases h
    next digits ne =>
      obtain ⟨all, eq, le⟩ := (pushDigits_some pos (Nat.zero_le max)).mp h
      exact ⟨true, digits, rfl, fun nil => ne nil, all, eq, le⟩
    next ne _ _ =>
      obtain ⟨all, eq, le⟩ := (pushDigits_some pos (Nat.zero_le max)).mp h
      exact ⟨false, s, rfl, ne, all, eq, le⟩
  · rintro ⟨plus, digits, rfl, ne, all, eq, le⟩
    have read := (pushDigits_some pos (Nat.zero_le max)).mpr ⟨all, eq, le⟩
    have plain : ∀ rest, digits ≠ '+' :: rest := by
      rintro rest rfl
      cases all '+' List.mem_cons_self
    cases plus with
    | true =>
      obtain ⟨c, rest, rfl⟩ := List.exists_cons_of_ne_nil ne
      exact read
    | false =>
      change fromStrRadix radix max digits = some n
      unfold fromStrRadix
      split
      next => exact absurd rfl ne
      next => exact absurd rfl (plain [])
      next rest _ => exact absurd rfl (plain rest)
      next => exact read

lemma numeralFrom_lt (all : ∀ c ∈ digits, (toDigit radix c).isSome) :
    numeralFrom radix n digits < (n + 1) * radix ^ digits.length := by
  induction digits generalizing n with
  | nil => simp [numeralFrom]
  | cons c digits ih =>
    obtain ⟨first, rest⟩ := List.forall_mem_cons.mp all
    obtain ⟨d, eq⟩ := Option.isSome_iff_exists.mp first
    have lt := toDigit_lt eq
    rw [numeralFrom_cons eq]
    calc numeralFrom radix (radix * n + d) digits < (radix * n + d + 1) * radix ^ digits.length :=
          ih rest
      _ ≤ ((n + 1) * radix) * radix ^ digits.length := by
          refine Nat.mul_le_mul_right _ ?_
          rw [Nat.succ_mul, Nat.mul_comm n]
          omega
      _ = (n + 1) * radix ^ (c :: digits).length := by
          rw [List.length_cons, Nat.pow_succ']
          ring

/-- A numeral has less than one more digit. -/
lemma numeral_lt (all : ∀ c ∈ digits, (toDigit radix c).isSome) :
    numeral radix digits < radix ^ digits.length := by
  have lt := numeralFrom_lt (n := 0) all
  rwa [Nat.zero_add, Nat.one_mul] at lt

lemma numeralFrom_inj (length : digits.length = digits'.length)
    (all : ∀ c ∈ digits, (toDigit radix c).isSome) (all' : ∀ c ∈ digits', (toDigit radix c).isSome)
    (eq : numeralFrom radix n digits = numeralFrom radix n' digits') :
    n = n' ∧ digits.map (toDigit radix) = digits'.map (toDigit radix) := by
  induction digits generalizing n n' digits' with
  | nil =>
    rw [List.eq_nil_of_length_eq_zero length.symm] at eq ⊢
    exact ⟨eq, rfl⟩
  | cons c digits ih =>
    obtain ⟨c', digits', rfl⟩ := List.exists_cons_of_length_eq_add_one length.symm
    obtain ⟨first, rest⟩ := List.forall_mem_cons.mp all
    obtain ⟨first', rest'⟩ := List.forall_mem_cons.mp all'
    obtain ⟨d, digit⟩ := Option.isSome_iff_exists.mp first
    obtain ⟨d', digit'⟩ := Option.isSome_iff_exists.mp first'
    rw [numeralFrom_cons digit, numeralFrom_cons digit'] at eq
    obtain ⟨heads, tails⟩ := ih (Nat.succ.inj length) rest rest' eq
    -- the last digit is the remainder
    have lt := toDigit_lt digit
    have same : d = d' := by
      have remainder := congrArg (· % radix) heads
      simpa [Nat.mul_add_mod, Nat.mod_eq_of_lt lt, Nat.mod_eq_of_lt (toDigit_lt digit')]
        using remainder
    subst same
    refine ⟨Nat.eq_of_mul_eq_mul_left (Nat.zero_lt_of_lt lt) (Nat.add_right_cancel heads), ?_⟩
    rw [List.map_cons, List.map_cons, digit, digit', tails]

/-- Numerals of the same length and value have the same digits. -/
lemma numeral_inj (length : digits.length = digits'.length)
    (all : ∀ c ∈ digits, (toDigit radix c).isSome) (all' : ∀ c ∈ digits', (toDigit radix c).isSome)
    (eq : numeral radix digits = numeral radix digits') :
    digits.map (toDigit radix) = digits'.map (toDigit radix) :=
  (numeralFrom_inj length all all' eq).2

end Radix

/-! ## Decimals -/

/-- The value of a decimal numeral. -/
abbrev decimal (digits : List Char) : Nat := numeral 10 digits

/-- One or more decimal digits. -/
def IsNumeral (digits : List Char) : Prop :=
  digits ≠ [] ∧ ∀ c ∈ digits, c.isDigit

/-- Rust `str::parse` of an unsigned type with this greatest number. -/
abbrev parseUnsigned (max : Nat) (s : List Char) : Option Nat := fromStrRadix 10 max s

section Decimal

variable {max n : Nat} {c : Char} {s digits : List Char}

lemma toDigit_ten : toDigit 10 c = if c.isDigit then some (c.toNat - '0'.toNat) else none := by
  unfold toDigit
  split
  next digit =>
    obtain ⟨-, le⟩ := Bool.and_eq_true_iff.mp digit
    have le : c.toNat ≤ 57 := of_decide_eq_true le
    exact Option.filter_some_pos (decide_eq_true (by show c.toNat - 48 < 10; omega))
  next =>
    -- letters stand for ten and more
    split
    · exact Option.filter_some_neg (by simp)
    · split
      · exact Option.filter_some_neg (by simp)
      · rfl

lemma isSome_toDigit_ten : (toDigit 10 c).isSome = c.isDigit := by
  rw [toDigit_ten]
  cases c.isDigit <;> rfl

lemma IsNumeral.ne_plus (h : IsNumeral digits) : '+' ∉ digits := by
  intro mem
  cases h.2 '+' mem

/-- What is accepted, and its value. -/
lemma parseUnsigned_some :
    parseUnsigned max s = some n ↔
      ∃ plus digits, s = sign plus ++ digits ∧ IsNumeral digits ∧ decimal digits = n ∧ n ≤ max := by
  rw [fromStrRadix_some (by decide)]
  simp only [isSome_toDigit_ten, IsNumeral, and_assoc]

end Decimal

end CherryPit
