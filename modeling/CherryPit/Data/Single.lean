import CherryPit.Data.Numeral
import Mathlib.Data.List.TakeWhile

/-!
# Signs of single-precision numbers

Whether the number that the standard library's parser of `f32` reads is positive. A decimal is
rounded to the nearest number, so that one is read as zero if it is at most half of the least
positive number, which is `2 ^ (-149)`. A numeral of few decimals is positive if it has a digit that
is not zero (`parsePositive_decimal`).
-/

namespace CherryPit

/-- A sign, if there is one, and whether it is a minus sign. -/
def parseSign : List Char → Bool × List Char
  | '-' :: rest => (true, rest)
  | '+' :: rest => (false, rest)
  | rest => (false, rest)

/-- The digits after a point, if there is one. -/
def parseFraction : List Char → List Char × List Char
  | '.' :: rest => (rest.takeWhile Char.isDigit, rest.dropWhile Char.isDigit)
  | rest => ([], rest)

/-- The exponent, which may be left out. -/
def parseExponent : List Char → Option Int
  | [] => some 0
  | c :: rest =>
    if c.toLower = 'e' then
      let (negative, digits) := parseSign rest
      if digits.isEmpty || !digits.all Char.isDigit then none
      else some (if negative then Int.negOfNat (decimal digits) else Int.ofNat (decimal digits))
    else none

/-- Whether `n * 10 ^ exponent` is more than half of the least positive number. -/
def isAboveTiny (n : Nat) : Int → Bool
  | .ofNat _ => decide (0 < n)
  | .negSucc k => decide (10 ^ (k + 1) < n * 2 ^ 150)

/-- Whether a text is a number, and a positive one. -/
def parsePositive (text : List Char) : Option Bool :=
  let (negative, number) := parseSign text
  let name := number.map Char.toLower
  if name = "inf".toList ∨ name = "infinity".toList then some !negative
  else if name = "nan".toList then some false
  else
    let whole := number.takeWhile Char.isDigit
    let (fraction, rest) := parseFraction (number.dropWhile Char.isDigit)
    if whole.isEmpty && fraction.isEmpty then none
    else (parseExponent rest).map fun exponent =>
      !negative && isAboveTiny (decimal (whole ++ fraction)) (exponent - fraction.length)

section Positive

variable {n : Nat} {digits whole point : List Char} {decimals : Option (List Char)}

lemma numeralFrom_eq_zero (all : ∀ c ∈ digits, c.isDigit) :
    numeralFrom 10 n digits = 0 ↔ n = 0 ∧ ∀ c ∈ digits, c = '0' := by
  induction digits generalizing n with
  | nil => simp [numeralFrom]
  | cons c digits ih =>
    obtain ⟨first, rest⟩ := List.forall_mem_cons.mp all
    have lower : 48 ≤ c.toNat := of_decide_eq_true (Bool.and_eq_true_iff.mp first).1
    have digit : c.toNat - '0'.toNat = 0 ↔ c = '0' := by
      rw [← Char.toNat_inj]
      show c.toNat - 48 = 0 ↔ c.toNat = 48
      omega
    rw [numeralFrom_cons (toDigit_ten.trans (if_pos first)), ih rest, List.forall_mem_cons, ← digit,
      ← and_assoc]
    refine and_congr_left' ?_
    omega

/-- A number with few decimals is not rounded to zero. -/
lemma isAboveTiny_decimals {k : Nat} (few : k ≤ 45) :
    isAboveTiny n (0 - k) = decide (0 < n) := by
  rcases k with _ | k
  · rfl
  · have least : 10 ^ (k + 1) < 2 ^ 150 := calc
      10 ^ (k + 1) ≤ 10 ^ 45 := Nat.pow_le_pow_right (by decide) few
      _ < 2 ^ 150 := by decide
    have exponent : (0 : Int) - (k + 1 : Nat) = .negSucc k := by omega
    rw [exponent, isAboveTiny, decide_eq_decide]
    constructor
    · intro lt
      exact Nat.pos_of_mul_pos_right (Nat.zero_lt_of_lt lt)
    · intro pos
      exact lt_of_lt_of_le least (Nat.le_mul_of_pos_left _ pos)

/-- A numeral is neither signed nor a name. -/
lemma IsNumeral.parseSign_append (isNumeral : IsNumeral whole) :
    parseSign (whole ++ point) = (false, whole ++ point) := by
  obtain ⟨c, rest, rfl⟩ := List.exists_cons_of_ne_nil isNumeral.1
  have digit := isNumeral.2 c List.mem_cons_self
  unfold parseSign
  split
  next eq =>
    cases (List.cons.inj eq).1
    cases digit
  next eq =>
    cases (List.cons.inj eq).1
    cases digit
  next => rfl

lemma IsNumeral.map_toLower_ne (isNumeral : IsNumeral whole) {name : List Char}
    (letter : name.head?.any Char.isDigit = false) :
    (whole ++ point).map Char.toLower ≠ name := by
  obtain ⟨c, rest, rfl⟩ := List.exists_cons_of_ne_nil isNumeral.1
  have digit := isNumeral.2 c List.mem_cons_self
  have lower : c.toLower = c := by
    have le : c.toNat ≤ 57 := of_decide_eq_true (Bool.and_eq_true_iff.mp digit).2
    refine dif_neg ?_
    rintro ⟨ge, -⟩
    have ge : 65 ≤ c.toNat := ge
    omega
  rintro rfl
  rw [List.cons_append, List.map_cons, lower, List.head?_cons, Option.any_some, digit] at letter
  cases letter

/-- The decimals of a number, if it has a point. -/
def pointed (decimals : Option (List Char)) : List Char :=
  (decimals.map fun digits => '.' :: digits).getD []

lemma dropWhile_pointed : (pointed decimals).dropWhile Char.isDigit = pointed decimals := by
  rcases decimals with _ | digits <;> rfl

lemma parseFraction_pointed (all : ∀ c ∈ decimals.getD [], c.isDigit) :
    parseFraction (pointed decimals) = (decimals.getD [], []) := by
  rcases decimals with _ | digits
  · rfl
  · show (digits.takeWhile Char.isDigit, digits.dropWhile Char.isDigit) = (digits, [])
    rw [Option.getD_some] at all
    rw [List.takeWhile_eq_self_iff.mpr all, List.dropWhile_eq_nil_iff.mpr all]

/-- A decimal is positive if it has a digit that is not zero. -/
lemma parsePositive_decimal (isNumeral : IsNumeral whole)
    (all : ∀ c ∈ decimals.getD [], c.isDigit) (few : (decimals.getD []).length ≤ 45) :
    parsePositive (whole ++ pointed decimals) =
      some ((whole ++ decimals.getD []).any fun c => c != '0') := by
  have dropped : (whole ++ pointed decimals).dropWhile Char.isDigit = pointed decimals := by
    rw [List.dropWhile_append_of_pos isNumeral.2, dropWhile_pointed]
  have taken : (whole ++ pointed decimals).takeWhile Char.isDigit = whole := by
    have parts := List.takeWhile_append_dropWhile (p := Char.isDigit)
      (l := whole ++ pointed decimals)
    rw [dropped] at parts
    exact List.append_cancel_right parts
  have digits : ∀ c ∈ whole ++ decimals.getD [], c.isDigit := by
    intro c mem
    rcases List.mem_append.mp mem with mem | mem
    · exact isNumeral.2 c mem
    · exact all c mem
  have positive : decide (0 < decimal (whole ++ decimals.getD [])) =
      (whole ++ decimals.getD []).any fun c => c != '0' := by
    rw [Bool.eq_iff_iff, decide_eq_true_eq, Nat.pos_iff_ne_zero, decimal, numeral,
      Ne, numeralFrom_eq_zero digits]
    simp only [true_and, not_forall, exists_prop, List.any_eq_true, bne_iff_ne, ne_eq]
  have number : (whole.isEmpty && (decimals.getD []).isEmpty) = false := by
    rw [List.isEmpty_eq_false_iff.mpr isNumeral.1, Bool.false_and]
  have unnamed : ∀ name ∈ ["inf".toList, "infinity".toList, "nan".toList],
      (whole ++ pointed decimals).map Char.toLower ≠ name := by
    intro name mem
    refine isNumeral.map_toLower_ne ?_
    simp only [List.mem_cons, List.not_mem_nil, or_false] at mem
    rcases mem with rfl | rfl | rfl <;> rfl
  simp only [List.forall_mem_cons] at unnamed
  obtain ⟨inf, infinity, nan, -⟩ := unnamed
  simp only [parsePositive, isNumeral.parseSign_append, inf, infinity, nan, or_self, if_false,
    taken, dropped, parseFraction_pointed all, number, Bool.false_eq_true, parseExponent,
    Option.map_some, Bool.not_false, Bool.true_and, isAboveTiny_decimals few, positive]

end Positive

end CherryPit
