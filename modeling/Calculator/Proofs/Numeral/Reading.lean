import Calculator.Proofs.Numeral.Decimal
import Calculator.Proofs.Numeral.Integer
import Calculator.Proofs.Source.Lexeme

/-!
# Reading numbers

Digits are read as the number that they denote, with a sign, a point or an exponent among them.
Exponents are not taken in once they are large, but those of the numbers that are rounded to floats
are small, so that such a number is read back from its first digit, the others and its exponent.
-/

namespace Calculator

section Integer

variable {digits : List Char}

theorem Numeral.toNat?_of_digits (all : ∀ character ∈ digits, character.isDigit)
    (nonempty : digits ≠ []) : toNat? digits = some (value digits) :=
  if_pos ⟨nonempty, List.all_eq_true.mpr all⟩

theorem Numeral.toInt?_of_digits (all : ∀ character ∈ digits, character.isDigit)
    (nonempty : digits ≠ []) : toInt? digits = some (value digits : Int) := by
  unfold toInt?
  split
  · cases all _ List.mem_cons_self
  · cases all _ List.mem_cons_self
  · rw [toNat?_of_digits all nonempty]
    rfl

theorem Numeral.toInt?_ofInt (n : Int) : toInt? (ofInt n) = some n := by
  unfold ofInt
  split
  · rename_i negative
    have size : -(n.natAbs : Int) = n := by omega
    rw [toInt?, toNat?_ofNat]
    exact congrArg some size
  · rename_i nonneg
    have size : (n.natAbs : Int) = n := by omega
    rw [toInt?_of_digits isDigit_of_mem_ofNat (ofNat_ne_nil _), value_ofNat, size]

theorem Numeral.ofInt_injective : Function.Injective ofInt := by
  intro left right same
  have read := toInt?_ofInt left
  rw [same, toInt?_ofInt right] at read
  exact (Option.some.inj read).symm

end Integer

namespace Decimal

section Exponent

variable {digits : List Char}

theorem le_ofDigitChars (digits : List Char) (size : ℕ) :
    size ≤ Nat.ofDigitChars 10 digits size := by
  induction digits generalizing size with
  | nil => exact le_rfl
  | cons digit digits induction =>
      rw [Nat.ofDigitChars_cons]
      exact le_trans (by omega) (induction _)

/-- All digits are taken in as long as their number is small. -/
theorem exponentSize_eq (small : Numeral.value digits < 0x10000) :
    exponentSize digits = Numeral.value digits := by
  unfold exponentSize Numeral.value at *
  generalize 0 = size at *
  induction digits generalizing size with
  | nil => rfl
  | cons digit digits induction =>
      have below : size < 0x10000 := (le_ofDigitChars (digit :: digits) size).trans_lt small
      rw [Nat.ofDigitChars_cons] at small ⊢
      rw [List.foldl_cons, if_pos below]
      exact induction _ small

theorem exponentSize?_ofNat {n : ℕ} (small : n < 0x10000) :
    exponentSize? (Numeral.ofNat n) = some n := by
  have digits : Numeral.ofNat n ≠ [] ∧ (Numeral.ofNat n).all Char.isDigit :=
    ⟨Numeral.ofNat_ne_nil n, Numeral.all_isDigit_ofNat n⟩
  rw [exponentSize?, if_pos digits, exponentSize_eq (by rwa [Numeral.value_ofNat]),
    Numeral.value_ofNat]

theorem exponent?_of_digits (all : ∀ character ∈ digits, character.isDigit) :
    exponent? ('e' :: digits) = (exponentSize? digits).map fun size => (size : ℤ) := by
  unfold exponent?
  dsimp only
  rw [if_pos (.inl rfl)]
  split
  · cases all _ List.mem_cons_self
  · cases all _ List.mem_cons_self
  · rfl

theorem exponent?_ofInt {exponent : ℤ} (small : exponent.natAbs < 0x10000) :
    exponent? ('e' :: Numeral.ofInt exponent) = some exponent := by
  have read := exponentSize?_ofNat small
  unfold Numeral.ofInt
  split
  · rename_i negative
    have size : -(exponent.natAbs : ℤ) = exponent := by omega
    rw [exponent?, if_pos (.inl rfl), read]
    exact congrArg some size
  · rename_i nonneg
    have size : (exponent.natAbs : ℤ) = exponent := by omega
    rw [exponent?_of_digits Numeral.isDigit_of_mem_ofNat, read]
    exact congrArg some size

theorem eq_letter_of_exponent? {letter : Char} {text : List Char} {exponent : ℤ}
    (read : exponent? (letter :: text) = some exponent) : letter = 'e' ∨ letter = 'E' := by
  by_contra other
  unfold exponent? at read
  dsimp only at read
  rw [if_neg other] at read
  cases read

end Exponent

section Digits

variable {whole fraction rest : List Char} {exponent : ℤ}

theorem run_of_exponent? (digits : ∀ character ∈ whole, character.isDigit)
    (read : exponent? rest = some exponent) : Run Char.isDigit whole rest := by
  refine ⟨digits, fun character next => ?_⟩
  cases rest with
  | nil => cases next
  | cons letter text =>
      obtain rfl := Option.some.inj next
      rcases eq_letter_of_exponent? read with rfl | rfl
      all_goals decide

section Exponent

variable (wholeDigits : ∀ character ∈ whole, character.isDigit)
  (read : exponent? rest = some exponent)

include wholeDigits read

theorem ofText?_whole (nonempty : whole ≠ []) :
    ofText? (whole ++ rest) = some ⟨Numeral.value whole, exponent⟩ := by
  have front := run_of_exponent? wholeDigits read
  have split : splitDigits (whole ++ rest) = (whole, [], rest) := by
    rw [splitDigits, front.dropWhile_eq, front.takeWhile_eq]
    split
    · rcases eq_letter_of_exponent? read with letter | letter <;> cases letter
    · rfl
  rw [ofText?, split]
  simp only [List.append_nil, if_neg nonempty, read, Option.map_some, List.length_nil,
    Int.natCast_zero, Int.sub_zero]

variable (fractionDigits : ∀ character ∈ fraction, character.isDigit)

include fractionDigits

theorem splitDigits_point :
    splitDigits (whole ++ '.' :: (fraction ++ rest)) = (whole, fraction, rest) := by
  have front : Run Char.isDigit whole ('.' :: (fraction ++ rest)) := by
    refine ⟨wholeDigits, fun character next => ?_⟩
    obtain rfl := Option.some.inj next
    nofun
  have back := run_of_exponent? fractionDigits read
  rw [splitDigits, front.dropWhile_eq, front.takeWhile_eq]
  simp only [back.takeWhile_eq, back.dropWhile_eq]

/-- Digits around a point are read as all of them, moved to the right by those behind the point. -/
theorem ofText?_point (nonempty : fraction ≠ []) :
    ofText? (whole ++ '.' :: (fraction ++ rest)) =
      some ⟨Numeral.value (whole ++ fraction), exponent - fraction.length⟩ := by
  have someDigits : whole ++ fraction ≠ [] := by simp [nonempty]
  rw [ofText?, splitDigits_point wholeDigits read fractionDigits]
  simp only [if_neg someDigits, read, Option.map_some]

end Exponent

theorem ofText?_of_digits (wholeDigits : ∀ character ∈ whole, character.isDigit)
    (fractionDigits : ∀ character ∈ fraction, character.isDigit) (nonempty : fraction ≠ []) :
    ofText? (whole ++ '.' :: fraction) =
      some ⟨Numeral.value (whole ++ fraction), 0 - fraction.length⟩ := by
  have none : exponent? [] = some 0 := rfl
  have read := ofText?_point wholeDigits none fractionDigits nonempty
  rwa [List.append_nil] at read

end Digits

section Scientific

variable {decimal : Decimal}

/-- The exponent of the first digit. -/
def leadingExponent (decimal : Decimal) : ℤ :=
  decimal.exponent + ((Numeral.ofNat decimal.significand).length - 1 : ℕ)

/-- A number lies between the powers of ten at its first digit and in front of it. -/
theorem toRat_bounds (positive : 0 < decimal.significand) :
    toRat ⟨1, decimal.leadingExponent⟩ ≤ decimal.toRat ∧
      decimal.toRat < toRat ⟨1, decimal.leadingExponent + 1⟩ := by
  have unit : (0 : ℚ) < 10 ^ decimal.exponent := zpow_pos (by norm_num) _
  have ten : (10 : ℚ) ≠ 0 := by norm_num
  have digits := List.length_pos_iff.mpr (Numeral.ofNat_ne_nil decimal.significand)
  have upper := (Numeral.length_ofNat_le_iff digits).mp le_rfl
  have lower : 10 ^ ((Numeral.ofNat decimal.significand).length - 1) ≤ decimal.significand := by
    rcases Nat.eq_zero_or_pos ((Numeral.ofNat decimal.significand).length - 1) with one | more
    · rw [one]
      exact positive
    · rw [← not_lt, ← Numeral.length_ofNat_le_iff more]
      omega
  have moved (places : ℕ) :
      toRat ⟨1, decimal.exponent + places⟩ = (10 ^ places : ℕ) * 10 ^ decimal.exponent := by
    rw [toRat, zpow_add₀ ten, zpow_natCast]
    push_cast
    ring
  have next : decimal.leadingExponent + 1 =
      decimal.exponent + (Numeral.ofNat decimal.significand).length := by
    unfold leadingExponent
    omega
  rw [next, leadingExponent, moved, moved, toRat]
  exact ⟨mul_le_mul_of_nonneg_right (by exact_mod_cast lower) unit.le,
    mul_lt_mul_of_pos_right (by exact_mod_cast upper) unit⟩

/-- The exponents of numbers that are rounded to floats are small. -/
theorem natAbs_leadingExponent_lt (lower : 2 ^ (-1075 : ℤ) ≤ decimal.toRat)
    (upper : decimal.toRat < 2 ^ (1024 : ℤ)) : decimal.leadingExponent.natAbs < 0x10000 := by
  obtain ⟨below, above⟩ := toRat_bounds (significand_pos lower)
  have greatest : decimal.leadingExponent ≤ 2 ^ 11 :=
    @exponent_le ⟨1, _⟩ one_pos (below.trans_lt upper)
  have least : -(2 ^ 11 + (Nat.log2 1 : ℤ)) ≤ decimal.leadingExponent + 1 :=
    @le_exponent ⟨1, _⟩ (lower.trans above.le)
  have one : Nat.log2 1 = 0 := by decide
  omega

/-- A number with a small exponent is read as it was written. -/
theorem ofText?_scientific (small : decimal.leadingExponent.natAbs < 0x10000) :
    ofText? decimal.scientific = some decimal := by
  obtain ⟨significand, exponent⟩ := decimal
  have read := exponent?_ofInt small
  have all := @Numeral.isDigit_of_mem_ofNat significand
  have denoted := Numeral.value_ofNat significand
  unfold leadingExponent at read
  unfold scientific
  dsimp only at read ⊢
  cases digits : Numeral.ofNat significand with
  | nil => exact absurd digits (Numeral.ofNat_ne_nil significand)
  | cons first others =>
      rw [digits] at read all denoted
      have front : ∀ character ∈ [first], character.isDigit :=
        List.forall_mem_singleton.mpr (all first List.mem_cons_self)
      dsimp only
      split
      · rename_i single
        subst single
        have text := ofText?_whole front read (List.cons_ne_nil _ _)
        rw [denoted] at text
        simpa using text
      · rename_i more
        have back : ∀ character ∈ others, character.isDigit :=
          fun character member => all character (List.mem_cons_of_mem first member)
        have text := ofText?_point front read back more
        rw [List.singleton_append, List.singleton_append, denoted] at text
        simpa using text

end Scientific

end Decimal

/-- A text with a decimal number does not begin with a sign, so that it is read as this number. -/
theorem Numeral.toFloat?_of_ofText? {text : List Char} {decimal : Decimal}
    (read : Decimal.ofText? text = some decimal) :
    toFloat? text = some decimal.toFloat ∧ toFloat? ('-' :: text) = some (-decimal.toFloat) := by
  have unsigned : magnitude? text = some decimal.toFloat := by
    rw [magnitude?, read]
    rfl
  constructor
  · unfold toFloat?
    split
    · cases read
    · cases read
    · exact unsigned
  · rw [toFloat?, unsigned]
    rfl

end Calculator
