import Calculator.Numeral.Decimal
import Calculator.Proofs.Binary64.Canonical

/-!
# Decimal numbers as floats

The numbers that are rounded to a float make up an interval around it.  A decimal number is read as
the float in whose interval it lies, whether its power of ten is multiplied or divided by.
-/

namespace Calculator

open Float.Model (UnpackedFloat Format totalExponent)
open Float.Model.UnpackedFloat (Sign Accuracy roundWithAccuracy accuracyOfFraction divCore)

namespace Binary64

/-- A number is rounded to canonical parts.  Below the least mantissa of 53 bits the places are half
as wide, and so is the interval on this side. -/
structure RoundsTo (value : ℚ) (mantissa : ℕ) (exponent : ℤ) : Prop where
  nearest : IsNearest (value / 2 ^ exponent) mantissa
  edge : mantissa = 2 ^ 52 → -1074 < exponent → 2 ^ 52 - 1 / 4 ≤ value / 2 ^ exponent

variable {value : ℚ} {mantissa : ℕ} {exponent : ℤ}

theorem roundsTo_self (mantissa : ℕ) (exponent : ℤ) :
    RoundsTo (mantissa * 2 ^ exponent) mantissa exponent where
  nearest := by
    rw [mul_zpow_div]
    exact .natCast mantissa
  edge := by
    rintro rfl -
    rw [mul_zpow_div]
    norm_num

namespace RoundsTo

variable (rounds : RoundsTo value mantissa exponent) (canonical : IsCanonical mantissa exponent)

include rounds canonical

theorem div_lt : value / 2 ^ exponent < 2 ^ 53 := by
  have bits : (mantissa : ℚ) + 1 ≤ 2 ^ 53 := by exact_mod_cast canonical.bits
  linarith [rounds.nearest.bounds.2]

theorem lt : value < 2 ^ (1024 : ℤ) :=
  calc
    value < 2 ^ (exponent + (53 : ℕ)) := div_zpow_lt_iff.mp (rounds.div_lt canonical)
    _ ≤ 2 ^ (1024 : ℤ) := zpow_le_zpow_right₀ one_le_two (by have := canonical.greatest; omega)

theorem ge (positive : 0 < mantissa) : 2 ^ (-1075 : ℤ) ≤ value := by
  have unit : (0 : ℚ) < 2 ^ exponent := zpow_pos two_pos exponent
  have one : (1 : ℚ) ≤ mantissa := by exact_mod_cast positive
  have half : 1 / 2 ≤ value / 2 ^ exponent := by linarith [rounds.nearest.bounds.1]
  calc
    (2 : ℚ) ^ (-1075 : ℤ) ≤ 2 ^ (exponent - 1) :=
      zpow_le_zpow_right₀ one_le_two (by have := canonical.least; omega)
    _ = 1 / 2 * 2 ^ exponent := by
      rw [zpow_sub_one₀ two_ne_zero]
      ring
    _ ≤ value := (le_div_iff₀ unit).mp half

theorem eq_of_lt {place : ℤ} {rounded : ℕ} (last : IsLastPlace value place)
    (lower : place < exponent) (nearest : IsNearest (value / 2 ^ place) rounded) :
    place + 1 = exponent ∧ mantissa = 2 ^ 52 ∧ rounded = 2 ^ 53 := by
  have least := last.least
  have full : 2 ^ 52 ≤ mantissa := canonical.full.resolve_left (by omega)
  have full_cast : (2 : ℚ) ^ 52 ≤ mantissa := by exact_mod_cast full
  obtain ⟨places, rfl⟩ : ∃ places : ℕ, exponent = place + (places + 1 : ℕ) :=
    ⟨(exponent - place - 1).toNat, by omega⟩
  have unit : (2 : ℚ) ^ place ≠ 0 := zpow_ne_zero place two_ne_zero
  have near := rounds.nearest.bounds
  have edge := rounds.edge
  have moved : value / 2 ^ place = value / 2 ^ (place + (places + 1 : ℕ)) * 2 ^ (places + 1) := by
    rw [zpow_add_natCast]
    field_simp
  have below := last.below
  rw [moved] at below nearest
  generalize value / 2 ^ (place + (places + 1 : ℕ)) = scaled at *
  have scaled_lt : scaled * 2 < 2 ^ 53 := by
    refine lt_of_le_of_lt (mul_le_mul_of_nonneg_left ?_ (by linarith)) below
    exact le_self_pow₀ one_le_two (Nat.succ_ne_zero places)
  have mantissa_eq : mantissa = 2 ^ 52 := by
    have bound : (mantissa : ℚ) < 2 ^ 52 + 1 := by linarith
    have bits : mantissa < 2 ^ 52 + 1 := by exact_mod_cast bound
    omega
  have scaled_ge := edge mantissa_eq (by omega)
  obtain rfl : places = 0 := by
    by_contra more
    have four : (2 : ℚ) ^ 2 ≤ 2 ^ (places + 1) := pow_le_pow_right₀ one_le_two (by omega)
    have large := mul_le_mul_of_nonneg_left four (by linarith : 0 ≤ scaled)
    linarith
  refine ⟨rfl, mantissa_eq, nearest.unique ?_⟩
  have even : Even (2 ^ 53) := by decide
  have close : |scaled * 2 ^ (0 + 1) - (2 ^ 53 : ℕ)| ≤ 1 / 2 := by
    rw [abs_le]
    push_cast
    constructor <;> linarith
  exact close.lt_or_eq.imp id fun tie => ⟨tie, even⟩

end RoundsTo

/-- What lies in the interval of canonical parts is rounded to them. -/
theorem IsRounded.eq_of_roundsTo {sign : Sign} {parts : UnpackedFloat}
    (rounded : IsRounded sign value parts) (canonical : IsCanonical mantissa exponent)
    (rounds : RoundsTo value mantissa exponent) (positive : 0 < mantissa) :
    parts = .finite sign mantissa exponent positive := by
  obtain ⟨place, bits, last, nearest, rfl⟩ := rounded
  have lower := last.le_of_le le_rfl (rounds.div_lt canonical) canonical.least
  rcases lower.lt_or_eq with lower | rfl
  · obtain ⟨rfl, rfl, rfl⟩ := rounds.eq_of_lt canonical last lower nearest
    rfl
  · obtain rfl := nearest.unique rounds.nearest
    exact carried_of_lt positive canonical.bits

end Binary64

namespace Decimal

open Binary64

/-- The number itself. -/
def toRat (decimal : Decimal) : ℚ :=
  decimal.significand * 10 ^ decimal.exponent

theorem isRounded_mul {significand : ℕ} (positive : 0 < significand) (places : ℕ) :
    IsRounded .positive (significand * 10 ^ places)
      (roundWithAccuracy .binary64 .positive (significand <<< 53 * 10 ^ places) (-53) .exact) := by
  have large : 2 ^ 53 ≤ significand <<< 53 * 10 ^ places := by
    rw [Nat.shiftLeft_eq, Nat.mul_right_comm]
    exact Nat.le_mul_of_pos_left _ (Nat.mul_pos positive (Nat.pow_pos (by decide)))
  refine isRounded_roundWithAccuracy .positive ?_ ?_
  · have scaled : (significand : ℚ) * (10 : ℚ) ^ places / (2 : ℚ) ^ (-53 : ℤ) =
        ((significand <<< 53 * 10 ^ places : ℕ) : ℚ) := by
      rw [Nat.shiftLeft_eq, zpow_neg, div_inv_eq_mul]
      push_cast
      exact mul_right_comm _ _ _
    rw [scaled]
    exact .exact _
  · have bits : 53 ≤ (significand <<< 53 * 10 ^ places).log2 :=
      (Nat.le_log2 (by omega)).mpr large
    unfold lastPlace
    omega

/-- The exponent of a quotient leaves enough bits in front of it. -/
theorem le_lastPlace_div {m n : ℕ} (positive : 0 < m) (divisor_positive : 0 < n) {place : ℤ}
    (nonpos : place ≤ 0)
    (bound : place ≤ -1074 ∨ place ≤ (m.log2 : ℤ) - n.log2 - 53) :
    place ≤ lastPlace ((m <<< (-place).toNat) / n) place := by
  unfold lastPlace
  rcases bound with least | bound
  · omega
  obtain ⟨places, rfl⟩ := Int.exists_eq_neg_ofNat nonpos
  rw [Int.neg_neg, Int.toNat_natCast, Nat.shiftLeft_eq]
  have quotient : 2 ^ 52 ≤ m * 2 ^ places / n := by
    rw [Nat.le_div_iff_mul_le divisor_positive]
    calc
      2 ^ 52 * n ≤ 2 ^ 52 * 2 ^ (n.log2 + 1) := Nat.mul_le_mul_left _ Nat.lt_log2_self.le
      _ = 2 ^ (52 + (n.log2 + 1)) := (Nat.pow_add 2 _ _).symm
      _ ≤ 2 ^ (m.log2 + places) := Nat.pow_le_pow_right Nat.two_pos (by omega)
      _ = 2 ^ m.log2 * 2 ^ places := Nat.pow_add 2 _ _
      _ ≤ m * 2 ^ places := Nat.mul_le_mul_right _ (Nat.log2_self_le positive.ne')
  have bits : 52 ≤ (m * 2 ^ places / n).log2 := (Nat.le_log2 (by omega)).mpr quotient
  omega

/-- A quotient of whole numbers is rounded with what the division leaves over. -/
theorem isRounded_div {m n : ℕ} (positive : 0 < m) (divisor_positive : 0 < n) :
    IsRounded .positive (m / n)
      (UnpackedFloat.div .binary64 (.finite .positive m 0 positive)
        (.finite .positive n 0 divisor_positive)) := by
  rw [UnpackedFloat.div, divCore]
  dsimp only
  have target : Format.binary64.targetExponent (totalExponent m 0 - totalExponent n 0) =
      max ((m.log2 : ℤ) - n.log2 - 53) (-1074) := by
    have bits : (Format.binary64.mantissaBits : ℤ) = 53 := rfl
    have least : Format.binary64.minExponent = -1074 := rfl
    rw [Format.targetExponent, totalExponent, totalExponent, bits, least]
    omega
  rw [target, Int.sub_zero, Int.zero_sub]
  generalize chosen : min 0 (max ((m.log2 : ℤ) - n.log2 - 53) (-1074)) = place
  refine isRounded_roundWithAccuracy .positive ?_
    (le_lastPlace_div positive divisor_positive (by omega) (by omega))
  have exact_quotient : (m : ℚ) / n / 2 ^ place =
      (m <<< (-place).toNat / n : ℕ) + (m <<< (-place).toNat % n : ℕ) / n := by
    have unit : (n : ℚ) ≠ 0 := by exact_mod_cast divisor_positive.ne'
    have shift : (m : ℚ) / 2 ^ place = (m <<< (-place).toNat : ℕ) := by
      obtain ⟨places, rfl⟩ := Int.exists_eq_neg_ofNat (by omega : place ≤ 0)
      rw [Int.neg_neg, Int.toNat_natCast, Nat.shiftLeft_eq, zpow_neg, zpow_natCast, div_inv_eq_mul]
      push_cast
      rfl
    rw [div_right_comm, shift, div_eq_iff unit, add_mul, div_mul_cancel₀ _ unit]
    exact_mod_cast (Nat.div_add_mod' (m <<< (-place).toNat) n).symm
  rw [exact_quotient]
  exact .ofFraction _ (Nat.mod_lt _ divisor_positive)

section Range

variable {decimal : Decimal}

theorem significand_pos (lower : 2 ^ (-1075 : ℤ) ≤ decimal.toRat) : 0 < decimal.significand := by
  have above : 0 < decimal.toRat := (zpow_pos two_pos _).trans_le lower
  have ten : (0 : ℚ) < 10 ^ decimal.exponent := zpow_pos (by norm_num) _
  exact_mod_cast (pos_iff_pos_of_mul_pos above).mpr ten

theorem exponent_le (positive : 0 < decimal.significand) (upper : decimal.toRat < 2 ^ (1024 : ℤ)) :
    decimal.exponent ≤ 2 ^ 11 := by
  by_contra large
  have ten : (0 : ℚ) < 10 ^ decimal.exponent := zpow_pos (by norm_num) _
  have one : (1 : ℚ) ≤ decimal.significand := by exact_mod_cast positive
  refine absurd upper (not_lt.mpr ?_)
  calc
    (2 : ℚ) ^ (1024 : ℤ) ≤ 2 ^ decimal.exponent := zpow_le_zpow_right₀ one_le_two (by omega)
    _ ≤ 10 ^ decimal.exponent := zpow_le_zpow_left₀ (by omega) two_pos.le (by norm_num)
    _ ≤ decimal.toRat := le_mul_of_one_le_left ten.le one

theorem le_exponent (lower : 2 ^ (-1075 : ℤ) ≤ decimal.toRat) :
    -(2 ^ 11 + (decimal.significand.log2 : ℤ)) ≤ decimal.exponent := by
  by_contra small
  have power : (10 : ℚ) ^ decimal.exponent ≤ 2 ^ decimal.exponent := by
    obtain ⟨places, negative⟩ := Int.exists_eq_neg_ofNat (by omega : decimal.exponent ≤ 0)
    rw [negative, zpow_neg, zpow_neg, zpow_natCast, zpow_natCast]
    exact inv_anti₀ (pow_pos two_pos places) (pow_le_pow_left₀ two_pos.le (by norm_num) places)
  have bits : (decimal.significand : ℚ) < 2 ^ (decimal.significand.log2 + 1) := by
    exact_mod_cast Nat.lt_log2_self
  refine absurd lower (not_le.mpr ?_)
  calc
    decimal.toRat ≤ decimal.significand * 2 ^ decimal.exponent :=
      mul_le_mul_of_nonneg_left power (Nat.cast_nonneg _)
    _ < 2 ^ (decimal.significand.log2 + 1) * 2 ^ decimal.exponent :=
      mul_lt_mul_of_pos_right bits (zpow_pos two_pos _)
    _ = 2 ^ (decimal.exponent + (decimal.significand.log2 + 1 : ℕ)) := (zpow_add_natCast _ _).symm
    _ ≤ 2 ^ (-1075 : ℤ) := zpow_le_zpow_right₀ one_le_two (by omega)

/-- Reading stops early for powers of ten far beyond all floats, but not for numbers among them. -/
theorem isRounded_ofScientific (lower : 2 ^ (-1075 : ℤ) ≤ decimal.toRat)
    (upper : decimal.toRat < 2 ^ (1024 : ℤ)) :
    IsRounded .positive decimal.toRat
      (UnpackedFloat.ofScientific .binary64 decimal.significand decimal.exponent) := by
  have positive := significand_pos lower
  have not_large : ¬decimal.exponent > 2 ^ Format.binary64.exponentBits :=
    not_lt.mpr (exponent_le positive upper)
  have not_small : ¬decimal.exponent <
      -((2 ^ Format.binary64.exponentBits : ℤ) + decimal.significand.log2) :=
    not_lt.mpr (le_exponent lower)
  rw [UnpackedFloat.ofScientific, dif_neg positive.ne', if_neg not_large, if_neg not_small, toRat]
  split
  · rename_i nonneg
    obtain ⟨places, whole⟩ := Int.eq_ofNat_of_zero_le nonneg
    rw [whole, zpow_natCast]
    exact isRounded_mul positive places
  · rename_i negative
    obtain ⟨places, moved⟩ := Int.exists_eq_neg_ofNat (by omega : decimal.exponent ≤ 0)
    have divided := isRounded_div positive (Nat.pow_pos (by decide) : 0 < 10 ^ places)
    push_cast at divided
    simp only [moved, Int.neg_neg, Int.toNat_natCast, zpow_neg, zpow_natCast, ← div_eq_mul_inv]
    exact divided

end Range

theorem toFloat_eq_pack (decimal : Decimal) :
    decimal.toFloat =
      pack (UnpackedFloat.ofScientific .binary64 decimal.significand decimal.exponent) :=
  rfl

/-- A decimal number is read as the float in whose interval it lies. -/
theorem toFloat_eq_of_roundsTo {decimal : Decimal} {x : Float} {mantissa : ℕ} {exponent : ℤ}
    {positive : 0 < mantissa} (parts : unpack x = .finite .positive mantissa exponent positive)
    (rounds : RoundsTo decimal.toRat mantissa exponent) : decimal.toFloat = x := by
  have canonical := isCanonical_of_unpack parts
  have rounded := isRounded_ofScientific (rounds.ge canonical positive) (rounds.lt canonical)
  rw [toFloat_eq_pack, rounded.eq_of_roundsTo canonical rounds positive, ← parts, pack_unpack]

end Decimal
end Calculator
