import Calculator.Proofs.Binary64.Nearest

/-!
# Canonical parts

The exponent of canonical parts is the place of their last bit, so that they are ordered as the
numbers are.  Rounding a number that is no greater than a float gives canonical parts that are no
greater either.
-/

namespace Calculator
namespace Binary64

open Float.Model (UnpackedFloat)
open Float.Model.UnpackedFloat (Sign)

variable {x y : Float} {sign : Sign} {mantissa : ℕ} {exponent : ℤ} {positive : 0 < mantissa}

theorem mul_zpow_div (n : ℕ) (place : ℤ) : (n : ℚ) * 2 ^ place / 2 ^ place = n :=
  mul_div_cancel_right₀ _ (zpow_ne_zero place two_ne_zero)

/-- The place of the last bit is the exponent of canonical parts. -/
theorem isCanonical_iff :
    IsCanonical mantissa exponent ↔
      IsLastPlace (mantissa * 2 ^ exponent) exponent ∧ exponent ≤ 971 := by
  have bits : (mantissa : ℚ) * 2 ^ exponent / 2 ^ exponent < 2 ^ 53 ↔ mantissa < 2 ^ 53 := by
    rw [mul_zpow_div]
    exact_mod_cast Iff.rfl
  have full : (2 : ℚ) ^ 52 ≤ mantissa * 2 ^ exponent / 2 ^ exponent ↔ 2 ^ 52 ≤ mantissa := by
    rw [mul_zpow_div]
    exact_mod_cast Iff.rfl
  constructor
  · intro canonical
    exact ⟨⟨bits.mpr canonical.bits, canonical.least, canonical.full.imp id full.mpr⟩,
      canonical.greatest⟩
  · rintro ⟨last, greatest⟩
    exact ⟨bits.mp last.below, last.least, greatest, last.full.imp id full.mp⟩

theorem IsCanonical.le_of_le {other : ℕ} {otherExponent : ℤ}
    (left : IsCanonical mantissa exponent) (right : IsCanonical other otherExponent)
    (less : (mantissa : ℚ) * 2 ^ exponent ≤ other * 2 ^ otherExponent) :
    exponent < otherExponent ∨ exponent = otherExponent ∧ mantissa ≤ other := by
  have lower : exponent ≤ otherExponent :=
    (isCanonical_iff.mp left).1.le_of_le less (isCanonical_iff.mp right).1.below right.least
  rcases lower.lt_or_eq with lower | rfl
  · exact .inl lower
  · have unit : (0 : ℚ) < 2 ^ exponent := zpow_pos two_pos exponent
    exact .inr ⟨rfl, by exact_mod_cast le_of_mul_le_mul_right less unit⟩

/-- Floats are compared by size as the numbers of their parts are. -/
theorem abs_le_abs_of_le {otherSign : Sign} {other : ℕ} {otherExponent : ℤ}
    {otherPositive : 0 < other} (left : unpack x = .finite sign mantissa exponent positive)
    (right : unpack y = .finite otherSign other otherExponent otherPositive)
    (less : (mantissa : ℚ) * 2 ^ exponent ≤ other * 2 ^ otherExponent) : x.abs ≤ y.abs := by
  rw [le_iff, unpack_abs, unpack_abs, left, right]
  change ((compare exponent otherExponent).then (compare mantissa other)).isLE = true
  rcases (isCanonical_of_unpack left).le_of_le (isCanonical_of_unpack right) less with
    lower | ⟨rfl, lower⟩
  · rw [Int.compare_eq_lt.mpr lower]
    rfl
  · rw [Int.compare_eq_eq.mpr rfl]
    exact Nat.isLE_compare.mpr lower

variable {value : ℚ} {parts : UnpackedFloat} {place : ℤ}

theorem exists_carried (sign : Sign) (last : IsLastPlace value place)
    (nearest : IsNearest (value / 2 ^ place) mantissa) (normal : 2 ^ (-1074 : ℤ) ≤ value) :
    ∃ (bits : ℕ) (exponent : ℤ) (nonzero : 0 < bits),
      carried sign mantissa place = .finite sign bits exponent nonzero ∧
      IsLastPlace (bits * 2 ^ exponent) exponent ∧
      (bits : ℚ) * 2 ^ exponent = mantissa * 2 ^ place := by
  have bound : mantissa ≤ 2 ^ 53 := nearest.le_of_le (by exact_mod_cast last.below.le)
  have full : place = -1074 ∨ 2 ^ 52 ≤ mantissa :=
    last.full.imp id fun full => nearest.ge_of_ge (by exact_mod_cast full)
  have nonzero : 0 < mantissa := by
    rcases full with rfl | full
    · have one : ((1 : ℕ) : ℚ) ≤ value / 2 ^ (-1074 : ℤ) := by
        rw [le_div_iff₀ (zpow_pos two_pos _), Nat.cast_one, one_mul]
        exact normal
      exact nearest.ge_of_ge one
    · exact Nat.lt_of_lt_of_le (Nat.two_pow_pos 52) full
  rcases Nat.lt_or_eq_of_le bound with small | rfl
  · refine ⟨mantissa, place, nonzero, carried_of_lt nonzero small, ⟨?_, last.least, ?_⟩, rfl⟩
    · rw [mul_zpow_div]
      exact_mod_cast small
    · rw [mul_zpow_div]
      exact_mod_cast full
  · have size : ((2 ^ 52 : ℕ) : ℚ) * 2 ^ (place + 1) = (2 ^ 53 : ℕ) * 2 ^ place := by
      rw [zpow_add_one₀ two_ne_zero]
      push_cast
      ring
    have least := last.least
    refine ⟨2 ^ 52, place + 1, Nat.two_pow_pos 52, rfl, ⟨?_, by omega, .inr ?_⟩, size⟩
    · rw [mul_zpow_div]
      norm_num
    · rw [mul_zpow_div]
      norm_num

section Rounded

variable (rounded : IsRounded sign value parts) (normal : 2 ^ (-1074 : ℤ) ≤ value)

include rounded normal

/-- A number that is no greater than a float is rounded to canonical parts that are no greater. -/
theorem IsRounded.exists_le (canonical : IsCanonical mantissa exponent)
    (bound : value ≤ mantissa * 2 ^ exponent) :
    ∃ (bits : ℕ) (place : ℤ) (nonzero : 0 < bits), parts = .finite sign bits place nonzero ∧
      IsCanonical bits place ∧ (bits : ℚ) * 2 ^ place ≤ mantissa * 2 ^ exponent := by
  obtain ⟨last, rounded, isLast, nearest, rfl⟩ := rounded
  obtain ⟨bits, place, nonzero, finite, place_last, size⟩ :=
    exists_carried sign isLast nearest normal
  have below := (isCanonical_iff.mp canonical).1.below
  obtain ⟨places, rfl⟩ := Int.le.dest (isLast.le_of_le bound below canonical.least)
  have unit : (0 : ℚ) < 2 ^ last := zpow_pos two_pos last
  have less : (bits : ℚ) * 2 ^ place ≤ mantissa * 2 ^ (last + places) := by
    rw [zpow_add_natCast, ← mul_assoc, ← div_le_iff₀ unit] at bound
    have whole : rounded ≤ mantissa * 2 ^ places := nearest.le_of_le (by exact_mod_cast bound)
    rw [size, zpow_add_natCast, ← mul_assoc]
    exact mul_le_mul_of_nonneg_right (by exact_mod_cast whole) unit.le
  have greatest := (place_last.le_of_le less below canonical.least).trans canonical.greatest
  exact ⟨bits, place, nonzero, finite, isCanonical_iff.mpr ⟨place_last, greatest⟩, less⟩

theorem IsRounded.exists_eq (few : mantissa < 2 ^ 53) (least : -1074 ≤ exponent)
    (greatest : exponent ≤ 971) (same : value = mantissa * 2 ^ exponent) :
    ∃ (bits : ℕ) (place : ℤ) (nonzero : 0 < bits), parts = .finite sign bits place nonzero ∧
      IsCanonical bits place ∧ (bits : ℚ) * 2 ^ place = value := by
  obtain ⟨last, rounded, isLast, nearest, rfl⟩ := rounded
  obtain ⟨bits, place, nonzero, finite, place_last, size⟩ :=
    exists_carried sign isLast nearest normal
  have below : value / 2 ^ exponent < 2 ^ 53 := by
    rw [same, mul_zpow_div]
    exact_mod_cast few
  obtain ⟨places, rfl⟩ := Int.le.dest (isLast.le_of_le le_rfl below least)
  have whole : value / 2 ^ last = (mantissa * 2 ^ places : ℕ) := by
    rw [same, zpow_add_natCast, ← mul_assoc]
    exact_mod_cast mul_zpow_div (mantissa * 2 ^ places) last
  have unchanged : (bits : ℚ) * 2 ^ place = value := by
    rw [whole] at nearest
    rw [size, nearest.eq_of_natCast, ← whole, div_mul_cancel₀ _ (zpow_ne_zero last two_ne_zero)]
  have bounded := (place_last.le_of_le unchanged.le below least).trans greatest
  exact ⟨bits, place, nonzero, finite, isCanonical_iff.mpr ⟨place_last, bounded⟩, unchanged⟩

end Rounded

end Binary64
end Calculator
