import Calculator.Numeral.Shortest
import Calculator.Proofs.Numeral.Decimal

/-!
# Shortest decimals read back

Every grid is tried with the interval of the float, stretched until all of its points are whole
numbers.  A point that is found rounds to the float, and the last grid has the float itself, so that
the decimal number that the search ends with is read as the float again.
-/

namespace Calculator
namespace Decimal

open Binary64
open Float.Model.UnpackedFloat (Sign)

variable {mantissa : ℕ} {exponent : ℤ}

theorem Interval.bounds_of_contains {interval : Interval} {factor number : ℕ} {quarters : ℚ}
    (positive : 0 < factor) (stretched : quarters * factor = number)
    (inside : interval.contains factor number) :
    (interval.lower : ℚ) ≤ quarters ∧ quarters ≤ interval.upper ∧
      (interval.closed = true ∨ (interval.lower : ℚ) < quarters ∧ quarters < interval.upper) := by
  have factor_cast : (0 : ℚ) < factor := by exact_mod_cast positive
  unfold contains at inside
  split at inside
  · rename_i closed
    simp only [Bool.and_eq_true, decide_eq_true_eq, ← @Nat.cast_le ℚ, Nat.cast_mul, ← stretched,
      mul_le_mul_iff_left₀ factor_cast] at inside
    exact ⟨inside.1, inside.2, .inl closed⟩
  · simp only [Bool.and_eq_true, decide_eq_true_eq, ← @Nat.cast_lt ℚ, Nat.cast_mul, ← stretched,
      mul_lt_mul_iff_left₀ factor_cast] at inside
    exact ⟨inside.1.le, inside.2.le, .inr inside⟩

theorem lower_interval (positive : 0 < mantissa) :
    (4 * mantissa - 2 : ℚ) ≤ (interval mantissa exponent).lower := by
  have bound : 4 * mantissa ≤ (interval mantissa exponent).lower + 2 := by
    unfold interval
    dsimp only
    split <;> omega
  have bound_cast : (4 * mantissa : ℚ) ≤ (interval mantissa exponent).lower + 2 := by
    exact_mod_cast bound
  linarith

theorem lower_interval_of_edge (edge : mantissa = 2 ^ 52) (higher : -1074 < exponent) :
    ((interval mantissa exponent).lower : ℚ) = 4 * 2 ^ 52 - 1 := by
  have lower : (interval mantissa exponent).lower = 4 * mantissa - 1 := if_pos ⟨edge, higher⟩
  rw [lower, edge]
  norm_num

theorem roundsTo_of_contains {factor number : ℕ} {value : ℚ} (positive : 0 < mantissa)
    (factor_positive : 0 < factor) (stretched : 4 * (value / 2 ^ exponent) * factor = number)
    (inside : (interval mantissa exponent).contains factor number) :
    RoundsTo value mantissa exponent := by
  obtain ⟨above, below, strict⟩ := Interval.bounds_of_contains factor_positive stretched inside
  have lower := @lower_interval mantissa exponent positive
  have upper : ((interval mantissa exponent).upper : ℚ) = 4 * mantissa + 2 := by
    exact_mod_cast rfl
  refine ⟨?nearest, fun edge higher => ?edge⟩
  case nearest =>
    rcases strict with closed | ⟨above, below⟩
    · have even : Even mantissa := Nat.even_iff.mpr (of_decide_eq_true closed)
      have close : |value / 2 ^ exponent - mantissa| ≤ 1 / 2 := by
        rw [abs_le]
        constructor <;> linarith
      exact close.lt_or_eq.imp id fun tie => ⟨tie, even⟩
    · left
      rw [abs_lt]
      constructor <;> linarith
  case edge =>
    have lower_edge := lower_interval_of_edge edge higher
    linarith

theorem pow_toNat {base : ℚ} (nonzero : base ≠ 0) (n : ℤ) :
    base ^ n.toNat = base ^ n * base ^ (-n).toNat := by
  rw [← zpow_natCast, ← zpow_natCast, ← zpow_add₀ nonzero]
  congr 1
  omega

theorem roundsTo_of_onGrid? {grid : ℤ} {significand : ℕ} (positive : 0 < mantissa)
    (found : onGrid? mantissa exponent grid = some significand) :
    RoundsTo (significand * 10 ^ grid) mantissa exponent := by
  unfold onGrid? at found
  dsimp only at found
  generalize centred : (interval mantissa exponent).centre = centre at found
  generalize stretch : Nat.pow 10 (-grid).toNat <<< (exponent - 2).toNat = factor at found
  generalize step : Nat.pow 10 grid.toNat <<< (2 - exponent).toNat = unit at found
  have inside : (interval mantissa exponent).contains factor (significand * unit) := by
    split at found
    · rename_i below above
      split at found <;> cases found
      · exact below
      · exact above
    · rename_i below above
      cases found
      exact below
    · rename_i below above
      cases found
      exact above
    · cases found
  have factor_cast : (factor : ℚ) = 10 ^ (-grid).toNat * 2 ^ (exponent - 2).toNat := by
    rw [← stretch, Nat.shiftLeft_eq]
    exact_mod_cast rfl
  have unit_cast : (unit : ℚ) = 10 ^ grid.toNat * 2 ^ (2 - exponent).toNat := by
    rw [← step, Nat.shiftLeft_eq]
    exact_mod_cast rfl
  have factor_positive : 0 < factor := by
    rw [← stretch, Nat.shiftLeft_eq]
    exact Nat.mul_pos (Nat.pow_pos (by decide)) (Nat.two_pow_pos _)
  refine roundsTo_of_contains positive factor_positive ?_ inside
  have ten : (10 : ℚ) ≠ 0 := by norm_num
  have two : (2 : ℚ) ^ exponent ≠ 0 := zpow_ne_zero exponent two_ne_zero
  have quarter : (2 : ℚ) ^ (2 - exponent) = 4 / 2 ^ exponent := by
    rw [zpow_sub₀ two_ne_zero]
    norm_num
  push_cast
  rw [unit_cast, factor_cast, pow_toNat ten grid, pow_toNat two_ne_zero (2 - exponent), neg_sub,
    quarter]
  ring

theorem toRat_search_zero (mantissa : ℕ) (exponent : ℤ) :
    (search mantissa exponent 0).toRat = mantissa * 2 ^ exponent := by
  have least : finest exponent = -((-exponent).toNat : ℤ) := by
    unfold finest
    omega
  have ten : (10 : ℚ) ^ (-exponent).toNat = 2 ^ (-exponent).toNat * 5 ^ (-exponent).toNat := by
    rw [← mul_pow]
    norm_num
  have significand : ((search mantissa exponent 0).significand : ℚ) =
      mantissa * 5 ^ (-exponent).toNat * 2 ^ exponent.toNat := by
    unfold search
    rw [Nat.shiftLeft_eq]
    exact_mod_cast rfl
  rw [toRat, significand, search, least, zpow_neg, zpow_natCast, ten,
    pow_toNat two_ne_zero exponent]
  field_simp

/-- The search ends with a number that rounds to the float. -/
theorem roundsTo_search (positive : 0 < mantissa) (steps : ℕ) :
    RoundsTo (search mantissa exponent steps).toRat mantissa exponent := by
  induction steps with
  | zero =>
      rw [toRat_search_zero]
      exact roundsTo_self mantissa exponent
  | succ steps induction =>
      rw [search]
      split
      · rename_i found
        exact roundsTo_of_onGrid? positive found
      · exact induction

/-- The shortest decimal number for a float is read as this float. -/
theorem toFloat_shortest {x : Float} {positive : 0 < mantissa}
    (parts : unpack x = .finite .positive mantissa exponent positive) :
    (shortest mantissa exponent).toFloat = x :=
  toFloat_eq_of_roundsTo parts (roundsTo_search positive _)

/-- A whole number that rounds to a float with places behind the point is the float itself. -/
theorem mod_eq_zero_of_roundsTo {decimal : Decimal} (whole : 0 ≤ decimal.exponent)
    (rounds : RoundsTo decimal.toRat mantissa exponent) :
    mantissa % (1 <<< (-exponent).toNat) = 0 := by
  obtain ⟨significand, places⟩ := decimal
  obtain ⟨places, rfl⟩ := Int.eq_ofNat_of_zero_le whole
  have nearest := rounds.nearest
  rcases le_or_gt 0 exponent with nonneg | negative
  · rw [Int.toNat_of_nonpos (by omega), Nat.shiftLeft_zero, Nat.mod_one]
  · obtain ⟨bits, rfl⟩ := Int.exists_eq_neg_ofNat negative.le
    have scaled : toRat ⟨significand, places⟩ / 2 ^ (-bits : ℤ) =
        ((significand * 10 ^ places * 2 ^ bits : ℕ) : ℚ) := by
      rw [toRat, zpow_neg, zpow_natCast, zpow_natCast, div_inv_eq_mul]
      push_cast
      rfl
    rw [scaled] at nearest
    rw [nearest.eq_of_natCast, Int.neg_neg, Int.toNat_natCast, Nat.one_shiftLeft, Nat.mul_mod_left]

/-- The shortest decimal number for a float with a fraction has places behind the point. -/
theorem exponent_shortest_neg (positive : 0 < mantissa)
    (fraction : mantissa % (1 <<< (-exponent).toNat) ≠ 0) :
    (shortest mantissa exponent).exponent < 0 := by
  by_contra whole
  exact fraction (mod_eq_zero_of_roundsTo (not_lt.mp whole) (roundsTo_search positive _))

theorem shifted_whole_eq (whole : mantissa % (1 <<< (-exponent).toNat) = 0) :
    ((mantissa <<< exponent.toNat >>> (-exponent).toNat : ℕ) : ℚ) = mantissa * 2 ^ exponent := by
  have divides : 2 ^ (-exponent).toNat ∣ mantissa * 2 ^ exponent.toNat := by
    rw [Nat.one_shiftLeft] at whole
    exact Dvd.dvd.mul_right (Nat.dvd_of_mod_eq_zero whole) _
  have unit : (2 : ℚ) ^ (-exponent).toNat ≠ 0 := pow_ne_zero _ two_ne_zero
  rw [Nat.shiftLeft_eq, Nat.shiftRight_eq_div_pow, Nat.cast_div divides (by exact_mod_cast unit)]
  push_cast
  rw [pow_toNat two_ne_zero exponent, ← mul_assoc, mul_div_cancel_right₀ _ unit]

end Decimal
end Calculator
