import Calculator.Proofs.Binary64.Integer
import Calculator.Proofs.Value.Integer

/-!
# Powers of integers

A power with an exponent that is not negative is exact or overflows.  With a negative exponent both
operands become floats, and the sign follows the parity of the exponent only as long as it is exact
there: every float from `2 ^ 53` on is even.
-/

namespace Calculator

open Binary64 (toRat? sign)

/-- A library's powers have the sign of exact powers, and those of -1 are exact. -/
structure PowerSigns (power : Float → Float → Float) : Prop where
  positive_base {base exponent : Float} {n : Int} : 0 < base → toRat? exponent = some (n : ℚ) →
    sign (power base exponent) = .positive
  negative_base {base exponent : Float} {n : Int} : base < 0 → toRat? exponent = some (n : ℚ) →
    (sign (power base exponent) = .negative ↔ Odd n)
  minus_one {exponent : Float} {n : Int} : toRat? exponent = some (n : ℚ) →
    power (Binary64.ofInt (-1)) exponent = Binary64.ofInt (if Odd n then -1 else 1)

namespace Value

/-- Whether a value is negative, by the sign bit for a float. -/
def IsNegative : Value → Prop
  | integer n => n.toInt < 0
  | float x => sign x = .negative
  | signalingNaN => False

/-- An integer power is exact if 64 bits hold it, and otherwise it overflows. -/
theorem pow_eq_exact_or_overflow {base exponent : Int64} (natural : 0 ≤ exponent) :
    (Fits (base.toInt ^ exponent.toInt.toNat) ↔
      ∃ result : Int64, result.toInt = base.toInt ^ exponent.toInt.toNat ∧
        pow (integer base) (integer exponent) = .ok (integer result)) ∧
    (¬Fits (base.toInt ^ exponent.toInt.toNat) ↔
      pow (integer base) (integer exponent) = .error .overflow) := by
  have natural : 0 ≤ exponent.toInt := Int64.le_iff_toInt_le.mp natural
  rw [pow, powWith_integer base natural]
  refine ⟨⟨ofInt_of_fits, ?_⟩, ofInt_of_not_fits, fun failed => (not_fits_of_ofInt failed).1⟩
  rintro ⟨result, size, _⟩
  rw [← size]
  exact fits_toInt result

/-- The largest power of -2 has no positive counterpart. -/
theorem pow_minus_two_sixty_three :
    (0 : Int64) ≤ 63 ∧ pow (integer (-2)) (integer 63) = .ok (integer Int64.minValue) := by
  have natural : (0 : Int64) ≤ 63 := by decide
  have fits : Fits ((-2 : Int64).toInt ^ (63 : Int64).toInt.toNat) := by decide
  obtain ⟨result, size, found⟩ := (pow_eq_exact_or_overflow natural).1.mp fits
  have least : result = Int64.minValue := Int64.toInt_inj.mp (size.trans (by decide))
  exact ⟨natural, least ▸ found⟩

variable {power : Float → Float → Float}

theorem pow_lt_zero_iff {base : Int} {exponent : Nat} :
    base ^ exponent < 0 ↔ base < 0 ∧ Odd exponent := by
  rcases Nat.even_or_odd exponent with even | odd
  · refine iff_of_false (not_lt.mpr (even.pow_nonneg base)) ?_
    rintro ⟨_, odd⟩
    exact Nat.not_odd_iff_even.mpr even odd
  · rw [odd.pow_neg_iff, and_iff_left odd]

theorem odd_toNat_iff {n : Int} (natural : 0 ≤ n) : Odd n.toNat ↔ Odd n := by
  rw [← Int.odd_coe_nat, Int.toNat_of_nonneg natural]

theorem isNegative_of_natural_exponent {base exponent : Int64} {value : Value}
    (natural : 0 ≤ exponent.toInt)
    (result : powWith power (integer base) (integer exponent) = .ok value) :
    value.IsNegative ↔ base.toInt < 0 ∧ Odd exponent.toInt := by
  rw [powWith_integer base natural] at result
  obtain ⟨size, exact, rfl⟩ := ofInt_eq_ok_iff.mp result
  rw [IsNegative, exact, pow_lt_zero_iff, odd_toNat_iff natural]

theorem powWith_minus_one_of_natural_exponent {exponent : Int64} (natural : 0 ≤ exponent.toInt) :
    ∃ value, powWith power (integer (-1)) (integer exponent) = .ok value ∧
      value.toFloat = Binary64.ofInt (if Odd exponent.toInt then -1 else 1) := by
  rw [powWith_integer (-1) natural]
  by_cases odd : Odd exponent.toInt
  · have exact : (-1 : Int) ^ exponent.toInt.toNat = -1 :=
      ((odd_toNat_iff natural).mpr odd).neg_one_pow
    rw [if_pos odd]
    exact ⟨integer (-1), (congrArg ofInt exact).trans (ofInt_toInt (-1)), rfl⟩
  · have even := Nat.not_odd_iff_even.mp (mt (odd_toNat_iff natural).mp odd)
    have exact : (-1 : Int) ^ exponent.toInt.toNat = 1 := even.neg_one_pow
    rw [if_neg odd]
    exact ⟨integer 1, (congrArg ofInt exact).trans (ofInt_toInt 1), rfl⟩

theorem powWith_of_negative_exponent {base exponent : Int64} (nonzero : base.toInt ≠ 0)
    (negative : exponent.toInt < 0) :
    powWith power (integer base) (integer exponent) =
      let result := power (Binary64.ofInt base.toInt) (Binary64.ofInt exponent.toInt)
      if result.isInf then .error .overflow else .ok (float result) := by
  have base_bound := natAbs_toInt_lt base
  have exponent_bound := natAbs_toInt_lt exponent
  rw [powWith, if_neg (by omega), floatPow, toFloat, toFloat,
    Binary64.ofInt_beq_zero base_bound nonzero, Binary64.hasFraction_ofInt exponent_bound,
    Binary64.isFinite_ofInt base_bound, Binary64.isFinite_ofInt exponent_bound]
  simp only [Bool.false_and, Bool.and_false, Bool.and_true, Bool.false_eq_true, if_false]

/-- The exponent as a float is even if it is below `-2 ^ 53`, and exact otherwise. -/
theorem exists_toRat?_exponent {exponent : Int64} (negative : exponent.toInt < 0) :
    ∃ n : Int, toRat? (Binary64.ofInt exponent.toInt) = some (n : ℚ) ∧
      (Odd n ↔ Odd exponent.toInt ∧ -9007199254740992 ≤ exponent.toInt) := by
  rcases Nat.lt_or_ge exponent.toInt.natAbs (2 ^ 53) with small | large
  · refine ⟨exponent.toInt, Binary64.toRat?_ofInt_of_lt small, ?_⟩
    exact (and_iff_left (by omega)).symm
  · obtain ⟨n, size, even⟩ :=
      Binary64.exists_even_toRat?_ofInt large (natAbs_toInt_lt exponent)
    refine ⟨n, size, iff_of_false (Int.not_odd_iff_even.mpr even) ?_⟩
    rintro ⟨odd, least⟩
    have last : exponent.toInt = -9007199254740992 := by omega
    rw [last] at odd
    exact absurd odd (by decide)

section Laws

variable (laws : PowerSigns power)

include laws

theorem isNegative_of_negative_exponent {base exponent : Int64} {value : Value}
    (nonzero : base.toInt ≠ 0) (negative : exponent.toInt < 0)
    (result : powWith power (integer base) (integer exponent) = .ok value) :
    value.IsNegative ↔
      base.toInt < 0 ∧ Odd exponent.toInt ∧ -9007199254740992 ≤ exponent.toInt := by
  rw [powWith_of_negative_exponent nonzero negative] at result
  dsimp only at result
  split at result
  · cases result
  cases result
  obtain ⟨n, size, parity⟩ := exists_toRat?_exponent negative
  have bound := natAbs_toInt_lt base
  rw [← parity]
  rcases Int.lt_or_gt_of_ne nonzero with below | above
  · rw [and_iff_right below]
    exact laws.negative_base ((Binary64.ofInt_lt_zero_iff bound).mpr below) size
  · refine iff_of_false ?_ (fun both => absurd both.1 (not_lt.mpr above.le))
    intro reached
    have positive := laws.positive_base (Binary64.zero_lt_ofInt bound above) size
    exact absurd (reached.symm.trans positive) nofun

theorem powWith_minus_one_of_negative_exponent {exponent : Int64} (negative : exponent.toInt < 0) :
    ∃ value, powWith power (integer (-1)) (integer exponent) = .ok value ∧
      value.toFloat = Binary64.ofInt
        (if Odd exponent.toInt ∧ -9007199254740992 ≤ exponent.toInt then -1 else 1) := by
  obtain ⟨n, size, parity⟩ := exists_toRat?_exponent negative
  have unit := laws.minus_one size
  rw [if_congr parity rfl rfl] at unit
  have finite : ¬(power (Binary64.ofInt (-1)) (Binary64.ofInt exponent.toInt)).isInf := by
    rw [unit]
    split <;> decide
  refine ⟨float (power (Binary64.ofInt (-1)) (Binary64.ofInt exponent.toInt)), ?_, unit⟩
  rw [powWith_of_negative_exponent (by decide) negative]
  exact if_neg finite

/-- A power of an integer other than zero is negative if its base is and its exponent is odd, as
long as that exponent is not too small to be exact as a float.  So are the powers of -1. -/
theorem sign_of_integer_power :
    (∀ (base exponent : Int64) (value : Value), base ≠ 0 →
      powWith power (integer base) (integer exponent) = .ok value →
      (value.IsNegative ↔
        base < 0 ∧ Odd exponent.toInt ∧ -9007199254740992 ≤ exponent.toInt)) ∧
    ∀ exponent : Int64, ∃ value, powWith power (integer (-1)) (integer exponent) = .ok value ∧
      value.toFloat = Binary64.ofInt
        (if Odd exponent.toInt ∧ -9007199254740992 ≤ exponent.toInt then -1 else 1) := by
  have parity {exponent : Int64} (natural : 0 ≤ exponent.toInt) :
      Odd exponent.toInt ↔ Odd exponent.toInt ∧ -9007199254740992 ≤ exponent.toInt :=
    (and_iff_left (le_trans (by decide) natural)).symm
  refine ⟨fun base exponent value nonzero result => ?_, fun exponent => ?_⟩
  · have nonzero : base.toInt ≠ 0 := fun zero => nonzero (Int64.toInt_inj.mp zero)
    rw [Int64.lt_iff_toInt_lt]
    rcases lt_or_ge exponent.toInt 0 with negative | natural
    · exact isNegative_of_negative_exponent laws nonzero negative result
    · rw [← parity natural]
      exact isNegative_of_natural_exponent natural result
  · rcases lt_or_ge exponent.toInt 0 with negative | natural
    · exact powWith_minus_one_of_negative_exponent laws negative
    · have unit := @powWith_minus_one_of_natural_exponent power exponent natural
      rwa [if_congr (parity natural) rfl rfl] at unit

end Laws

/-- The power of 1 or -1, by the sign of the base. -/
def unitPower (base exponent : Float) : Float :=
  match toRat? exponent with
  | some size => if base < 0 ∧ Odd size.num then Binary64.ofInt (-1) else Binary64.ofInt 1
  | none => Binary64.ofInt 1

theorem unitPower_of_integer {base exponent : Float} {n : Int}
    (size : toRat? exponent = some (n : ℚ)) :
    unitPower base exponent = Binary64.ofInt (if base < 0 ∧ Odd n then -1 else 1) := by
  rw [unitPower, size]
  exact (apply_ite Binary64.ofInt (base < 0 ∧ Odd n) (-1) 1).symm

theorem powerSigns_unitPower : PowerSigns unitPower where
  positive_base above size := by
    rw [unitPower_of_integer size, if_neg fun both => Binary64.not_lt_zero_of_zero_lt above both.1]
    rfl
  negative_base {_ _ n} below size := by
    rw [unitPower_of_integer size]
    by_cases odd : Odd n
    · rw [if_pos ⟨below, odd⟩]
      exact iff_of_true rfl odd
    · rw [if_neg fun both => odd both.2]
      exact iff_of_false nofun odd
  minus_one size := by
    have below : Binary64.ofInt (-1) < 0 := by decide
    rw [unitPower_of_integer size, if_congr (and_iff_right below) rfl rfl]

/-- The odd exponent furthest from zero that is exact as a float. -/
theorem sign_of_last_odd_power :
    PowerSigns unitPower ∧
    (-1 : Int64) ≠ 0 ∧
    ∃ value, powWith unitPower (integer (-1)) (integer (-9007199254740991)) = .ok value ∧
      value.toFloat = Binary64.ofInt (-1) ∧ value.IsNegative := by
  obtain ⟨signs, units⟩ := sign_of_integer_power powerSigns_unitPower
  obtain ⟨value, result, size⟩ := units (-9007199254740991)
  refine ⟨powerSigns_unitPower, by decide, value, result, size, ?_⟩
  exact (signs _ _ value (by decide) result).mpr (by decide)

/-- The next odd exponent is even as a float, so that the power of -1 is 1. -/
theorem exists_odd_power_not_negative :
    (∃ power, PowerSigns power) ∧
    ∀ power, PowerSigns power → ∃ value,
      powWith power (integer (-1)) (integer (-9007199254740993)) = .ok value ∧
      value.toFloat = Binary64.ofInt 1 ∧
      ¬(value.IsNegative ↔ (-1 : Int64) < 0 ∧ Odd (-9007199254740993 : Int64).toInt) := by
  refine ⟨⟨unitPower, powerSigns_unitPower⟩, fun power laws => ?_⟩
  have negative : (-9007199254740993 : Int64).toInt < 0 := by decide
  obtain ⟨value, result, size⟩ := powWith_minus_one_of_negative_exponent laws negative
  refine ⟨value, result, size, fun signs => ?_⟩
  have inexact := (isNegative_of_negative_exponent laws (by decide) negative result).mp
    (signs.mpr (by decide))
  exact absurd inexact.2.2 (by decide)

end Value
end Calculator
