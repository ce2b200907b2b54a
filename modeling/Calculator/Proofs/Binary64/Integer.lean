import Calculator.Proofs.Binary64.Parts

/-!
# Integers as floats

The float for an integer of 64 bits is a number of the same sign.  It is the integer itself up to
53 bits; a larger one is rounded to a multiple of a power of two, so that it is always even.
-/

namespace Calculator
namespace Binary64

open Float.Model (UnpackedFloat)
open Float.Model.UnpackedFloat (Sign)

/-- The number that a float is, if it is one. -/
def toRat? (x : Float) : Option ℚ :=
  match unpack x with
  | .zero _ => some 0
  | .finite sign mantissa exponent _ => some (sign.apply mantissa * 2 ^ exponent)
  | .infinity _ | .notANumber => none

/-- The sign of an integer other than zero. -/
def signOf (n : Int) : Sign :=
  if n < 0 then .negative else .positive

theorem apply_signOf (n : Int) : (signOf n).apply n.natAbs = n := by
  unfold signOf
  split
  · change -(n.natAbs : Int) = n
    omega
  · change (n.natAbs : Int) = n
    omega

theorem signOf_eq_negative_iff {n : Int} : signOf n = .negative ↔ n < 0 := by
  unfold signOf
  split
  · rename_i negative
    exact iff_of_true rfl negative
  · rename_i nonneg
    exact iff_of_false nofun nonneg

theorem ofInt_eq_pack {n : Int} (nonzero : n ≠ 0) :
    ofInt n = pack (UnpackedFloat.round .binary64 (signOf n) n.natAbs 0) := by
  have parts : UnpackedFloat.ofInt .binary64 n =
      UnpackedFloat.round .binary64 (signOf n) n.natAbs 0 := by
    rw [UnpackedFloat.ofInt, UnpackedFloat.normalize, signOf]
    rcases Int.lt_or_gt_of_ne nonzero with negative | positive
    · have size : n.natAbs = (-n).toNat := by omega
      rw [Int.compare_eq_lt.mpr negative, if_pos negative, size]
    · have size : n.natAbs = n.toNat := by omega
      rw [Int.compare_eq_gt.mpr positive, if_neg (by omega), size]
  exact congrArg pack parts

theorem unpack_ofInt_of_lt {n : Int} (nonzero : n ≠ 0) (small : n.natAbs < 2 ^ 53) :
    ∃ positive, unpack (ofInt n) =
      .finite (signOf n) (n.natAbs * 2 ^ (52 - n.natAbs.log2)) (-(52 - n.natAbs.log2 : Nat))
        positive := by
  have positive : 0 < n.natAbs := by omega
  rw [ofInt_eq_pack nonzero, round_of_lt positive small]
  exact ⟨_, unpack_pack_of_isNormal (isNormal_of_lt positive small)⟩

theorem unpack_ofInt_of_ge {n : Int} (large : 2 ^ 53 ≤ n.natAbs) (bound : n.natAbs < 2 ^ 64) :
    ∃ (mantissa : Nat) (exponent : Int) (positive : 0 < mantissa),
      unpack (ofInt n) = .finite (signOf n) mantissa exponent positive ∧ 0 < exponent := by
  obtain ⟨mantissa, exponent, positive, rounded, normal, whole⟩ :=
    round_of_ge large bound (signOf n)
  have nonzero : n ≠ 0 := by omega
  rw [ofInt_eq_pack nonzero, rounded]
  exact ⟨mantissa, exponent, positive, unpack_pack_of_isNormal normal, whole⟩

/-- The float for an integer other than zero is a number of the same sign, without a fraction. -/
theorem exists_unpack_ofInt {n : Int} (nonzero : n ≠ 0) (bound : n.natAbs < 2 ^ 64) :
    ∃ (mantissa : Nat) (exponent : Int) (positive : 0 < mantissa),
      unpack (ofInt n) = .finite (signOf n) mantissa exponent positive ∧
        mantissa % (1 <<< (-exponent).toNat) = 0 := by
  rcases Nat.lt_or_ge n.natAbs (2 ^ 53) with small | large
  · obtain ⟨positive, parts⟩ := unpack_ofInt_of_lt nonzero small
    refine ⟨_, _, positive, parts, ?_⟩
    rw [Int.neg_neg, Int.toNat_natCast, Nat.one_shiftLeft, Nat.mul_mod_left]
  · obtain ⟨mantissa, exponent, positive, parts, whole⟩ := unpack_ofInt_of_ge large bound
    refine ⟨mantissa, exponent, positive, parts, ?_⟩
    rw [Int.toNat_of_nonpos (by omega), Nat.shiftLeft_zero, Nat.mod_one]

section Integer

variable {n : Int} (bound : n.natAbs < 2 ^ 64)

include bound

theorem isFinite_ofInt : (ofInt n).isFinite := by
  by_cases zero : n = 0
  · rw [zero]
    rfl
  · obtain ⟨_, _, _, parts, _⟩ := exists_unpack_ofInt zero bound
    rw [isFinite_eq, parts]
    rfl

theorem hasFraction_ofInt : hasFraction (ofInt n) = false := by
  have integral : isIntegral (ofInt n) = true := by
    by_cases zero : n = 0
    · rw [zero]
      rfl
    · obtain ⟨_, _, _, parts, whole⟩ := exists_unpack_ofInt zero bound
      rw [isIntegral, parts]
      exact decide_eq_true whole
  rw [hasFraction, integral, Bool.not_true, Bool.and_false]

theorem ofInt_beq_zero (nonzero : n ≠ 0) : (ofInt n == 0) = false := by
  obtain ⟨_, _, _, parts, _⟩ := exists_unpack_ofInt nonzero bound
  rw [beq_eq, parts, unpack_zero]
  cases signOf n <;> rfl

theorem ofInt_lt_zero_iff : ofInt n < 0 ↔ n < 0 := by
  by_cases zero : n = 0
  · rw [zero]
    decide
  · obtain ⟨_, _, _, parts, _⟩ := exists_unpack_ofInt zero bound
    rw [← signOf_eq_negative_iff, lt_iff, parts, unpack_zero]
    cases signOf n
    · exact iff_of_true rfl rfl
    · exact iff_of_false nofun nofun

theorem zero_lt_ofInt (positive : 0 < n) : 0 < ofInt n := by
  have zero : n ≠ 0 := by omega
  obtain ⟨_, _, _, parts, _⟩ := exists_unpack_ofInt zero bound
  rw [lt_iff, parts, unpack_zero, signOf, if_neg (by omega)]
  rfl

end Integer

theorem apply_mul (sign : Sign) (m n : Int) : sign.apply (m * n) = sign.apply m * n := by
  cases sign
  · exact (Int.neg_mul m n).symm
  · rfl

theorem apply_filled_up (n : Int) (places : Nat) :
    ((signOf n).apply (n.natAbs * 2 ^ places : Nat) : ℚ) * 2 ^ (-(places : Int)) = n :=
  calc
    ((signOf n).apply (n.natAbs * 2 ^ places : Nat) : ℚ) * 2 ^ (-(places : Int))
      = (n : ℚ) * 2 ^ places * (2 ^ places)⁻¹ := by
        rw [Int.natCast_mul, apply_mul, apply_signOf, zpow_neg, zpow_natCast]
        push_cast
        rfl
    _ = n := mul_inv_cancel_right₀ (pow_ne_zero places two_ne_zero) (n : ℚ)

/-- Integers of at most 53 bits are exact. -/
theorem toRat?_ofInt_of_lt {n : Int} (small : n.natAbs < 2 ^ 53) :
    toRat? (ofInt n) = some (n : ℚ) := by
  by_cases zero : n = 0
  · rw [zero]
    rfl
  · obtain ⟨_, parts⟩ := unpack_ofInt_of_lt zero small
    rw [toRat?, parts]
    exact congrArg some (apply_filled_up n _)

/-- Larger integers lose their last bit, whatever it is. -/
theorem exists_even_toRat?_ofInt {n : Int} (large : 2 ^ 53 ≤ n.natAbs)
    (bound : n.natAbs < 2 ^ 64) : ∃ k : Int, toRat? (ofInt n) = some (k : ℚ) ∧ Even k := by
  obtain ⟨mantissa, exponent, _, parts, whole⟩ := unpack_ofInt_of_ge large bound
  obtain ⟨places, rfl⟩ : ∃ places : Nat, exponent = (places + 1 : Nat) :=
    ⟨exponent.toNat - 1, by omega⟩
  refine ⟨(signOf n).apply mantissa * 2 ^ (places + 1), ?_, ?_⟩
  · rw [toRat?, parts]
    refine congrArg some ?_
    rw [zpow_natCast]
    push_cast
    rfl
  · rw [pow_succ', mul_left_comm]
    exact even_two_mul _

end Binary64
end Calculator
