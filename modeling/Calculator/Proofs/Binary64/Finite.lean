import Calculator.Proofs.Binary64.Parts

/-!
# Finite results

An absolute value keeps all parts but the sign.  A square root has about half of the exponent of its
square, far from the greatest one, and so it does not become infinite.
-/

namespace Calculator
namespace Binary64

open Float.Model (UnpackedFloat Format)
open Float.Model.UnpackedFloat (Sign Accuracy unpackExponent unpackMantissa roundWithAccuracy)

variable {x : Float}

theorem isFinite_zero : (0 : Float).isFinite :=
  rfl

theorem isFinite_one : (1 : Float).isFinite :=
  rfl

theorem isNaN_abs (x : Float) : x.abs.isNaN = x.isNaN := by
  rw [isNaN_eq, isNaN_eq, unpack_abs]
  cases unpack x <;> rfl

theorem isFinite_abs (finite : x.isFinite) : x.abs.isFinite := by
  rw [isFinite_eq] at finite
  rw [isFinite_eq, unpack_abs]
  cases parts : unpack x <;> rw [parts] at finite
  case notANumber | infinity => cases finite
  all_goals rfl

theorem isFinite_pack_carried {sign : Sign} {mantissa : Nat} {exponent : Int}
    (bound : exponent < 971) : (pack (carried sign mantissa exponent)).isFinite := by
  unfold carried
  split
  · cases sign <;> rfl
  split
  · exact isFinite_pack (by omega)
  · exact isFinite_pack (by omega)

/-- A root has half of the bits of its square. -/
theorem two_mul_log2_sqrt_lt {n bits : Nat} (bound : n < 2 ^ bits) (positive : 0 < bits) :
    2 * n.sqrt.log2 < bits := by
  by_cases zero : n.sqrt = 0
  · rw [zero]
    exact positive
  · refine (Nat.pow_lt_pow_iff_right Nat.one_lt_two).mp ?_
    calc
      2 ^ (2 * n.sqrt.log2) = (2 ^ n.sqrt.log2) ^ 2 := by rw [Nat.mul_comm, Nat.pow_mul]
      _ ≤ n.sqrt ^ 2 := Nat.pow_le_pow_left (Nat.log2_self_le zero) 2
      _ ≤ n := Nat.sqrt_le' n
      _ < 2 ^ bits := bound

theorem isFinite_pack_root {mantissa : Nat} {exponent place : Int} (accuracy : Accuracy)
    (bits : mantissa < 2 ^ 53) (greatest : exponent ≤ 971) (half : 2 * place ≤ exponent) :
    (pack (roundWithAccuracy .binary64 .positive
      (mantissa <<< (exponent - 2 * place).toNat).sqrt place accuracy)).isFinite := by
  have shifted_bits : mantissa <<< (exponent - 2 * place).toNat <
      2 ^ (53 + (exponent - 2 * place).toNat) := by
    rw [Nat.shiftLeft_eq, Nat.pow_add]
    exact Nat.mul_lt_mul_of_pos_right bits (Nat.two_pow_pos _)
  have root_bits := two_mul_log2_sqrt_lt shifted_bits (by omega)
  rw [roundWithAccuracy_eq _ _ _ _ rfl]
  refine isFinite_pack_carried ?_
  unfold lastPlace
  omega

theorem isFinite_sqrt (nonneg : 0 ≤ x) (finite : x.isFinite) : x.sqrt.isFinite := by
  change (pack (UnpackedFloat.sqrt .binary64 (unpack x))).isFinite
  rw [isFinite_eq] at finite
  rw [le_iff, unpack_zero] at nonneg
  cases parts : unpack x <;> rw [parts] at finite nonneg
  case notANumber | infinity => cases finite
  case zero sign => cases sign <;> rfl
  case finite sign mantissa exponent positive =>
    cases sign
    · cases nonneg
    · have canonical := isCanonical_of_unpack parts
      have half (place : Int) : 2 * min (exponent.ediv 2) place ≤ exponent :=
        Int.le_trans (Int.mul_le_mul_of_nonneg_left (Int.min_le_left _ _) (by decide))
          (Int.mul_ediv_self_le (by decide))
      exact isFinite_pack_root _ canonical.bits canonical.greatest (half _)

theorem isNaN_sqrt (nonneg : 0 ≤ x) : x.sqrt.isNaN = false := by
  cases finite : x.isFinite
  · change (pack (UnpackedFloat.sqrt .binary64 (unpack x))).isNaN = false
    rw [isFinite_eq] at finite
    rw [le_iff, unpack_zero] at nonneg
    cases parts : unpack x <;> rw [parts] at finite nonneg
    case notANumber => cases nonneg
    case infinity sign =>
      cases sign
      · cases nonneg
      · rfl
    case zero | finite => cases finite
  · exact isNaN_of_isFinite (isFinite_sqrt nonneg finite)

end Binary64
end Calculator
