import Mathlib.Algebra.Group.Nat.Defs
import Calculator.Binary64.Basic

/-!
# Rounding

Rounding a mantissa takes one shift to the place of the last bit and, where all bits were set, one
carry.  This leaves at most 53 bits, and at least 53 unless the exponent is the least one.
-/

namespace Calculator
namespace Binary64

open Float.Model (UnpackedFloat Format totalExponent)
open Float.Model.UnpackedFloat (Sign Accuracy ExtendedMantissa shiftToTargetExponent
  shiftToExponent roundWithAccuracy)

/-- The exponent at which the mantissa of a number has 53 bits, or the least one. -/
def lastPlace (mantissa : Nat) (exponent : Int) : Int :=
  max (mantissa.log2 + exponent - 52) (-1074)

theorem targetExponent_eq (mantissa : Nat) (exponent : Int) :
    Format.binary64.targetExponent (totalExponent mantissa exponent) =
      lastPlace mantissa exponent := by
  have bits : (Format.binary64.mantissaBits : Int) = 53 := rfl
  have least : Format.binary64.minExponent = -1074 := rfl
  rw [Format.targetExponent, totalExponent, bits, least, lastPlace]
  congr 1
  omega

theorem mantissa_shiftRight (mantissa : ExtendedMantissa) (places : Nat) :
    (mantissa >>> places).mantissa = mantissa.mantissa / 2 ^ places := by
  induction places with
  | zero => exact (Nat.div_one _).symm
  | succ places induction =>
      calc
        (mantissa >>> (places + 1)).mantissa = (mantissa >>> places).mantissa / 2 := rfl
        _ = mantissa.mantissa / 2 ^ (places + 1) := by
          rw [induction, Nat.div_div_eq_div_mul, Nat.pow_succ]

theorem roundedMantissa_bounds (mantissa : ExtendedMantissa) :
    mantissa.mantissa ≤ mantissa.roundedMantissa ∧
      mantissa.roundedMantissa ≤ mantissa.mantissa + 1 := by
  obtain ⟨bits, round, sticky⟩ := mantissa
  have parity : bits % 2 ≤ 1 := by omega
  cases round <;> cases sticky
  case true.false => exact ⟨Nat.le_add_right _ _, Nat.add_le_add_left parity _⟩
  case true.true => exact ⟨Nat.le_succ bits, Nat.le_refl _⟩
  all_goals exact ⟨Nat.le_refl bits, Nat.le_succ bits⟩

/-- The mantissa after a shift by some places, rounded. -/
def shifted (mantissa : Nat) (accuracy : Accuracy) (places : Nat) : Nat :=
  (ExtendedMantissa.ofMantissaAndAccuracy mantissa accuracy >>> places).roundedMantissa

theorem shifted_zero (mantissa : Nat) : shifted mantissa .exact 0 = mantissa :=
  rfl

theorem shifted_bounds (mantissa : Nat) (accuracy : Accuracy) (places : Nat) :
    mantissa / 2 ^ places ≤ shifted mantissa accuracy places ∧
      shifted mantissa accuracy places ≤ mantissa / 2 ^ places + 1 := by
  have start : (ExtendedMantissa.ofMantissaAndAccuracy mantissa accuracy).mantissa = mantissa := by
    unfold ExtendedMantissa.ofMantissaAndAccuracy
    split <;> rfl
  have bounds := roundedMantissa_bounds
    (ExtendedMantissa.ofMantissaAndAccuracy mantissa accuracy >>> places)
  rwa [mantissa_shiftRight, start] at bounds

/-- The parts of a shifted mantissa. -/
def finished (sign : Sign) (shift : ExtendedMantissa × Int) : UnpackedFloat :=
  if zero : shift.1.mantissa = 0 then .zero sign
  else .finite sign shift.1.mantissa shift.2 (Nat.pos_of_ne_zero zero)

/-- The parts of a rounded mantissa; one of more than 53 bits is halved. -/
def carried (sign : Sign) (mantissa : Nat) (exponent : Int) : UnpackedFloat :=
  if zero : mantissa = 0 then .zero sign
  else if mantissa < 2 ^ 53 then .finite sign mantissa exponent (Nat.pos_of_ne_zero zero)
  else .finite sign (2 ^ 52) (exponent + 1) (Nat.two_pow_pos 52)

theorem carried_of_lt {sign : Sign} {mantissa : Nat} {exponent : Int} (positive : 0 < mantissa)
    (small : mantissa < 2 ^ 53) :
    carried sign mantissa exponent = .finite sign mantissa exponent positive := by
  rw [carried, dif_neg (Nat.ne_of_gt positive), if_pos small]

theorem finished_shift {sign : Sign} {mantissa : Nat} {exponent : Int}
    (bound : mantissa ≤ 2 ^ 53) (least : -1074 ≤ exponent) :
    finished sign (shiftToTargetExponent .binary64 mantissa exponent .exact) =
      carried sign mantissa exponent := by
  rw [shiftToTargetExponent, targetExponent_eq, shiftToExponent]
  rcases Nat.lt_or_eq_of_le bound with small | rfl
  · have bits : mantissa.log2 < 53 := by
      by_cases zero : mantissa = 0
      · rw [zero]
        decide
      · exact (Nat.log2_lt zero).mpr small
    have places : (lastPlace mantissa exponent - exponent).toNat = 0 := by
      unfold lastPlace
      omega
    rw [places, Int.natCast_zero, Int.add_zero]
    by_cases zero : mantissa = 0
    · subst zero
      rfl
    · rw [carried_of_lt (Nat.pos_of_ne_zero zero) small]
      exact dif_neg zero
  · have places : (lastPlace (2 ^ 53) exponent - exponent).toNat = 1 := by
      rw [lastPlace, Nat.log2_two_pow]
      omega
    rw [places]
    rfl

/-- Rounding is a shift to the last place and a carry. -/
theorem roundWithAccuracy_eq (sign : Sign) (mantissa : Nat) (exponent : Int) (accuracy : Accuracy)
    {places : Nat} (last : places = (lastPlace mantissa exponent - exponent).toNat) :
    roundWithAccuracy .binary64 sign mantissa exponent accuracy =
      carried sign (shifted mantissa accuracy places) (exponent + places) := by
  have bits : mantissa.log2 + 1 ≤ 53 + places := by
    unfold lastPlace at last
    omega
  have below : mantissa / 2 ^ places < 2 ^ 53 := by
    rw [Nat.div_lt_iff_lt_mul (Nat.two_pow_pos places), ← Nat.pow_add]
    exact Nat.lt_of_lt_of_le Nat.lt_log2_self (Nat.pow_le_pow_right (by decide) bits)
  have bound : shifted mantissa accuracy places ≤ 2 ^ 53 :=
    Nat.le_trans (shifted_bounds mantissa accuracy places).2 below
  have least : -1074 ≤ exponent + places := by
    unfold lastPlace at last
    omega
  rw [← finished_shift bound least, roundWithAccuracy, shiftToTargetExponent, targetExponent_eq,
    shiftToExponent, ← last]
  rfl

/-- Parts with a mantissa of 53 bits and an exponent in range. -/
structure IsNormal (mantissa : Nat) (exponent : Int) : Prop where
  full : 2 ^ 52 ≤ mantissa
  bits : mantissa < 2 ^ 53
  least : -1074 ≤ exponent
  greatest : exponent ≤ 971

theorem IsNormal.log2_eq {mantissa : Nat} {exponent : Int} (normal : IsNormal mantissa exponent) :
    mantissa.log2 = 52 := by
  have positive := normal.full
  exact (Nat.log2_eq_iff (by omega)).mpr ⟨normal.full, normal.bits⟩

theorem roundWithAccuracy_of_isNormal {mantissa : Nat} {exponent : Int}
    (normal : IsNormal mantissa exponent) (sign : Sign) (positive : 0 < mantissa) :
    roundWithAccuracy .binary64 sign mantissa exponent .exact =
      .finite sign mantissa exponent positive := by
  have places : 0 = (lastPlace mantissa exponent - exponent).toNat := by
    have least := normal.least
    rw [lastPlace, normal.log2_eq]
    omega
  rw [roundWithAccuracy_eq sign mantissa exponent .exact places, shifted_zero, Int.natCast_zero,
    Int.add_zero, carried_of_lt positive normal.bits]

theorem isNormal_of_lt {n : Nat} (positive : 0 < n) (small : n < 2 ^ 53) :
    IsNormal (n * 2 ^ (52 - n.log2)) (-(52 - n.log2 : Nat)) := by
  have nonzero : n ≠ 0 := Nat.ne_of_gt positive
  have bits : n.log2 < 53 := (Nat.log2_lt nonzero).mpr small
  refine ⟨?full, ?bits, by omega, by omega⟩
  case full =>
    calc
      2 ^ 52 = 2 ^ n.log2 * 2 ^ (52 - n.log2) := by
        rw [← Nat.pow_add, Nat.add_sub_cancel' (by omega)]
      _ ≤ n * 2 ^ (52 - n.log2) := Nat.mul_le_mul_right _ (Nat.log2_self_le nonzero)
  case bits =>
    calc
      n * 2 ^ (52 - n.log2) < 2 ^ (n.log2 + 1) * 2 ^ (52 - n.log2) :=
        Nat.mul_lt_mul_of_pos_right Nat.lt_log2_self (Nat.two_pow_pos _)
      _ = 2 ^ 53 := by
        rw [← Nat.pow_add]
        congr 1
        omega

theorem round_of_lt {n : Nat} (positive : 0 < n) (small : n < 2 ^ 53) (sign : Sign) :
    UnpackedFloat.round .binary64 sign n 0 =
      .finite sign (n * 2 ^ (52 - n.log2)) (-(52 - n.log2 : Nat))
        (Nat.mul_pos positive (Nat.two_pow_pos _)) := by
  have places : (0 - lastPlace n 0).toNat = 52 - n.log2 := by
    unfold lastPlace
    omega
  rw [UnpackedFloat.round, targetExponent_eq]
  dsimp only [UnpackedFloat.decreaseExponent]
  rw [places, Nat.shiftLeft_eq, Int.zero_sub]
  exact roundWithAccuracy_of_isNormal (isNormal_of_lt positive small) sign _

/-- An integer of more bits loses the last ones, so that a power of two can be split off. -/
theorem round_of_ge {n : Nat} (large : 2 ^ 53 ≤ n) (bound : n < 2 ^ 64) (sign : Sign) :
    ∃ (mantissa : Nat) (exponent : Int) (positive : 0 < mantissa),
      UnpackedFloat.round .binary64 sign n 0 = .finite sign mantissa exponent positive ∧
        IsNormal mantissa exponent ∧ 0 < exponent := by
  have nonzero : n ≠ 0 := by omega
  have least : 53 ≤ n.log2 := (Nat.le_log2 nonzero).mpr large
  have greatest : n.log2 < 64 := (Nat.log2_lt nonzero).mpr bound
  have none : (0 - lastPlace n 0).toNat = 0 := by
    unfold lastPlace
    omega
  have places : n.log2 - 52 = (lastPlace n 0 - 0).toNat := by
    unfold lastPlace
    omega
  have split : n.log2 - 52 + 52 = n.log2 := by omega
  have full : 2 ^ 52 ≤ n / 2 ^ (n.log2 - 52) := by
    rw [Nat.le_div_iff_mul_le (Nat.two_pow_pos _), ← Nat.pow_add, Nat.add_comm, split]
    exact Nat.log2_self_le nonzero
  have bits : n / 2 ^ (n.log2 - 52) < 2 ^ 53 := by
    rw [Nat.div_lt_iff_lt_mul (Nat.two_pow_pos _), ← Nat.pow_add, Nat.add_comm]
    exact Nat.lt_of_lt_of_le Nat.lt_log2_self (Nat.pow_le_pow_right (by decide) (by omega))
  have bounds := shifted_bounds n .exact (n.log2 - 52)
  rw [UnpackedFloat.round, targetExponent_eq]
  dsimp only [UnpackedFloat.decreaseExponent]
  rw [none, Nat.shiftLeft_zero, Int.natCast_zero, Int.sub_zero,
    roundWithAccuracy_eq sign n 0 .exact places, Int.zero_add]
  rcases Nat.lt_or_ge (shifted n .exact (n.log2 - 52)) (2 ^ 53) with fits | carry
  · refine ⟨_, _, _, carried_of_lt (by omega) fits, ⟨?_, fits, ?_, ?_⟩, ?_⟩ <;> omega
  · have carried_eq : shifted n .exact (n.log2 - 52) = 2 ^ 53 := by omega
    rw [carried_eq]
    refine ⟨_, _, _, rfl, ⟨Nat.le_refl _, by decide, ?_, ?_⟩, ?_⟩ <;> omega

end Binary64
end Calculator
