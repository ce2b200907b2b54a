import Mathlib.Data.Int.ModEq
import Mathlib.Data.Rat.Floor
import Calculator.Proofs.Binary64.Integer
import Calculator.Proofs.Binary64.Remainder
import Calculator.Proofs.Value.Integer

/-!
# Remainders

A remainder is computed from the one for a quotient rounded toward zero.  For integers it is exact
for the quotient rounded down, with all divisors but zero, and nothing is lost on the way.  With a
float among the operands it may be rounded, but it keeps to the side of the divisor and does not
exceed it.
-/

namespace Calculator

/-- A remainder for the quotient rounded down, on the side of zero where the divisor is. -/
structure IsFlooredRemainder (m n rest : Int64) : Prop where
  exact : rest.toInt = m.toInt - n.toInt * ⌊(m.toInt : ℚ) / n.toInt⌋
  congruent : rest.toInt ≡ m.toInt [ZMOD n.toInt]
  positive : 0 < n.toInt → 0 ≤ rest.toInt ∧ rest.toInt < n.toInt
  negative : n.toInt < 0 → n.toInt < rest.toInt ∧ rest.toInt ≤ 0
  /-- If the other remainder has to be moved, 64 bits hold the sum. -/
  unbounded : rest ≠ m % n → rest.toInt = (m % n).toInt + n.toInt

theorem floor_div_eq_fdiv (m n : Int) : ⌊(m : ℚ) / n⌋ = m.fdiv n := by
  have natural (m : Int) (n : Nat) : ⌊(m : ℚ) / (n : Int)⌋ = m.fdiv n := by
    rw [Int.cast_natCast, Rat.floor_intCast_div_natCast,
      Int.fdiv_eq_ediv_of_nonneg m (Int.natCast_nonneg n)]
  rcases Int.eq_nat_or_neg n with ⟨n, rfl | rfl⟩
  · exact natural m n
  · rw [Int.cast_neg, ← neg_div_neg_eq, neg_neg, ← Int.cast_neg, natural, ← Int.neg_fdiv_neg,
      neg_neg]

/-- A remainder that is not the one for a quotient rounded toward zero is moved by one divisor. -/
theorem toInt_flooredRemainder_of_ne {m n : Int64} (moved : flooredRemainder m n ≠ m % n) :
    (flooredRemainder m n).toInt = (m % n).toInt + n.toInt := by
  rw [ne_eq, ← Int64.toInt_inj, Int64.toInt_mod, toInt_flooredRemainder, fmod_eq_ite_tmod] at moved
  rw [toInt_flooredRemainder, Int64.toInt_mod, fmod_eq_ite_tmod]
  split at moved
  · rename_i apart
    rw [if_pos apart]
  · exact absurd rfl moved

theorem isFlooredRemainder_flooredRemainder (m n : Int64) :
    IsFlooredRemainder m n (flooredRemainder m n) := by
  have size : (flooredRemainder m n).toInt = m.toInt.fmod n.toInt := toInt_flooredRemainder m n
  refine ⟨?exact, ?congruent, ?positive, ?negative, toInt_flooredRemainder_of_ne⟩
  case exact => rw [size, floor_div_eq_fdiv, Int.fmod_def]
  case congruent =>
    rw [size, Int.modEq_iff_dvd, Int.fmod_def, Int.sub_sub_self]
    exact Int.dvd_mul_right _ _
  case positive =>
    intro positive
    rw [size]
    exact ⟨Int.fmod_nonneg_of_pos m.toInt positive, Int.fmod_lt_of_pos m.toInt positive⟩
  case negative =>
    intro negative
    have mirrored : 0 < -n.toInt := by omega
    have nonneg := Int.fmod_nonneg_of_pos (-m.toInt) mirrored
    have small := Int.fmod_lt_of_pos (-m.toInt) mirrored
    rw [Int.neg_fmod_neg, ← size] at nonneg small
    omega

/-- The remainder of integers is that of exact division with the quotient rounded down.  It exists
for every divisor but zero, also where the quotient does not fit into 64 bits. -/
theorem mod_eq_floored_remainder (m : Int64) {n : Int64} (nonzero : n ≠ 0) :
    ∃ rest, Value.mod (.integer m) (.integer n) = .ok (.integer rest) ∧
      IsFlooredRemainder m n rest ∧ (m = Int64.minValue → n = -1 → rest = 0) := by
  have not_zero : ¬(Value.integer n).isZero := by
    rwa [Value.isZero, decide_eq_true_iff]
  refine ⟨flooredRemainder m n, if_neg not_zero, isFlooredRemainder_flooredRemainder m n, ?_⟩
  rintro rfl rfl
  decide

/-- The quotient does not fit into 64 bits, but the remainder does. -/
theorem mod_least_by_minus_one :
    (-1 : Int64) ≠ 0 ∧
      ∃ rest, Value.mod (.integer Int64.minValue) (.integer (-1)) = .ok (.integer rest) ∧
        IsFlooredRemainder Int64.minValue (-1) rest ∧ rest = 0 := by
  have nonzero : (-1 : Int64) ≠ 0 := by decide
  obtain ⟨rest, found, floored, zero⟩ := mod_eq_floored_remainder Int64.minValue nonzero
  exact ⟨nonzero, rest, found, floored, zero rfl rfl⟩

theorem Value.toFloat_beq_zero {value : Value} (nonzero : value.isZero = false) :
    (value.toFloat == 0) = false := by
  cases value with
  | integer n =>
      refine Binary64.ofInt_beq_zero (natAbs_toInt_lt n) fun zero => ?_
      exact of_decide_eq_false nonzero (Int64.toInt_inj.mp zero)
  | float x => exact nonzero
  | signalingNaN => rfl

theorem Value.mod_eq_modulo {left right : Value} (float : ¬(left.isInteger ∧ right.isInteger))
    (nonzero : right.isZero = false) :
    left.mod right = .ok (.float (Binary64.modulo left.toFloat right.toFloat)) := by
  unfold mod
  rw [if_neg (Bool.eq_false_iff.mp nonzero)]
  split
  · exact absurd ⟨rfl, rfl⟩ float
  · rfl

/-- With a float among the operands, and a divisor other than zero, there is a remainder; it is not
a number only if an operand is not one, or if the dividend is infinite.  Otherwise it has the sign
of the divisor, zeros included, and does not exceed it, infinite divisors included. -/
theorem float_remainder_keeps_to_divisor {left right : Value}
    (float : ¬(left.isInteger ∧ right.isInteger)) (nonzero : right.isZero = false) :
    ∃ rest : Float, left.mod right = .ok (.float rest) ∧
      (rest.isNaN ↔ left.toFloat.isNaN ∨ right.toFloat.isNaN ∨ left.toFloat.isInf) ∧
      (rest.isNaN = false → Binary64.sign rest = Binary64.sign right.toFloat ∧
        rest.abs ≤ right.toFloat.abs) := by
  refine ⟨_, Value.mod_eq_modulo float nonzero, ?_⟩
  by_cases undefined : left.toFloat.isNaN ∨ right.toFloat.isNaN ∨ left.toFloat.isInf
  · have nan := Binary64.isNaN_modulo undefined
    exact ⟨iff_of_true nan undefined, fun number => absurd nan (Bool.eq_false_iff.mp number)⟩
  · have within : Binary64.IsWithin (Binary64.modulo left.toFloat right.toFloat) right.toFloat := by
      simp only [not_or, Bool.not_eq_true] at undefined
      exact Binary64.isWithin_modulo (Binary64.isFinite_of_not undefined.1 undefined.2.2)
        undefined.2.1 (Value.toFloat_beq_zero nonzero)
    have number := within.isNaN_eq_false
    exact ⟨iff_of_false (Bool.eq_false_iff.mp number) undefined,
      fun _ => ⟨within.side, within.size⟩⟩

/-- The negative float next to zero. -/
def leastNegative : Float :=
  Binary64.pack (.finite .negative 1 (-1074) Nat.one_pos)

/-- It is moved up by one divisor, and the sum is rounded to the divisor. -/
theorem remainder_of_leastNegative_keeps_to_one :
    ¬((Value.float leastNegative).isInteger ∧ (Value.integer 1).isInteger) ∧
    (Value.integer 1).isZero = false ∧
    ∃ rest : Float, (Value.float leastNegative).mod (.integer 1) = .ok (.float rest) ∧
      rest = 1 ∧ Binary64.sign rest = .positive ∧ rest.abs ≤ (Value.integer 1).toFloat.abs := by
  have float : ¬((Value.float leastNegative).isInteger ∧ (Value.integer 1).isInteger) := by decide
  have nonzero : (Value.integer 1).isZero = false := by decide
  obtain ⟨rest, result, number, within⟩ := float_remainder_keeps_to_divisor float nonzero
  have defined : rest.isNaN = false := by
    refine Bool.eq_false_iff.mpr fun nan => ?_
    rcases number.mp nan with undefined | undefined | undefined <;> cases undefined
  have one : Binary64.modulo (Value.float leastNegative).toFloat (Value.integer 1).toFloat = 1 := by
    decide +kernel
  have moved := Value.mod_eq_modulo float nonzero
  rw [result, one] at moved
  exact ⟨float, nonzero, rest, result, Value.float.inj (Except.ok.inj moved), within defined⟩

end Calculator
