import Calculator.Binary64.Remainder
import Calculator.Proofs.Binary64.Canonical

/-!
# Remainders of floats

A remainder of finite floats is exact: on the finer of the two exponents it is an integer of at most
53 bits.  It lies on the side of zero where the dividend is and is nearer to zero than the divisor.
Moved by one divisor it changes the side; the sum is rounded, but not beyond the divisor.
-/

namespace Calculator
namespace Binary64

open Float.Model (UnpackedFloat)
open Float.Model.UnpackedFloat (Sign)

variable {x y : Float}

section Parts

variable {sign otherSign : Sign} {mantissa other : ℕ} {exponent otherExponent : ℤ}
  {positive : 0 < mantissa} {otherPositive : 0 < other}

theorem shiftLeft_mul_zpow {common : ℤ} (lower : common ≤ exponent) (n : ℕ) :
    ((n <<< (exponent - common).toNat : ℕ) : ℚ) * 2 ^ common = n * 2 ^ exponent := by
  obtain ⟨places, rfl⟩ := Int.le.dest lower
  rw [add_sub_cancel_left, Int.toNat_natCast, Nat.shiftLeft_eq, zpow_add_natCast, ← mul_assoc]
  push_cast
  rfl

theorem two_zpow_le_mul {n : ℕ} {common : ℤ} (positive : 0 < n) (least : -1074 ≤ common) :
    (2 : ℚ) ^ (-1074 : ℤ) ≤ n * 2 ^ common :=
  calc
    (2 : ℚ) ^ (-1074 : ℤ) ≤ 2 ^ common := zpow_le_zpow_right₀ one_le_two least
    _ ≤ n * 2 ^ common :=
      le_mul_of_one_le_left (zpow_pos two_pos common).le (by exact_mod_cast positive)

/-- On the finer exponent one of the operands keeps its mantissa, so that no bits are added. -/
theorem mod_shiftLeft_lt (few : mantissa < 2 ^ 53) (otherFew : other < 2 ^ 53)
    (positive : 0 < other) (exponent otherExponent : ℤ) :
    mantissa <<< (exponent - min exponent otherExponent).toNat %
        other <<< (otherExponent - min exponent otherExponent).toNat < 2 ^ 53 := by
  rcases le_total exponent otherExponent with lower | lower
  · rw [min_eq_left lower, Int.sub_self, Int.toNat_zero, Nat.shiftLeft_zero]
    exact (Nat.mod_le _ _).trans_lt few
  · rw [min_eq_right lower, Int.sub_self, Int.toNat_zero, Nat.shiftLeft_zero]
    exact (Nat.mod_lt _ positive).trans otherFew

/-- A remainder has the sign of the dividend and is below the divisor. -/
theorem unpack_remainder (parts : unpack x = .finite sign mantissa exponent positive)
    (otherParts : unpack y = .finite otherSign other otherExponent otherPositive) :
    unpack (remainder x y) = .zero sign ∨
      ∃ bits place nonzero, unpack (remainder x y) = .finite sign bits place nonzero ∧
        (bits : ℚ) * 2 ^ place < other * 2 ^ otherExponent := by
  have canonical := isCanonical_of_unpack parts
  have otherCanonical := isCanonical_of_unpack otherParts
  have least := canonical.least
  have otherLeast := otherCanonical.least
  have greatest := canonical.greatest
  have few := mod_shiftLeft_lt canonical.bits otherCanonical.bits otherPositive exponent
    otherExponent
  rw [remainder, parts, otherParts, remainderParts]
  generalize shared : min exponent otherExponent = common at few
  generalize mantissa <<< (exponent - common).toNat = left at few
  generalize divided : other <<< (otherExponent - common).toNat = right at few
  split
  · left
    cases sign <;> rfl
  rename_i nonzero
  right
  obtain ⟨rest, place, rest_positive, finite, rest_canonical, size⟩ :=
    (isRounded_round sign (Nat.pos_of_ne_zero nonzero) common).exists_eq
      (two_zpow_le_mul (Nat.pos_of_ne_zero nonzero) (by omega)) few (by omega) (by omega) rfl
  rw [finite]
  refine ⟨rest, place, rest_positive, unpack_pack_of_isCanonical rest_canonical, ?_⟩
  have less : left % right < right := by
    refine Nat.mod_lt left ?_
    rw [← divided, Nat.shiftLeft_eq]
    exact Nat.mul_pos otherPositive (Nat.two_pow_pos _)
  rw [size, ← shiftLeft_mul_zpow (by omega : common ≤ otherExponent) other, divided]
  exact mul_lt_mul_of_pos_right (by exact_mod_cast less) (zpow_pos two_pos common)

theorem unpack_remainder_of_isFinite (finite : x.isFinite)
    (bound : unpack y = .finite otherSign other otherExponent otherPositive) :
    (∃ side, unpack (remainder x y) = .zero side) ∨
      ∃ side bits place nonzero, unpack (remainder x y) = .finite side bits place nonzero ∧
        (bits : ℚ) * 2 ^ place < other * 2 ^ otherExponent := by
  rcases exists_unpack_of_isFinite finite with ⟨side, parts⟩ | ⟨side, _, _, _, parts⟩
  · have zero : remainderParts (.zero side) (unpack y) = .zero side := by
      rw [bound]
      rfl
    refine .inl ⟨side, ?_⟩
    rw [remainder, parts, zero]
    cases side <;> rfl
  · exact (unpack_remainder parts bound).imp (fun zero => ⟨_, zero⟩) fun rest => ⟨_, rest⟩

theorem add_eq_pack (x y : Float) :
    x + y = pack (UnpackedFloat.add .binary64 (unpack x) (unpack y)) :=
  rfl

theorem normalize_apply (sign : Sign) {n : ℕ} (positive : 0 < n) (exponent : ℤ) (zero : Sign) :
    UnpackedFloat.normalize .binary64 (sign.apply n) exponent zero =
      UnpackedFloat.round .binary64 sign n exponent := by
  cases sign with
  | negative =>
      have below : (-n : ℤ) < 0 := by omega
      change UnpackedFloat.normalize .binary64 (-n) exponent zero = _
      rw [UnpackedFloat.normalize, Int.compare_eq_lt.mpr below, Int.neg_neg, Int.toNat_natCast]
  | positive =>
      have above : (0 : ℤ) < n := by omega
      change UnpackedFloat.normalize .binary64 n exponent zero = _
      rw [UnpackedFloat.normalize, Int.compare_eq_gt.mpr above, Int.toNat_natCast]

theorem apply_add_apply {m n : ℕ} (opposite : sign ≠ otherSign) (less : m < n) :
    sign.apply m + otherSign.apply n = otherSign.apply (n - m : ℕ) := by
  have difference : ((n - m : ℕ) : ℤ) = n - m := Int.ofNat_sub less.le
  cases sign <;> cases otherSign
  case negative.negative | positive.positive => exact absurd rfl opposite
  case negative.positive =>
    change -(m : ℤ) + n = (n - m : ℕ)
    omega
  case positive.negative =>
    change (m : ℤ) + -n = -(n - m : ℕ)
    omega

/-- A sum of opposite signs has the sign of the greater number and is no greater. -/
theorem unpack_add_of_lt (parts : unpack x = .finite sign mantissa exponent positive)
    (otherParts : unpack y = .finite otherSign other otherExponent otherPositive)
    (opposite : sign ≠ otherSign)
    (less : (mantissa : ℚ) * 2 ^ exponent < other * 2 ^ otherExponent) :
    ∃ bits place nonzero, unpack (x + y) = .finite otherSign bits place nonzero ∧
      (bits : ℚ) * 2 ^ place ≤ other * 2 ^ otherExponent := by
  have least := (isCanonical_of_unpack parts).least
  have canonical := isCanonical_of_unpack otherParts
  have otherLeast := canonical.least
  rw [add_eq_pack, parts, otherParts, UnpackedFloat.add]
  dsimp only [UnpackedFloat.decreaseExponent]
  generalize shared : min exponent otherExponent = common
  have moved := shiftLeft_mul_zpow (by omega : common ≤ exponent) mantissa
  have otherMoved := shiftLeft_mul_zpow (by omega : common ≤ otherExponent) other
  generalize mantissa <<< (exponent - common).toNat = left at moved
  generalize other <<< (otherExponent - common).toNat = right at otherMoved
  have unit : (0 : ℚ) < 2 ^ common := zpow_pos two_pos common
  have lower : left < right := by
    rw [← moved, ← otherMoved] at less
    exact_mod_cast lt_of_mul_lt_mul_right less unit.le
  have difference : 0 < right - left := Nat.sub_pos_of_lt lower
  have bound : ((right - left : ℕ) : ℚ) * 2 ^ common ≤ other * 2 ^ otherExponent := by
    rw [← otherMoved]
    exact mul_le_mul_of_nonneg_right (by exact_mod_cast Nat.sub_le right left) unit.le
  obtain ⟨bits, place, nonzero, finite, place_canonical, size⟩ :=
    (isRounded_round otherSign difference common).exists_le
      (two_zpow_le_mul difference (by omega)) canonical bound
  rw [apply_add_apply opposite lower, normalize_apply otherSign difference, finite]
  exact ⟨bits, place, nonzero, unpack_pack_of_isCanonical place_canonical, size⟩

end Parts

/-- A float lies on the same side of zero as another one and is no further from zero. -/
structure IsWithin (x bound : Float) : Prop where
  side : sign x = sign bound
  size : x.abs ≤ bound.abs

theorem IsWithin.isNaN_eq_false (within : IsWithin x y) : x.isNaN = false := by
  have size := within.size
  rw [le_iff, unpack_abs] at size
  rw [isNaN_eq]
  cases parts : unpack x <;> rw [parts] at size
  case notANumber => cases size
  all_goals rfl

theorem isWithin_of_le {side : Sign} {mantissa other : ℕ} {exponent otherExponent : ℤ}
    {positive : 0 < mantissa} {otherPositive : 0 < other}
    (parts : unpack x = .finite side mantissa exponent positive)
    (otherParts : unpack y = .finite side other otherExponent otherPositive)
    (less : (mantissa : ℚ) * 2 ^ exponent ≤ other * 2 ^ otherExponent) : IsWithin x y where
  side := by rw [sign, sign, parts, otherParts]
  size := abs_le_abs_of_le parts otherParts less

theorem isWithin_zero (number : y.isNaN = false) : IsWithin (pack (.zero (sign y))) y where
  side := by cases sign y <;> rfl
  size := by
    have zero : (unpack (pack (.zero (sign y)))).abs = .zero .positive := by
      cases sign y <;> rfl
    rw [le_iff, unpack_abs, unpack_abs, zero]
    rw [isNaN_eq] at number
    cases parts : unpack y <;> rw [parts] at number
    case notANumber => cases number
    all_goals rfl

theorem isWithin_of_isInf (number : x.isNaN = false) (same : sign x = sign y)
    (infinite : y.isInf) : IsWithin x y where
  side := same
  size := by
    obtain ⟨side, bound⟩ := exists_unpack_of_isInf infinite
    rw [isNaN_eq] at number
    rw [le_iff, unpack_abs, unpack_abs, bound]
    cases parts : unpack x <;> rw [parts] at number
    case notANumber => cases number
    all_goals rfl

theorem lt_zero_iff (number : x.isNaN = false) (nonzero : (x == 0) = false) :
    x < 0 ↔ sign x = .negative := by
  rw [isNaN_eq] at number
  rw [beq_eq, unpack_zero] at nonzero
  rw [lt_iff, unpack_zero, sign]
  cases parts : unpack x <;> rw [parts] at number nonzero
  case notANumber => cases number
  case zero => cases nonzero
  case infinity side | finite side _ _ _ =>
    cases side
    · exact iff_of_true rfl rfl
    · exact iff_of_false nofun nofun

theorem lt_zero_iff_lt_zero_iff (number : x.isNaN = false) (nonzero : (x == 0) = false)
    (other_number : y.isNaN = false) (other_nonzero : (y == 0) = false) :
    decide (x < 0) = decide (y < 0) ↔ sign x = sign y := by
  rw [decide_eq_decide, lt_zero_iff number nonzero, lt_zero_iff other_number other_nonzero]
  cases sign x <;> cases sign y <;> simp

/-- A remainder is zero, lies on the side of the divisor, or is moved to that side. -/
theorem modulo_cases (x : Float) (number : (remainder x y).isNaN = false)
    (bound_number : y.isNaN = false) (nonzero : (y == 0) = false) :
    modulo x y = pack (.zero (sign y)) ∨ (remainder x y == 0) = false ∧
      (sign (remainder x y) = sign y ∧ modulo x y = remainder x y ∨
        sign (remainder x y) ≠ sign y ∧ modulo x y = remainder x y + y) := by
  unfold modulo
  dsimp only
  split
  · exact .inl rfl
  rename_i rest
  have rest_nonzero := Bool.eq_false_iff.mpr rest
  have same_iff := lt_zero_iff_lt_zero_iff number rest_nonzero bound_number nonzero
  refine .inr ⟨rest_nonzero, ?_⟩
  split
  · rename_i same
    exact .inl ⟨same_iff.mp same, rfl⟩
  · rename_i apart
    exact .inr ⟨fun same => apart (same_iff.mpr same), rfl⟩

theorem remainder_of_isInf (finite : x.isFinite) (infinite : y.isInf) : remainder x y = x := by
  have kept : remainderParts (unpack x) (unpack y) = unpack x := by
    obtain ⟨_, bound⟩ := exists_unpack_of_isInf infinite
    rcases exists_unpack_of_isFinite finite with ⟨_, parts⟩ | ⟨_, _, _, _, parts⟩
    all_goals
      rw [parts, bound]
      rfl
  rw [remainder, kept, pack_unpack]

theorem add_of_isInf (finite : x.isFinite) (infinite : y.isInf) : x + y = y := by
  have kept : UnpackedFloat.add .binary64 (unpack x) (unpack y) = unpack y := by
    obtain ⟨_, bound⟩ := exists_unpack_of_isInf infinite
    rcases exists_unpack_of_isFinite finite with ⟨_, parts⟩ | ⟨_, _, _, _, parts⟩
    all_goals
      rw [parts, bound]
      rfl
  rw [add_eq_pack, kept, pack_unpack]

theorem isWithin_modulo_of_isInf (finite : x.isFinite) (infinite : y.isInf)
    (nonzero : (y == 0) = false) : IsWithin (modulo x y) y := by
  have number := isNaN_of_isInf infinite
  have rest := remainder_of_isInf finite infinite
  have rest_number := (congrArg Float.isNaN rest).trans (isNaN_of_isFinite finite)
  rcases modulo_cases x rest_number number nonzero with zero | ⟨_, ⟨same, kept⟩ | ⟨_, moved⟩⟩
  · rw [zero]
    exact isWithin_zero number
  · rw [kept]
    exact isWithin_of_isInf rest_number same infinite
  · rw [moved, rest, add_of_isInf finite infinite]
    exact isWithin_of_isInf number rfl infinite

theorem isWithin_modulo_of_finite {side : Sign} {mantissa : ℕ} {exponent : ℤ}
    {positive : 0 < mantissa} (finite : x.isFinite)
    (bound : unpack y = .finite side mantissa exponent positive) : IsWithin (modulo x y) y := by
  have number : y.isNaN = false := by rw [isNaN_eq, bound]; rfl
  have nonzero : (y == 0) = false := by rw [beq_eq, bound]; cases side <;> rfl
  rcases unpack_remainder_of_isFinite finite bound with
    ⟨zeroSide, parts⟩ | ⟨restSide, bits, place, rest_positive, parts, less⟩
  · have zero : (remainder x y == 0) = true := by rw [beq_eq, parts]; cases zeroSide <;> rfl
    rw [modulo, if_pos zero]
    exact isWithin_zero number
  · have rest_number : (remainder x y).isNaN = false := by rw [isNaN_eq, parts]; rfl
    have sides : sign (remainder x y) = restSide ∧ sign y = side := by
      rw [sign, sign, parts, bound]
      exact ⟨rfl, rfl⟩
    rcases modulo_cases x rest_number number nonzero with zero | ⟨_, ⟨same, kept⟩ | ⟨apart, moved⟩⟩
    · rw [zero]
      exact isWithin_zero number
    · rw [sides.1, sides.2] at same
      subst same
      rw [kept]
      exact isWithin_of_le parts bound less.le
    · rw [sides.1, sides.2] at apart
      obtain ⟨_, _, _, sum, size⟩ := unpack_add_of_lt parts bound apart less
      rw [moved]
      exact isWithin_of_le sum bound size

/-- A remainder of a finite dividend is on the side of the divisor, zeros included, and is no
further from zero. -/
theorem isWithin_modulo (finite : x.isFinite) (number : y.isNaN = false)
    (nonzero : (y == 0) = false) : IsWithin (modulo x y) y := by
  cases infinite : y.isInf
  · rcases exists_unpack_of_isFinite (isFinite_of_not number infinite) with
      ⟨side, parts⟩ | ⟨_, _, _, _, parts⟩
    · rw [beq_eq, parts] at nonzero
      cases side <;> cases nonzero
    · exact isWithin_modulo_of_finite finite parts
  · exact isWithin_modulo_of_isInf finite infinite nonzero

theorem remainderParts_eq_notANumber {left right : UnpackedFloat}
    (undefined : left.isNaN ∨ right.isNaN ∨ left.isInf) :
    remainderParts left right = .notANumber := by
  rcases undefined with undefined | undefined | undefined
  · cases left <;> cases undefined
    rfl
  · cases right <;> cases undefined
    cases left <;> rfl
  · cases left <;> cases undefined
    cases right <;> rfl

/-- There is no remainder if an operand is not a number, or if the dividend is infinite. -/
theorem isNaN_modulo (undefined : x.isNaN ∨ y.isNaN ∨ x.isInf) : (modulo x y).isNaN := by
  have rest : remainder x y = nan := congrArg pack (remainderParts_eq_notANumber undefined)
  have sum : (nan + y).isNaN := isNaN_pack (UnpackedFloat.add .binary64 .notANumber (unpack y))
  unfold modulo
  rw [rest]
  dsimp only
  split
  · rename_i zero
    cases zero
  · split
    · rfl
    · exact sum

end Binary64
end Calculator
