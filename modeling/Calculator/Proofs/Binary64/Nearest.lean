import Calculator.Proofs.Binary64.Parts

/-!
# Nearest mantissas

A mantissa with its two further bits, or with an accuracy, stands for a number of which it is the
integer part.  Shifts keep track of that number, so that rounding takes the nearest integer at the
place of the last bit, and the even one of two.
-/

namespace Calculator
namespace Binary64

open Float.Model (UnpackedFloat)
open Float.Model.UnpackedFloat (Sign Accuracy ExtendedMantissa roundWithAccuracy accuracyOfFraction)

/-- A natural number is the nearest one to a rational, and the even one if two are equally near. -/
def IsNearest (value : ℚ) (n : ℕ) : Prop :=
  |value - n| < 1 / 2 ∨ |value - n| = 1 / 2 ∧ Even n

namespace IsNearest

variable {value : ℚ} {n m : ℕ}

theorem abs_sub_le (nearest : IsNearest value n) : |value - n| ≤ 1 / 2 :=
  nearest.elim le_of_lt fun tie => tie.1.le

theorem bounds (nearest : IsNearest value n) : (n : ℚ) - 1 / 2 ≤ value ∧ value ≤ n + 1 / 2 := by
  have near := abs_le.mp nearest.abs_sub_le
  constructor <;> linarith

/-- Two nearest numbers next to each other are equally near, and not both even. -/
theorem not_succ (nearest : IsNearest value n) : ¬IsNearest value (n + 1) := by
  intro next
  have value_eq : value = n + 1 / 2 := by
    have below := nearest.bounds.2
    have above := next.bounds.1
    push_cast at above
    linarith
  have half : |value - n| = 1 / 2 := by
    rw [value_eq, add_sub_cancel_left]
    norm_num
  have next_half : |value - (n + 1 : ℕ)| = 1 / 2 := by
    rw [value_eq]
    push_cast
    norm_num
  have even := (nearest.resolve_left (fun less => less.ne half)).2
  have next_even := (next.resolve_left (fun less => less.ne next_half)).2
  exact Nat.even_add_one.mp next_even even

theorem unique (left : IsNearest value n) (right : IsNearest value m) : n = m := by
  have close {n m : ℕ} (left : IsNearest value n) (right : IsNearest value m) : n ≤ m + 1 := by
    have bound : (n : ℚ) ≤ m + 1 := by linarith [left.bounds.1, right.bounds.2]
    exact_mod_cast bound
  have apart {n m : ℕ} (left : IsNearest value n) (right : IsNearest value m) : m ≠ n + 1 := by
    rintro rfl
    exact left.not_succ right
  have upper := close left right
  have lower := close right left
  have not_upper := apart right left
  have not_lower := apart left right
  omega

theorem natCast (n : ℕ) : IsNearest n n :=
  .inl (by rw [sub_self, abs_zero]; exact one_half_pos)

theorem eq_of_natCast (nearest : IsNearest m n) : n = m :=
  nearest.unique (natCast m)

theorem le_of_le (nearest : IsNearest value n) (bound : value ≤ m) : n ≤ m := by
  have less : (n : ℚ) < m + 1 := by linarith [nearest.bounds.1]
  exact Nat.le_of_lt_succ (by exact_mod_cast less)

theorem ge_of_ge (nearest : IsNearest value n) (bound : (m : ℚ) ≤ value) : m ≤ n := by
  have less : (m : ℚ) < n + 1 := by linarith [nearest.bounds.2]
  exact Nat.le_of_lt_succ (by exact_mod_cast less)

end IsNearest

/-- The number of a mantissa and its first further bit. -/
def known (bits : ExtendedMantissa) : ℚ :=
  bits.mantissa + if bits.roundBit then 1 / 2 else 0

/-- A mantissa with its further bits stands for a number: it is cut off behind the first of them,
and the second tells whether anything was cut off. -/
structure StandsFor (bits : ExtendedMantissa) (value : ℚ) : Prop where
  below : known bits ≤ value
  above : value < known bits + 1 / 2
  sticky : bits.stickyBit = true ↔ known bits < value

theorem known_bounds (bits : ExtendedMantissa) :
    (bits.mantissa : ℚ) ≤ known bits ∧ known bits ≤ bits.mantissa + 1 / 2 := by
  unfold known
  split <;> constructor <;> linarith

namespace StandsFor

variable {bits : ExtendedMantissa} {value : ℚ}

theorem mantissa_le (stands : StandsFor bits value) : (bits.mantissa : ℚ) ≤ value :=
  (known_bounds bits).1.trans stands.below

theorem lt_mantissa_add_one (stands : StandsFor bits value) : value < bits.mantissa + 1 := by
  have bound := (known_bounds bits).2
  have above := stands.above
  linarith

theorem exact (n : ℕ) : StandsFor (.ofMantissaAndAccuracy n .exact) n where
  below := by simp [known, ExtendedMantissa.ofMantissaAndAccuracy]
  above := by simp [known, ExtendedMantissa.ofMantissaAndAccuracy]
  sticky := by simp [known, ExtendedMantissa.ofMantissaAndAccuracy]

/-- The remainder of a division tells how far beside the quotient a number lies. -/
theorem ofFraction (n : ℕ) {rest divisor : ℕ} (less : rest < divisor) :
    StandsFor (.ofMantissaAndAccuracy n (accuracyOfFraction rest divisor))
      (n + rest / divisor) := by
  have positive : (0 : ℚ) < divisor := by exact_mod_cast Nat.zero_lt_of_lt less
  have below_one : (rest : ℚ) / divisor < 1 := (div_lt_one positive).mpr (by exact_mod_cast less)
  unfold accuracyOfFraction
  split
  · rename_i zero
    rw [zero, Nat.cast_zero, zero_div, add_zero]
    exact exact n
  rename_i nonzero
  have above_zero : (0 : ℚ) < rest / divisor :=
    div_pos (by exact_mod_cast Nat.pos_of_ne_zero nonzero) positive
  have twice : (rest : ℚ) / divisor = (2 * rest : ℕ) / divisor / 2 := by
    push_cast
    ring
  cases order : compare (2 * rest) divisor with
  | lt =>
      have half : ((2 * rest : ℕ) : ℚ) / divisor < 1 :=
        (div_lt_one positive).mpr (by exact_mod_cast Nat.compare_eq_lt.mp order)
      constructor <;> simp [known, ExtendedMantissa.ofMantissaAndAccuracy] <;> linarith
  | eq =>
      have half : ((2 * rest : ℕ) : ℚ) / divisor = 1 :=
        (div_eq_one_iff_eq positive.ne').mpr (by exact_mod_cast Nat.compare_eq_eq.mp order)
      constructor <;> simp [known, ExtendedMantissa.ofMantissaAndAccuracy] <;> linarith
  | gt =>
      have half : 1 < ((2 * rest : ℕ) : ℚ) / divisor :=
        (one_lt_div positive).mpr (by exact_mod_cast Nat.compare_eq_gt.mp order)
      constructor <;> simp [known, ExtendedMantissa.ofMantissaAndAccuracy] <;> linarith

/-- The last bit of a mantissa becomes the first of its further bits. -/
theorem known_shiftRightOne (bits : ExtendedMantissa) :
    known bits.shiftRightOne = bits.mantissa / 2 := by
  have parity : ((bits.mantissa / 2 : ℕ) : ℚ) * 2 + (bits.mantissa % 2 : ℕ) = bits.mantissa := by
    exact_mod_cast Nat.div_add_mod' bits.mantissa 2
  rw [known, ExtendedMantissa.shiftRightOne, ← parity]
  rcases Nat.mod_two_eq_zero_or_one bits.mantissa with even | odd
  · simp [even]
  · simp [odd, add_div]

theorem shiftRightOne (stands : StandsFor bits value) :
    StandsFor bits.shiftRightOne (value / 2) where
  below := by
    rw [known_shiftRightOne]
    linarith [stands.mantissa_le]
  above := by
    rw [known_shiftRightOne]
    linarith [stands.lt_mantissa_add_one]
  sticky := by
    rw [known_shiftRightOne, div_lt_div_iff_of_pos_right two_pos]
    have below := stands.below
    have sticky := stands.sticky
    change (bits.roundBit || bits.stickyBit) = true ↔ _
    cases round : bits.roundBit <;> rw [known, round] at below sticky
    · simpa using sticky
    · refine iff_of_true rfl ?_
      simp only [if_true] at below
      linarith

theorem shiftRight (stands : StandsFor bits value) (places : ℕ) :
    StandsFor (bits >>> places) (value / 2 ^ places) := by
  induction places with
  | zero =>
      rw [pow_zero, div_one]
      exact stands
  | succ places induction =>
      rw [pow_succ, ← div_div]
      exact induction.shiftRightOne

theorem isNearest (stands : StandsFor bits value) : IsNearest value bits.roundedMantissa := by
  obtain ⟨mantissa, round, sticky⟩ := bits
  obtain ⟨below, above, cut⟩ := stands
  cases round
  case false =>
    simp only [known, Bool.false_eq_true, if_false, add_zero] at below above
    have rounded : ExtendedMantissa.roundedMantissa ⟨mantissa, false, sticky⟩ = mantissa := by
      cases sticky <;> rfl
    rw [rounded]
    refine .inl (abs_lt.mpr ?_)
    constructor <;> linarith
  case true =>
    simp only [known, if_true] at below above cut
    cases sticky
    case false =>
      have middle : value = mantissa + 1 / 2 :=
        le_antisymm (not_lt.mp fun beside => nomatch cut.mpr beside) below
      have rounded : ExtendedMantissa.roundedMantissa ⟨mantissa, true, false⟩ =
          mantissa + mantissa % 2 := rfl
      rw [rounded, middle]
      refine .inr ⟨?_, ?_⟩
      · rcases Nat.mod_two_eq_zero_or_one mantissa with even | odd
        · rw [even]
          norm_num
        · rw [odd]
          push_cast
          norm_num
      · exact Nat.even_add.mpr (by rw [Nat.even_iff, Nat.even_iff, Nat.mod_mod])
    case true =>
      have beside := cut.mp rfl
      have rounded : ExtendedMantissa.roundedMantissa ⟨mantissa, true, true⟩ = mantissa + 1 := rfl
      rw [rounded]
      refine .inl (abs_lt.mpr ?_)
      push_cast
      constructor <;> linarith

end StandsFor

theorem isNearest_shifted {mantissa : ℕ} {accuracy : Accuracy} {value : ℚ}
    (stands : StandsFor (.ofMantissaAndAccuracy mantissa accuracy) value) (places : ℕ) :
    IsNearest (value / 2 ^ places) (shifted mantissa accuracy places) :=
  (stands.shiftRight places).isNearest

/-- The place of the last bit for a number: in front of it are 53 bits, or it is the least place. -/
structure IsLastPlace (value : ℚ) (place : ℤ) : Prop where
  below : value / 2 ^ place < 2 ^ 53
  least : -1074 ≤ place
  full : place = -1074 ∨ 2 ^ 52 ≤ value / 2 ^ place

theorem zpow_add_natCast (place : ℤ) (n : ℕ) : (2 : ℚ) ^ (place + n) = 2 ^ n * 2 ^ place := by
  rw [zpow_add₀ two_ne_zero, zpow_natCast, mul_comm]

theorem div_zpow_lt_iff {value : ℚ} {place : ℤ} {n : ℕ} :
    value / 2 ^ place < 2 ^ n ↔ value < 2 ^ (place + n) := by
  rw [zpow_add_natCast, div_lt_iff₀ (zpow_pos two_pos place)]

theorem le_div_zpow_iff {value : ℚ} {place : ℤ} {n : ℕ} :
    2 ^ n ≤ value / 2 ^ place ↔ 2 ^ (place + n) ≤ value := by
  rw [zpow_add_natCast, le_div_iff₀ (zpow_pos two_pos place)]

/-- A number whose integer part is a mantissa has its last bit where rounding puts it. -/
theorem isLastPlace_lastPlace {mantissa : ℕ} {exponent : ℤ} {value : ℚ}
    (lower : (mantissa : ℚ) ≤ value / 2 ^ exponent)
    (upper : value / 2 ^ exponent < mantissa + 1) (fits : exponent ≤ lastPlace mantissa exponent) :
    IsLastPlace value (lastPlace mantissa exponent) := by
  have below : value < 2 ^ (exponent + (mantissa.log2 + 1 : ℕ)) :=
    div_zpow_lt_iff.mp (upper.trans_le (by exact_mod_cast Nat.lt_log2_self (n := mantissa)))
  refine ⟨div_zpow_lt_iff.mpr (below.trans_le ?_), le_max_right _ _, ?_⟩
  · refine zpow_le_zpow_right₀ one_le_two ?_
    unfold lastPlace
    omega
  · rcases Nat.eq_zero_or_pos mantissa with rfl | positive
    · left
      have none : Nat.log2 0 = 0 := by decide
      unfold lastPlace at fits ⊢
      omega
    · rcases le_or_gt (mantissa.log2 + exponent - 52) (-1074) with low | high
      · exact .inl (max_eq_right low)
      · have above : (2 : ℚ) ^ (exponent + mantissa.log2) ≤ value := by
          refine le_div_zpow_iff.mp (le_trans ?_ lower)
          exact_mod_cast Nat.log2_self_le positive.ne'
        refine .inr (le_div_zpow_iff.mpr ((zpow_le_zpow_right₀ one_le_two ?_).trans above))
        unfold lastPlace
        omega

theorem IsLastPlace.le_of_le {value other : ℚ} {place otherPlace : ℤ}
    (last : IsLastPlace value place) (less : value ≤ other)
    (below : other / 2 ^ otherPlace < 2 ^ 53) (least : -1074 ≤ otherPlace) :
    place ≤ otherPlace := by
  rcases last.full with rfl | full
  · exact least
  · have exponents : place + (52 : ℕ) < otherPlace + (53 : ℕ) :=
      (zpow_lt_zpow_iff_right₀ one_lt_two).mp
        ((le_div_zpow_iff.mp full).trans_lt (less.trans_lt (div_zpow_lt_iff.mp below)))
    omega

/-- Parts are those of a number, rounded at the place of its last bit. -/
def IsRounded (sign : Sign) (value : ℚ) (parts : UnpackedFloat) : Prop :=
  ∃ place mantissa, IsLastPlace value place ∧ IsNearest (value / 2 ^ place) mantissa ∧
    parts = carried sign mantissa place

/-- Rounding rounds the number that a mantissa and an accuracy stand for. -/
theorem isRounded_roundWithAccuracy (sign : Sign) {mantissa : ℕ} {exponent : ℤ}
    {accuracy : Accuracy} {value : ℚ}
    (stands : StandsFor (.ofMantissaAndAccuracy mantissa accuracy) (value / 2 ^ exponent))
    (fits : exponent ≤ lastPlace mantissa exponent) :
    IsRounded sign value (roundWithAccuracy .binary64 sign mantissa exponent accuracy) := by
  have start : (ExtendedMantissa.ofMantissaAndAccuracy mantissa accuracy).mantissa = mantissa := by
    unfold ExtendedMantissa.ofMantissaAndAccuracy
    split <;> rfl
  have lower := stands.mantissa_le
  have upper := stands.lt_mantissa_add_one
  rw [start] at lower upper
  obtain ⟨places, split⟩ : ∃ places : ℕ, lastPlace mantissa exponent = exponent + places :=
    ⟨(lastPlace mantissa exponent - exponent).toNat, by omega⟩
  have nearest := isNearest_shifted stands places
  rw [div_div, mul_comm, ← zpow_add_natCast, ← split] at nearest
  refine ⟨_, _, isLastPlace_lastPlace lower upper fits, nearest, ?_⟩
  have last : places = (lastPlace mantissa exponent - exponent).toNat := by omega
  rw [roundWithAccuracy_eq sign mantissa exponent accuracy last, split]

theorem log2_mul_two_pow {n : ℕ} (positive : 0 < n) (places : ℕ) :
    (n * 2 ^ places).log2 = n.log2 + places := by
  refine (Nat.log2_eq_iff (Nat.mul_pos positive (Nat.two_pow_pos places)).ne').mpr ⟨?_, ?_⟩
  · rw [pow_add]
    exact Nat.mul_le_mul_right _ (Nat.log2_self_le positive.ne')
  · rw [Nat.add_right_comm, pow_add]
    exact Nat.mul_lt_mul_of_pos_right Nat.lt_log2_self (Nat.two_pow_pos places)

/-- A number with a mantissa that is not zero is rounded at any exponent. -/
theorem isRounded_round (sign : Sign) {mantissa : ℕ} (positive : 0 < mantissa) (exponent : ℤ) :
    IsRounded sign (mantissa * 2 ^ exponent)
      (UnpackedFloat.round .binary64 sign mantissa exponent) := by
  rw [UnpackedFloat.round, targetExponent_eq]
  dsimp only [UnpackedFloat.decreaseExponent]
  generalize filled : (exponent - lastPlace mantissa exponent).toNat = places
  have unit : (2 : ℚ) ^ (exponent - places) ≠ 0 := zpow_ne_zero _ two_ne_zero
  have split : (2 : ℚ) ^ exponent = 2 ^ places * 2 ^ (exponent - places) := by
    rw [← zpow_add_natCast, sub_add_cancel]
  refine isRounded_roundWithAccuracy sign ?_ ?_
  · rw [split, ← mul_assoc, mul_div_cancel_right₀ _ unit, Nat.shiftLeft_eq]
    exact_mod_cast StandsFor.exact (mantissa * 2 ^ places)
  · have bits := log2_mul_two_pow positive places
    rw [← Nat.shiftLeft_eq] at bits
    unfold lastPlace at filled ⊢
    omega

end Binary64
end Calculator
