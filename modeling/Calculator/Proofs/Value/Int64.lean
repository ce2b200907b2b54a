import Mathlib.Algebra.Ring.Int.Parity
import Calculator.Value.Arithmetic

/-!
# Integers in 64 bits

What computing in 64 bits leaves of exact arithmetic.  A remainder is moved by its divisor without
leaving 64 bits, and squaring overflows only where the power itself does.
-/

namespace Calculator

/-- 64 bits hold an integer. -/
def Fits (n : Int) : Prop :=
  -9223372036854775808 ≤ n ∧ n ≤ 9223372036854775807

instance (n : Int) : Decidable (Fits n) :=
  inferInstanceAs (Decidable (_ ∧ _))

theorem fits_toInt (n : Int64) : Fits n.toInt :=
  ⟨Int64.minValue_le_toInt n, Int64.toInt_le n⟩

theorem natAbs_toInt_lt (n : Int64) : n.toInt.natAbs < 2 ^ 64 := by
  have range := fits_toInt n
  unfold Fits at range
  omega

theorem int64?_of_fits {n : Int} (fits : Fits n) : ∃ m : Int64, m.toInt = n ∧ int64? n = some m :=
  ⟨.ofInt n, Int64.toInt_ofInt_of_le fits.1 (Int.lt_add_one_of_le fits.2), if_pos fits⟩

theorem int64?_of_not_fits {n : Int} (large : ¬Fits n) : int64? n = none :=
  if_neg large

theorem int64?_toInt (n : Int64) : int64? n.toInt = some n := by
  obtain ⟨m, same, found⟩ := int64?_of_fits (fits_toInt n)
  rw [found, Int64.toInt_inj.mp same]

theorem product?_eq (m n : Int64) : product? m n = int64? (m.toInt * n.toInt) :=
  rfl

/-- Remainders of quotients rounded down and toward zero differ by one divisor, if at all. -/
theorem fmod_eq_ite_tmod (m n : Int) :
    m.fmod n = if m.tmod n ≠ 0 ∧ decide (m.tmod n < 0) ≠ decide (n < 0) then m.tmod n + n
      else m.tmod n := by
  have nonneg : 0 ≤ m → 0 ≤ m.tmod n := Int.tmod_nonneg n
  have nonpos : m < 0 → m.tmod n ≤ 0 := fun negative => by
    have mirrored := Int.tmod_nonneg n (show 0 ≤ -m by omega)
    rw [Int.neg_tmod] at mirrored
    omega
  rw [Int.fmod_eq_tmod]
  simp only [Int.dvd_iff_tmod_eq_zero, ne_eq, decide_eq_decide]
  generalize m.tmod n = rest at nonneg nonpos ⊢
  by_cases zero : rest = 0
  · rw [if_pos zero, if_neg (fun moved => moved.1 zero), Int.add_zero]
  rw [if_neg zero]
  rcases Int.lt_or_le m 0 with negative | natural
  · rw [if_neg (by omega)]
    split <;> split <;> omega
  · rw [if_pos natural]
    split <;> split <;> omega

/-- What a remainder is moved by has the other sign, so the sum lies between both. -/
theorem fits_tmod_add {m n : Int64} (apart : (m.toInt.tmod n.toInt < 0) ≠ (n.toInt < 0)) :
    Fits (m.toInt.tmod n.toInt + n.toInt) := by
  have rest := fits_toInt (m % n)
  have divisor := fits_toInt n
  rw [Int64.toInt_mod] at rest
  unfold Fits at rest divisor ⊢
  rw [ne_eq, propext_iff] at apart
  omega

theorem toInt_add_of_fits {m n : Int64} (fits : Fits (m.toInt + n.toInt)) :
    (m + n).toInt = m.toInt + n.toInt := by
  unfold Fits at fits
  rw [Int64.toInt_add]
  exact Int.bmod_eq_of_le (by omega) (by omega)

theorem toInt_flooredRemainder (m n : Int64) :
    (flooredRemainder m n).toInt = m.toInt.fmod n.toInt := by
  have zero : m % n ≠ 0 ↔ m.toInt.tmod n.toInt ≠ 0 := by
    rw [← Int64.toInt_mod, ne_eq, ne_eq, ← Int64.toInt_inj]
    rfl
  have negative (k : Int64) : k < 0 ↔ k.toInt < 0 := Int64.lt_iff_toInt_lt
  rw [fmod_eq_ite_tmod]
  simp only [flooredRemainder, zero, negative, Int64.toInt_mod]
  split
  · rename_i moved
    have fits : Fits (m.toInt.tmod n.toInt + n.toInt) :=
      fits_tmod_add fun same => moved.2 (decide_eq_decide.mpr (iff_of_eq same))
    rw [toInt_add_of_fits (by rwa [Int64.toInt_mod]), Int64.toInt_mod]
  · exact Int64.toInt_mod m n

/-- From the 64th power on only the bases 0, 1 and -1 have powers in 64 bits. -/
theorem not_fits_pow {base : Int} (large : 2 ≤ base.natAbs) {exponent : Nat}
    (high : 64 ≤ exponent) : ¬Fits (base ^ exponent) := by
  intro fits
  have power : 2 ^ 64 ≤ (base ^ exponent).natAbs := by
    rw [Int.natAbs_pow]
    calc
      2 ^ 64 ≤ 2 ^ exponent := Nat.pow_le_pow_right (by decide) high
      _ ≤ base.natAbs ^ exponent := Nat.pow_le_pow_left large exponent
  unfold Fits at fits
  omega

theorem natAbs_mul_pow (accumulated base : Int) (exponent : Nat) :
    (accumulated * base ^ exponent).natAbs = accumulated.natAbs * base.natAbs ^ exponent := by
  rw [Int.natAbs_mul, Int.natAbs_pow]

theorem fits_mul_of_fits_pow {accumulated base : Int} {exponent : Nat} (odd : exponent % 2 = 1)
    (fits : Fits (accumulated * base ^ exponent)) : Fits (accumulated * base) := by
  have sizes : base = 0 ∨ base = 1 ∨ base = -1 ∨ 2 ≤ base.natAbs := by omega
  rcases sizes with rfl | rfl | rfl | large
  · rwa [zero_pow (by omega)] at fits
  · rwa [one_pow] at fits
  · rwa [(Nat.odd_iff.mpr odd).neg_one_pow] at fits
  rcases Nat.lt_or_ge exponent 2 with least | more
  · obtain rfl : exponent = 1 := by omega
    rwa [pow_one] at fits
  · have double : base.natAbs * 2 ≤ base.natAbs ^ exponent := by
      obtain ⟨rest, rfl⟩ : ∃ rest, exponent = rest + 1 := ⟨exponent - 1, by omega⟩
      calc
        base.natAbs * 2 ≤ base.natAbs * base.natAbs ^ rest :=
          Nat.mul_le_mul_left _ (Nat.le_trans large (Nat.le_self_pow (by omega) _))
        _ = base.natAbs ^ (rest + 1) := Nat.pow_succ'.symm
    have smaller : (accumulated * base).natAbs * 2 ≤ (accumulated * base ^ exponent).natAbs := by
      rw [natAbs_mul_pow, Int.natAbs_mul, Nat.mul_assoc]
      exact Nat.mul_le_mul_left _ double
    unfold Fits at fits ⊢
    omega

/-- Squares are never `2 ^ 63`, so the sizes of the two ends of the range make no difference. -/
theorem fits_square {base : Int} (small : base.natAbs * base.natAbs ≤ 9223372036854775808) :
    Fits (base * base) := by
  have root : base.natAbs ≤ 3037000499 := by
    by_contra large
    have square : 3037000500 * 3037000500 ≤ base.natAbs * base.natAbs :=
      Nat.mul_le_mul (by omega) (by omega)
    omega
  have square : base.natAbs * base.natAbs ≤ 3037000499 * 3037000499 := Nat.mul_le_mul root root
  rw [← Int.natAbs_mul_self' base]
  unfold Fits
  omega

/-- The base is not squared too early: its square is part of the power. -/
theorem fits_square_of_fits_pow {accumulated base : Int} {exponent : Nat}
    (zero : accumulated = 0 → base = 0) (more : 2 ≤ exponent)
    (fits : Fits (accumulated * base ^ exponent)) : Fits (base * base) := by
  by_cases vanishes : base = 0
  · rw [vanishes]
    decide
  apply fits_square
  have positive : 1 ≤ accumulated.natAbs := by omega
  have part : base.natAbs * base.natAbs ≤ (accumulated * base ^ exponent).natAbs := by
    rw [natAbs_mul_pow]
    calc
      base.natAbs * base.natAbs = 1 * base.natAbs ^ 2 := by rw [Nat.one_mul, Nat.pow_two]
      _ ≤ accumulated.natAbs * base.natAbs ^ exponent :=
        Nat.mul_le_mul positive (Nat.pow_le_pow_right (by omega) more)
  unfold Fits at fits
  omega

theorem factor_eq (accumulated base : Int64) (exponent : Nat) :
    (if exponent % 2 = 0 then some accumulated else product? accumulated base) =
      int64? (accumulated.toInt * base.toInt ^ (exponent % 2)) := by
  rcases Nat.mod_two_eq_zero_or_one exponent with even | odd
  · rw [even, if_pos rfl, pow_zero, mul_one, int64?_toInt]
  · rw [odd, if_neg Nat.one_ne_zero, pow_one, product?_eq]

theorem fits_factor_of_fits_pow {accumulated : Int64} {base : Int} {exponent : Nat}
    (fits : Fits (accumulated.toInt * base ^ exponent)) :
    Fits (accumulated.toInt * base ^ (exponent % 2)) := by
  rcases Nat.mod_two_eq_zero_or_one exponent with even | odd
  · rw [even, pow_zero, mul_one]
    exact fits_toInt accumulated
  · rw [odd, pow_one]
    exact fits_mul_of_fits_pow odd fits

/-- Squaring finds every product with a power that 64 bits hold, and no other. -/
theorem powerOnto_eq {accumulated base : Int64} {exponent : Nat}
    (zero : accumulated.toInt = 0 → base.toInt = 0) :
    powerOnto accumulated base exponent = int64? (accumulated.toInt * base.toInt ^ exponent) := by
  fun_induction powerOnto accumulated base exponent with
  | case1 accumulated base => rw [pow_zero, mul_one, int64?_toInt]
  | case2 accumulated base => rw [pow_one, product?_eq]
  | case3 accumulated base exponent some_factor more induction =>
      rw [factor_eq]
      by_cases factor_fits : Fits (accumulated.toInt * base.toInt ^ (exponent % 2))
      case neg =>
        rw [int64?_of_not_fits factor_fits,
          int64?_of_not_fits (mt fits_factor_of_fits_pow factor_fits)]
        rfl
      obtain ⟨product, product_size, found⟩ := int64?_of_fits factor_fits
      rw [found, Option.bind_some, product?_eq]
      by_cases square_fits : Fits (base.toInt * base.toInt)
      case neg =>
        have two_le : 2 ≤ exponent := by omega
        rw [int64?_of_not_fits square_fits,
          int64?_of_not_fits (mt (fits_square_of_fits_pow zero two_le) square_fits)]
        rfl
      obtain ⟨square, square_size, squared⟩ := int64?_of_fits square_fits
      have vanishes : product.toInt = 0 → square.toInt = 0 := by
        rw [product_size, square_size]
        intro product_zero
        have base_zero : base.toInt = 0 := by
          rcases mul_eq_zero.mp product_zero with accumulated_zero | power_zero
          · exact zero accumulated_zero
          · exact eq_zero_of_pow_eq_zero power_zero
        rw [base_zero, zero_mul]
      rw [squared, Option.bind_some, induction product square vanishes, product_size, square_size]
      congr 1
      rw [mul_assoc, ← pow_two, ← pow_mul, ← pow_add, Nat.mod_add_div]

theorem two_le_natAbs {n : Int64} (not_zero : n ≠ 0) (not_one : n ≠ 1) (not_minus_one : n ≠ -1) :
    2 ≤ n.toInt.natAbs := by
  have minus_one : (-1 : Int64).toInt = -1 := rfl
  rw [ne_eq, ← Int64.toInt_inj] at not_zero not_one not_minus_one
  rw [Int64.toInt_zero] at not_zero
  rw [Int64.toInt_one] at not_one
  omega

theorem power?_eq (base : Int64) (exponent : Nat) :
    power? base exponent = int64? (base.toInt ^ exponent) := by
  unfold power?
  split
  · have one : (1 : Int64).toInt = 0 → base.toInt = 0 := fun zero => absurd zero (by decide)
    rw [powerOnto_eq one, Int64.toInt_one, one_mul]
  rename_i high
  have positive : exponent ≠ 0 := by omega
  split
  · rename_i idempotent
    rcases idempotent with rfl | rfl
    · rw [Int64.toInt_zero, zero_pow positive]
      rfl
    · rw [Int64.toInt_one, one_pow]
      rfl
  rename_i other
  split
  · rename_i minus_one
    rw [minus_one, show (-1 : Int64).toInt = -1 from rfl, neg_one_pow_eq_pow_mod_two]
    rcases Nat.mod_two_eq_zero_or_one exponent with even | odd
    · rw [even]
      rfl
    · rw [odd]
      rfl
  · rename_i not_minus_one
    have large : 2 ≤ base.toInt.natAbs :=
      two_le_natAbs (fun zero => other (.inl zero)) (fun one => other (.inr one)) not_minus_one
    rw [int64?_of_not_fits (not_fits_pow large (by omega))]

end Calculator
